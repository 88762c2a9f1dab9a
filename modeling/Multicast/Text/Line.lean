/-!
Lines of a byte text. A line ends at a line feed, and one carriage return before it belongs to the
ending; what stands after the last line feed is a line only if it is not empty. Each line is UTF-8
on its own, so one bad line does not spoil the lines before it.
-/

namespace Multicast.Text

/-- A line: its characters, or none where its bytes are not UTF-8. -/
abbrev Line := Option (List Char)

def invalidUtf8 : String := "stream did not contain valid UTF-8"

def decodeUtf8? (bytes : List UInt8) : Line :=
  (ByteArray.mk bytes.toArray).utf8Decode?.map Array.toList

/-- A terminated line without the carriage return of its ending. -/
def dropReturn (bytes : List UInt8) : List UInt8 :=
  if bytes.getLast? = some 13 then bytes.dropLast else bytes

def lineBytes (bytes : List UInt8) : List (List UInt8) :=
  let pieces := bytes.splitOn 10
  let unterminated := pieces.getLastD []
  pieces.dropLast.map dropReturn ++ if unterminated.isEmpty then [] else [unterminated]

def lines (bytes : List UInt8) : List Line := (lineBytes bytes).map decodeUtf8?

def encodeUtf8 (text : String) : List UInt8 := text.toUTF8.data.toList

end Multicast.Text
