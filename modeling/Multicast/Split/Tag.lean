import Multicast.Request
import Multicast.Text.Blank
import Multicast.Text.Numeral
import Multicast.Text.Separated

/-!
Origin tags. Metadata is a list of pieces between semicolons, of which some have the form
`key=value`. The pair with the key `origin_id` names the request a part was split from. Tagging
drops older tags and blank pieces, and keeps all else unchanged and in order.
-/

namespace Multicast
open Text

namespace OriginTag

def key : List Char := "origin_id".toList

/-- Whether a piece is a pair with the tag's key, white space around the key aside. -/
def isTag (piece : List Char) : Bool :=
  match splitFirst? '=' piece with
  | none => false
  | some (name, _) => trim name = key

def keptPieces (metadata : List Char) : List (List Char) :=
  ((metadata.splitOn ';').filter fun piece => !isAllBlank piece).filter fun piece => !isTag piece

def piece (request : RequestId) : List Char := key ++ '=' :: (toString request).toList

def tag (metadata : String) (request : RequestId) : String :=
  String.ofList ([';'].intercalate (keptPieces metadata.toList ++ [piece request]))

def read? (metadata : String) : Option RequestId :=
  match (metadata.toList.splitOn ';').find? isTag with
  | none => none
  | some piece => (splitFirst? '=' piece).bind fun pair => readUInt64? (trim pair.2)

end OriginTag

def Request.originId? (request : Request) : Option RequestId := OriginTag.read? request.metadata

end Multicast
