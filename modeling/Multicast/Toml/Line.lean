/-!
Lines, blanks and comments. Lines end at a line feed; one carriage return before it belongs to the
ending, and no other control character except the tab stands anywhere in a document.
-/

namespace Multicast.Toml

def isShown (character : Char) : Bool :=
  character = '\t' || (' ' ≤ character && character ≠ '\x7f')

def isSpace (character : Char) : Bool := character = ' ' || character = '\t'

def plainLines : List Char → List Char
  | [] => []
  | '\r' :: '\n' :: rest => '\n' :: plainLines rest
  | character :: rest => character :: plainLines rest

def skipSpaces (text : List Char) : List Char := text.dropWhile isSpace

def skipComment (text : List Char) : List Char :=
  if text.head? = some '#' then text.dropWhile isShown else text

def endLine? (text : List Char) : Option (List Char) :=
  match skipComment (skipSpaces text) with
  | [] => some []
  | '\n' :: rest => some rest
  | _ => none

def skipLines (inComment : Bool) : List Char → List Char
  | [] => []
  | character :: rest =>
    if character = '\n' then skipLines false rest
    else if inComment then
      if isShown character then skipLines true rest else character :: rest
    else if character = '#' then skipLines true rest
    else if isSpace character then skipLines false rest
    else character :: rest

end Multicast.Toml
