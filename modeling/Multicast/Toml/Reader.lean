import Multicast.Text.Line
import Multicast.Toml.Document
import Multicast.Toml.Scalar
import Multicast.Toml.Text

/-!
Reading documents. Each line is blank or has one statement; only values in brackets and in three
quotes go over line ends. Keys have fewer than eighty parts, and values are nested less than eighty
deep. Repetitions are bounded by the length of the text, each round of which takes something from it.
-/

namespace Multicast.Toml
open Multicast.Text

def isBare (character : Char) : Bool :=
  character.isAlphanum || character = '_' || character = '-'

def readName (text : List Char) : Parsed String :=
  match text.takeWhile isBare with
  | [] => (shortText text).map fun found => (String.ofList found.1, found.2)
  | name => some (String.ofList name, text.dropWhile isBare)

def readParts : (limit : Nat) → List Char → Parsed (List String)
  | 0, _ => none
  | limit + 1, text =>
    match readName (skipSpaces text) with
    | none => none
    | some (name, rest) =>
      match skipSpaces rest with
      | '.' :: later => (readParts limit later).map fun found => (name :: found.1, found.2)
      | after => some ([name], after)

def keyLimit : Nat := 79

def readKey (text : List Char) : Parsed Key :=
  match readParts keyLimit text with
  | none => none
  | some (parts, rest) => parts.getLast?.map fun name => (⟨parts.dropLast, name⟩, rest)

def readPair (inner : List Char → Parsed Value) (text : List Char) : Parsed (Key × Value) :=
  match readKey text with
  | some (key, '=' :: rest) => (inner (skipSpaces rest)).map fun found => ((key, found.1), found.2)
  | _ => none

def readItems (inner : List Char → Parsed Value) : (rounds : Nat) → List Char → Parsed (List Value)
  | 0, _ => none
  | rounds + 1, text =>
    match skipLines false text with
    | ']' :: rest => some ([], rest)
    | start =>
      match inner start with
      | none => none
      | some (item, rest) =>
        match skipLines false rest with
        | ',' :: later => (readItems inner rounds later).map fun found => (item :: found.1, found.2)
        | ']' :: later => some ([item], later)
        | _ => none

def readPairs (inner : List Char → Parsed Value) :
    (rounds : Nat) → List Char → Parsed (List (Key × Value))
  | 0, _ => none
  | rounds + 1, text =>
    match readPair inner text with
    | none => none
    | some (pair, rest) =>
      match skipSpaces rest with
      | ',' :: later => (readPairs inner rounds later).map fun found => (pair :: found.1, found.2)
      | '\x7d' :: later => some ([pair], later)
      | _ => none

def readTable (inner : List Char → Parsed Value) (text : List Char) : Parsed Value :=
  match skipSpaces text with
  | '\x7d' :: rest => some (.table .closed [], rest)
  | start =>
    match readPairs inner start.length start with
    | none => none
    | some (pairs, rest) => (Entries.ofPairs pairs).map fun entries => (.table .closed entries, rest)

def isScalar (character : Char) : Bool :=
  character.isAlphanum || character = '_' || character = '-' || character = '+' ||
    character = '.' || character = ':'

/-- A value without quotes, brackets or braces. A blank may stand between a date and its time. -/
def readBareValue (text : List Char) : Parsed Value :=
  let token := text.takeWhile isScalar
  let rest := text.dropWhile isScalar
  let time := (rest.drop 1).takeWhile isScalar
  if isDate token && rest.head? = some ' ' && time.head?.any isDigit then
    (readScalar? (token ++ 'T' :: time)).map fun value => (value, (rest.drop 1).dropWhile isScalar)
  else (readScalar? token).map fun value => (value, rest)

def readValueWith (inner : List Char → Parsed Value) (text : List Char) : Parsed Value :=
  match text with
  | '[' :: rest => (readItems inner text.length rest).map fun found => (.array found.1, found.2)
  | '\x7b' :: rest => readTable inner rest
  | _ =>
    if text.head? = some '"' || text.head? = some '\'' then
      (quotedText text).map fun found => (.text (String.ofList found.1), found.2)
    else readBareValue text

def readValue : (depth : Nat) → List Char → Parsed Value
  | 0, text => readValueWith (fun _ => none) text
  | depth + 1, text => readValueWith (readValue depth) text

def depthLimit : Nat := 79

def readHeader (close : List Char) (text : List Char) : Parsed Key :=
  match readKey text with
  | none => none
  | some (key, rest) =>
    if close.isPrefixOf rest then some (key, rest.drop close.length) else none

def readStatement (text : List Char) : Parsed Statement :=
  match text with
  | '[' :: '[' :: rest =>
    (readHeader [']', ']'] rest).map fun found => (.elementHeader found.1, found.2)
  | '[' :: rest => (readHeader [']'] rest).map fun found => (.header found.1, found.2)
  | _ => (readPair (readValue depthLimit) text).map fun found =>
      (.pair found.1.1 found.1.2, found.2)

def readStatements : (rounds : Nat) → List Char → Option (List Statement)
  | 0, _ => some []
  | rounds + 1, text =>
    if text.isEmpty then some []
    else match endLine? text with
      | some rest => readStatements rounds rest
      | none =>
        match readStatement (skipSpaces text) with
        | none => none
        | some (statement, rest) =>
          match endLine? rest with
          | none => none
          | some later => (readStatements rounds later).map (statement :: ·)

def dropMark : List Char → List Char
  | '\ufeff' :: rest => rest
  | text => text

def read? (text : String) : Option Entries :=
  let lines := plainLines (dropMark text.toList)
  (readStatements lines.length lines).bind Document.ofStatements

end Multicast.Toml
