import Multicast.Text.Numeral
import Multicast.Toml.Line

/-!
Texts between quotes. Single quotes keep every character, double quotes allow escapes, and three
quotes of either kind allow line ends. Two quotes before the closing three belong to the text, and a
line end right after the opening three does not. A backslash at the end of a line drops the line end
and all blanks and line ends after it.
-/

namespace Multicast.Toml
open Multicast.Text

/-- A piece of a document that was read, and what follows it. -/
abbrev Parsed (α : Type) := Option (α × List Char)

def push (character : Char) (parsed : Parsed (List Char)) : Parsed (List Char) :=
  parsed.map fun found => (character :: found.1, found.2)

def charOf? (code : Nat) : Option Char :=
  if code.isValidChar then some (Char.ofNat code) else none

def escaped? (letter : Char) : Option Char :=
  match letter with
  | 'b' => some '\x08'
  | 't' => some '\t'
  | 'n' => some '\n'
  | 'f' => some '\x0c'
  | 'r' => some '\r'
  | '"' => some '"'
  | '\\' => some '\\'
  | _ => none

def codeDigits? (letter : Char) : Option Nat :=
  match letter with
  | 'u' => some 4
  | 'U' => some 8
  | _ => none

inductive Escape where
  /-- No escape is open. -/
  | none
  | backslash
  /-- Some digits of a code point are left; the others make up the value. -/
  | code (left value : Nat)
  /-- A backslash and blanks: the line must end here. -/
  | lineEnd
  /-- A backslash and a line end: blanks and line ends are dropped. -/
  | gap
deriving DecidableEq

/-- Quotes at the end of a text with three quotes around it, once three of them have been read: up to
two more are there, and then the first two belong to the text. -/
def closing (quote : Char) : List Char → List Char × List Char
  | [] => ([], [])
  | [first] => if first = quote then ([quote], []) else ([], [first])
  | first :: second :: rest =>
    if first ≠ quote then ([], first :: second :: rest)
    else if second ≠ quote then ([quote], second :: rest)
    else ([quote, quote], rest)

def escapedText (long : Bool) : Escape → List Char → Parsed (List Char)
  | _, [] => none
  | .backslash, letter :: rest =>
    match escaped? letter, codeDigits? letter with
    | some character, _ => push character (escapedText long .none rest)
    | none, some digits => escapedText long (.code digits 0) rest
    | none, none =>
      if long && letter = '\n' then escapedText long .gap rest
      else if long && isSpace letter then escapedText long .lineEnd rest
      else none
  | .code left value, digit :: rest =>
    match hexDigit? digit with
    | none => none
    | some part =>
      let code := 16 * value + part
      if 1 < left then escapedText long (.code (left - 1) code) rest
      else match charOf? code with
        | none => none
        | some character => push character (escapedText long .none rest)
  | .lineEnd, character :: rest =>
    if character = '\n' then escapedText long .gap rest
    else if isSpace character then escapedText long .lineEnd rest
    else none
  | escape, character :: rest =>
    if escape = .gap && (character = '\n' || isSpace character) then escapedText long .gap rest
    else if character = '\\' then escapedText long .backslash rest
    else if character = '"' then
      if !long then some ([], rest)
      else match rest with
        | '"' :: '"' :: after => some (closing '"' after)
        | _ => push '"' (escapedText long .none rest)
    else if isShown character || (long && character = '\n') then
      push character (escapedText long .none rest)
    else none

def literalText (long : Bool) : List Char → Parsed (List Char)
  | [] => none
  | character :: rest =>
    if character = '\'' then
      if !long then some ([], rest)
      else match rest with
        | '\'' :: '\'' :: after => some (closing '\'' after)
        | _ => push '\'' (literalText long rest)
    else if isShown character || (long && character = '\n') then
      push character (literalText long rest)
    else none

def dropLineEnd : List Char → List Char
  | '\n' :: rest => rest
  | text => text

def shortText : List Char → Parsed (List Char)
  | '"' :: rest => escapedText false .none rest
  | '\'' :: rest => literalText false rest
  | _ => none

def quotedText : List Char → Parsed (List Char)
  | '"' :: '"' :: '"' :: rest => escapedText true .none (dropLineEnd rest)
  | '\'' :: '\'' :: '\'' :: rest => literalText true (dropLineEnd rest)
  | text => shortText text

end Multicast.Toml
