/-!
Values of TOML documents. A table remembers how it was written, which decides what may still be added
to it: nothing to a table between braces, and no dotted key reaches into a table with a header.
-/

namespace Multicast.Toml

inductive TableForm where
  /-- Named only on the way to a table with a header. -/
  | implied
  /-- Has a header of its own, or is the whole document. -/
  | declared
  /-- Made by a dotted key. -/
  | dotted
  /-- Written between braces, and complete there. -/
  | closed
deriving DecidableEq

inductive Value where
  | text (value : String)
  | integer (value : Int)
  | float (value : Float)
  | boolean (value : Bool)
  /-- A date or a time. No setting takes one, so only its presence is kept. -/
  | instant
  | array (items : List Value)
  | table (form : TableForm) (entries : List (String × Value))
  /-- An array of tables that each have a header, in their order. -/
  | tables (elements : List (List (String × Value)))

abbrev Entries := List (String × Value)

structure Key where
  parents : List String
  name : String
deriving DecidableEq

inductive Statement where
  | pair (key : Key) (value : Value)
  | header (key : Key)
  /-- The header of the next table of an array. -/
  | elementHeader (key : Key)

end Multicast.Toml
