import Multicast.Toml.Value

/-!
Typed fields from values. A record is a table, whose fields are found by their names, or an array,
whose items are the fields in their order. Names that are not asked for are ignored.
-/

namespace Multicast.Toml

namespace Value

/-- The fields of a record with the given names. An instant stands for a record without fields. -/
def fields? (names : List String) : Value → Option Entries
  | .table _ entries => some entries
  | .array items => some (names.zip items)
  | .tables elements => some (names.zip (elements.map (.table .declared)))
  | .instant => some []
  | _ => none

def items? : Value → Option (List Value)
  | .array items => some items
  | .tables elements => some (elements.map (.table .declared))
  | _ => none

def text? : Value → Option String
  | .text value => some value
  | _ => none

def boolean? : Value → Option Bool
  | .boolean value => some value
  | _ => none

def nat? (limit : Nat) : Value → Option Nat
  | .integer value => if 0 ≤ value ∧ value ≤ limit then some value.toNat else none
  | _ => none

def uint32? (value : Value) : Option Nat := value.nat? (UInt32.size - 1)

def uint64? (value : Value) : Option Nat := value.nat? (UInt64.size - 1)

/-- A float, or a whole number as the nearest float. -/
def float? : Value → Option Float
  | .float value => some value
  | .integer value => some (Float.ofInt value)
  | _ => none

def isVacant : Value → Bool
  | .table _ entries => entries.isEmpty
  | .array items => items.isEmpty
  | .tables elements => elements.isEmpty
  | _ => false

end Value

namespace Entries
variable {α : Type}

def required (fields : Entries) (name : String) (decode : Value → Option α) : Option α :=
  (fields.lookup name).bind decode

def orElse (fields : Entries) (name : String) (decode : Value → Option α) (missing : α) :
    Option α :=
  match fields.lookup name with
  | none => some missing
  | some value => decode value

def optional (fields : Entries) (name : String) (decode : Value → Option α) : Option (Option α) :=
  fields.orElse name (fun value => (decode value).map some) none

end Entries
end Multicast.Toml
