import Multicast.Toml.Value

/-!
Building documents. Statements fill one tree of tables; each pair goes to the table of the last header
before it. A name is given a value once, and a table has one header. Everything that would change a
value or reopen a table is refused.
-/

namespace Multicast.Toml

namespace Entries

def alter (name : String) (change : Option Value → Option Value) : Entries → Option Entries
  | [] => (change none).map fun value => [(name, value)]
  | entry :: rest =>
    if entry.1 = name then (change (some entry.2)).map fun value => (name, value) :: rest
    else (alter name change rest).map (entry :: ·)

/-- Change the table at the end of a path, given the form of the table the path starts at. Missing
tables on the way are made in the form `made`; of an array of tables the last one is meant. -/
def enter (made : TableForm) (change : TableForm → Entries → Option Entries) :
    (path : List String) → TableForm → Entries → Option Entries
  | [], form, entries => change form entries
  | name :: path, _, entries => alter name (fun
      | none => (enter made change path made []).map (.table made)
      | some (.table form inner) =>
        if form = .closed ∨ (form = .declared ∧ made = .dotted) then none
        else (enter made change path form inner).map (.table form)
      | some (.tables elements) =>
        match elements.getLast? with
        | none => none
        | some last => (enter made change path .declared last).map fun changed =>
            .tables (elements.dropLast ++ [changed])
      | some _ => none) entries

/-- Add a pair. A dotted key adds only to tables that dotted keys made. -/
def insertPair (key : Key) (value : Value) (entries : Entries) : Option Entries :=
  enter .dotted (fun form inner =>
    if (form == .dotted) == key.parents.isEmpty then none
    else inner.alter key.name fun present => if present.isSome then none else some value)
    key.parents .declared entries

def declare : Option Value → Option Value
  | none => some (.table .declared [])
  | some (.table .implied entries) => some (.table .declared entries)
  | some _ => none

def declareElement : Option Value → Option Value
  | none => some (.tables [[]])
  | some (.tables elements) => some (.tables (elements ++ [[]]))
  | some _ => none

def ofPairs (pairs : List (Key × Value)) : Option Entries :=
  pairs.foldlM (fun entries pair => entries.insertPair pair.1 pair.2) []

end Entries

structure Document where
  entries : Entries
  /-- The table that pairs are added to. -/
  current : List String

namespace Document

def empty : Document := ⟨[], []⟩

def add (document : Document) : Statement → Option Document
  | .pair key value =>
    (document.entries.enter .implied (fun _ inner => inner.insertPair key value)
      document.current .declared).map fun entries => { document with entries }
  | .header key =>
    (document.entries.enter .implied (fun _ inner => inner.alter key.name Entries.declare)
      key.parents .declared).map fun entries => ⟨entries, key.parents ++ [key.name]⟩
  | .elementHeader key =>
    (document.entries.enter .implied (fun _ inner => inner.alter key.name Entries.declareElement)
      key.parents .declared).map fun entries => ⟨entries, key.parents ++ [key.name]⟩

def ofStatements (statements : List Statement) : Option Entries :=
  (statements.foldlM add empty).map entries

end Document
end Multicast.Toml
