import Multicast.Schedule.Writer
import Multicast.Proofs.Schedule.Grammar
import Mathlib.Data.List.Perm.Subperm

/-!
Fields of a schedule. Main statements: the fields that are written for a request describe it, and
whatever is described has numbers within the ranges of their fields.
-/

namespace Multicast
open Std Text

def Decimal.ReadsBack (value : Float) : Prop := readFloat? (writeFloat value) = some value

instance (value : Float) : Decidable (Decimal.ReadsBack value) :=
  inferInstanceAs (Decidable (_ = _))

namespace Request

structure Fits (request : Request) : Prop where
  id : request.id < UInt64.size
  source : request.source < UInt32.size
  destinations : ∀ node ∈ request.destinations, node < UInt32.size
  start : request.start < UInt64.size
  duration : request.duration < UInt64.size

instance (request : Request) : Decidable request.Fits :=
  decidable_of_iff (request.id < UInt64.size ∧ request.source < UInt32.size ∧
      (∀ node ∈ request.destinations.toList, node < UInt32.size) ∧
      request.start < UInt64.size ∧ request.duration < UInt64.size)
    ⟨fun ⟨id, source, destinations, start, duration⟩ =>
        ⟨id, source, fun node member => destinations node (ExtTreeSet.mem_toList.2 member), start,
          duration⟩,
      fun ⟨id, source, destinations, start, duration⟩ =>
        ⟨id, source, fun node member => destinations node (ExtTreeSet.mem_toList.1 member), start,
          duration⟩⟩

end Request

namespace Schedule

theorem writeNat_ne_nil (value : Nat) : writeNat value ≠ [] := Nat.toDigits_ne_nil

theorem isDigit_of_mem_writeNat (value : Nat) (character : Char)
    (member : character ∈ writeNat value) : isDigit character = true :=
  isDigit_of_mem_toDigits value character member

theorem isNumber_writeNat (bound value : Nat) (below : value < bound) :
    IsNumber bound (writeNat value) value :=
  ⟨below, writeNat value, (padded_trim ..).2 (trim_of_forall _ fun character member =>
      isBlank_of_isDigit character (isDigit_of_mem_writeNat value character member)),
    writeNat value, .inl rfl, writeNat_ne_nil value, isDigit_of_mem_writeNat value,
    natOfDigits_toDigits value⟩

theorem isList_intercalate (nodes : List NodeId) (bounded : ∀ node ∈ nodes, node < UInt32.size) :
    IsList ([' '].intercalate (nodes.map writeNat)) nodes := by
  have inhabited : ∀ part ∈ nodes.map writeNat, part ≠ [] := by
    intro part member
    obtain ⟨node, _, rfl⟩ := List.mem_map.1 member
    exact writeNat_ne_nil node
  have digit (character : Char)
      (inside : ∃ part ∈ nodes.map writeNat, character ∈ part) : isDigit character = true := by
    obtain ⟨part, member, listed⟩ := inside
    obtain ⟨node, _, rfl⟩ := List.mem_map.1 member
    exact isDigit_of_mem_writeNat node character listed
  have plain (pads : Char → Bool) (kept : ∀ character, isDigit character = true →
      pads character = false) : Padded pads ([' '].intercalate (nodes.map writeNat)) _ :=
    padded_self pads _
      (fun first begins => kept first (digit first (head?_intercalate ' ' _ inhabited first begins)))
      fun last ends => kept last (digit last (getLast?_intercalate ' ' _ inhabited last ends))
  have unquoted (character : Char) (digits : isDigit character = true) :
      decide (character = '"') = false := by
    rw [decide_eq_false_iff_not]
    rintro rfl
    exact absurd digits (by decide)
  have separated : words ([' '].intercalate (nodes.map writeNat)) = nodes.map writeNat :=
    words_intercalate ' ' (by decide) _ inhabited fun part member character inside =>
      isBlank_of_isDigit character (digit character ⟨part, member, inside⟩)
  refine ⟨_, _, _, plain isBlank isBlank_of_isDigit, plain _ unquoted, (spaced_iff ..).2 separated, ?_⟩
  rw [List.forall₂_map_left_iff, List.forall₂_same]
  exact fun node member => isNumber_writeNat _ node (bounded node member)

theorem size_le_of_bounded (destinations : NodeSet) (bound : Nat)
    (bounded : ∀ node ∈ destinations, node < bound) : destinations.size ≤ bound := by
  have distinct : destinations.toList.Nodup :=
    destinations.distinct_toList.imp fun different same => different (by rw [same, compare_self])
  have inside : destinations.toList ⊆ List.range bound := fun node member =>
    List.mem_range.2 (bounded node (ExtTreeSet.mem_toList.1 member))
  have least := (List.subperm_of_subset distinct inside).length_le
  rwa [ExtTreeSet.length_toList, List.length_range] at least

theorem describes_fields (request : Request) (fits : request.Fits)
    (readsBack : Decimal.ReadsBack request.targetRate) : Describes request (fields request) := by
  have count : request.destinations.size < UInt64.size :=
    Nat.lt_of_le_of_lt (size_le_of_bounded _ _ fits.destinations) (by decide)
  have listed := isList_intercalate request.destinations.toList fun node member =>
    fits.destinations node (ExtTreeSet.mem_toList.1 member)
  refine .fields _ _ _ _ _ _ _ _ _ request.destinations.toList (isNumber_writeNat _ _ fits.id)
    (isNumber_writeNat _ _ fits.source) ?_ listed (fun node => ExtTreeSet.mem_toList.symm)
    ExtTreeSet.length_toList.symm ?_ (isNumber_writeNat _ _ fits.start)
    (isNumber_writeNat _ _ fits.duration) rfl rfl
  · rw [ExtTreeSet.length_toList]
    exact isNumber_writeNat _ _ count
  · exact ⟨_, (padded_trim ..).2 (Decimal.trim_writeFloat request.targetRate), readsBack⟩

theorem lt_of_isList (field : List Char) (nodes : List NodeId) (listed : IsList field nodes) :
    ∀ node ∈ nodes, node < UInt32.size := by
  obtain ⟨-, -, words, -, -, -, each⟩ := listed
  induction each with
  | nil => exact List.forall_mem_nil _
  | cons first later ih => exact List.forall_mem_cons.2 ⟨first.1, ih⟩

theorem fits_of_describes (request : Request) (texts : List (List Char))
    (described : Describes request texts) : request.Fits ∧ request.parameters.toList ∈ texts ∧
      request.metadata.toList ∈ texts := by
  cases described with
  | fields id source count members rate start duration parameters metadata nodes idRead sourceRead
    countRead listed destinations distinct rateRead startRead durationRead parametersKept
    metadataKept =>
    refine ⟨⟨idRead.1, sourceRead.1, fun node member => ?_, startRead.1, durationRead.1⟩, ?_, ?_⟩
    · exact lt_of_isList members nodes listed node ((destinations node).1 member)
    · simp [parametersKept]
    · simp [metadataKept]

end Schedule
end Multicast
