import Multicast.Proofs.Text.Words
import Mathlib.Data.List.TakeWhile

/-!
What a text says, apart from how it is read. Main statements: to cut padding off a text, to take it
apart into words or into separated parts, and to read it as a number, is to find the one core, the words,
the parts or the number that it is made of.
-/

namespace Multicast.Text

/-- The text is the core between padding, and the core itself has no padding at its ends. -/
structure Padded (pads : Char → Bool) (text core : List Char) : Prop where
  around : ∃ front back, text = front ++ core ++ back ∧
    (∀ character ∈ front, pads character = true) ∧ ∀ character ∈ back, pads character = true
  first : ∀ first ∈ core.head?, pads first = false
  last : ∀ last ∈ core.getLast?, pads last = false

section
variable (pads : Char → Bool) (text core : List Char)

theorem not_pads_of_head?_dropWhile :
    ∀ first ∈ (text.dropWhile pads).head?, pads first = false := by
  intro first begins
  have kept := text.head?_dropWhile_not pads
  rw [begins] at kept
  exact kept

theorem padded_self (first : ∀ first ∈ text.head?, pads first = false)
    (last : ∀ last ∈ text.getLast?, pads last = false) : Padded pads text text :=
  ⟨⟨[], [], by simp, List.forall_mem_nil _, List.forall_mem_nil _⟩, first, last⟩

theorem cut_of_padded (padded : Padded pads text core) :
    ((text.dropWhile pads).reverse.dropWhile pads).reverse = core := by
  obtain ⟨⟨front, back, rfl, before, after⟩, first, last⟩ := padded
  rw [List.append_assoc, List.dropWhile_append_of_pos before]
  cases core with
  | nil =>
    rw [List.nil_append, List.dropWhile_eq_nil_iff.2 after]
    rfl
  | cons character rest =>
    have after' : ∀ character ∈ back.reverse, pads character = true := fun character member =>
      after character (List.mem_reverse.1 member)
    rw [dropWhile_of_head? pads (character :: rest ++ back) first, List.reverse_append,
      List.dropWhile_append_of_pos after',
      dropWhile_of_head? pads (character :: rest).reverse (by rwa [List.head?_reverse]),
      List.reverse_reverse]

theorem padded_cut :
    Padded pads text ((text.dropWhile pads).reverse.dropWhile pads).reverse where
  around := by
    refine ⟨text.takeWhile pads, ((text.dropWhile pads).reverse.takeWhile pads).reverse, ?_,
      fun character member => List.mem_takeWhile_imp member,
      fun character member => List.mem_takeWhile_imp (List.mem_reverse.1 member)⟩
    rw [List.append_assoc, ← List.reverse_append, List.takeWhile_append_dropWhile,
      List.reverse_reverse, List.takeWhile_append_dropWhile]
  first := by
    intro first begins
    -- What is cut off behind leaves the first character where it is.
    obtain ⟨cut, rest⟩ := (text.dropWhile pads).reverse.dropWhile_suffix pads
    have whole := congrArg List.reverse rest
    rw [List.reverse_append, List.reverse_reverse] at whole
    refine not_pads_of_head?_dropWhile pads text first ?_
    rw [← whole, List.head?_append, begins]
    rfl
  last := by
    rw [List.getLast?_reverse]
    exact not_pads_of_head?_dropWhile pads _

theorem padded_iff :
    Padded pads text core ↔ ((text.dropWhile pads).reverse.dropWhile pads).reverse = core := by
  constructor
  · exact cut_of_padded pads text core
  · rintro rfl
    exact padded_cut pads text

end

/-- A text and the runs of black characters in it, which white space keeps apart. -/
inductive Spaced : List Char → List (List Char) → Prop where
  | nil : Spaced [] []
  | blank (character : Char) (rest : List Char) (words : List (List Char))
    (blank : isBlank character = true) (later : Spaced rest words) :
    Spaced (character :: rest) words
  | word (word rest : List Char) (words : List (List Char)) (inhabited : word ≠ [])
    (black : ∀ character ∈ word, isBlank character = false)
    (ends : ∀ next ∈ rest.head?, isBlank next = true) (later : Spaced rest words) :
    Spaced (word ++ rest) (word :: words)

theorem Spaced.cons_black (character next : Char) (rest : List Char) (parts : List (List Char))
    (black : isBlank character = false) (nextBlack : isBlank next = false)
    (spaced : Spaced (next :: rest) parts) :
    ∃ word others, parts = word :: others ∧
      Spaced (character :: next :: rest) ((character :: word) :: others) := by
  generalize whole : next :: rest = text at spaced
  cases spaced with
  | nil => cases whole
  | blank other rest' parts blank later =>
    cases whole
    exact absurd blank (by rw [nextBlack]; decide)
  | word word rest' others inhabited blacks ends later =>
    have longer : ∀ other ∈ character :: word, isBlank other = false :=
      List.forall_mem_cons.2 ⟨black, blacks⟩
    exact ⟨word, others, rfl,
      .word (character :: word) rest' others (List.cons_ne_nil _ _) longer ends later⟩

theorem spaced_words (text : List Char) : Spaced text (words text) := by
  induction text with
  | nil => exact .nil
  | cons character rest ih =>
    by_cases blank : isBlank character = true
    · rw [words_blank_cons character rest blank]
      exact .blank character rest _ blank ih
    · rw [Bool.not_eq_true] at blank
      by_cases ends : ∀ next ∈ rest.head?, isBlank next = true
      · rw [words_cons_of_blank character rest blank ends]
        exact .word [character] rest _ (List.cons_ne_nil _ _) (by simpa using blank) ends ih
      · cases rest with
        | nil => simp at ends
        | cons next rest =>
          have nextBlack : isBlank next = false := by simpa using ends
          obtain ⟨word, others, found, longer⟩ := ih.cons_black character next rest _ blank nextBlack
          rwa [words_cons_of_black character next rest word others blank nextBlack found]

theorem spaced_iff (text : List Char) (parts : List (List Char)) :
    Spaced text parts ↔ words text = parts := by
  constructor
  · intro spaced
    induction spaced with
    | nil => rfl
    | blank character rest words blank later ih => rw [words_blank_cons character rest blank, ih]
    | word word rest words inhabited black ends later ih =>
      rw [words_append word rest inhabited black ends, ih]
  · rintro rfl
    exact spaced_words text

theorem splitOn_eq_iff {α : Type} [DecidableEq α] (separator : α) (text : List α)
    (parts : List (List α)) : text.splitOn separator = parts ↔
      parts ≠ [] ∧ [separator].intercalate parts = text ∧ ∀ part ∈ parts, separator ∉ part := by
  constructor
  · rintro rfl
    exact ⟨List.splitOn_ne_nil separator text, List.intercalate_splitOn separator,
      notMem_of_mem_splitOn separator text⟩
  · rintro ⟨inhabited, rfl, inside⟩
    exact List.splitOn_intercalate separator inside inhabited

def Numeral (text : List Char) (value : Nat) : Prop :=
  ∃ digits, (text = digits ∨ text = '+' :: digits) ∧ digits ≠ [] ∧
    (∀ character ∈ digits, isDigit character = true) ∧ natOfDigits digits = value

theorem readDigits?_eq_some (text : List Char) (value : Nat) : readDigits? text = some value ↔
    text ≠ [] ∧ (∀ character ∈ text, isDigit character = true) ∧ natOfDigits text = value := by
  unfold readDigits?
  simp [and_assoc]

theorem readNat?_eq_some (limit : Nat) (text : List Char) (value : Nat) :
    readNat? limit text = some value ↔ Numeral text value ∧ value ≤ limit := by
  unfold readNat?
  simp only [Option.filter_eq_some_iff, readDigits?_eq_some, decide_eq_true_eq]
  refine and_congr_left fun _ => ?_
  split
  case h_1 rest =>
    constructor
    · rintro ⟨some, digits, same⟩
      exact ⟨rest, .inr rfl, some, digits, same⟩
    · rintro ⟨digits, rfl | same, some, each, value⟩
      · exact absurd (each '+' List.mem_cons_self) (by decide)
      · cases same
        exact ⟨some, each, value⟩
  case h_2 unsigned =>
    constructor
    · rintro ⟨some, digits, same⟩
      exact ⟨text, .inl rfl, some, digits, same⟩
    · rintro ⟨digits, rfl | same, some, each, value⟩
      · exact ⟨some, each, value⟩
      · exact absurd same (unsigned digits)

inductive SignedNumeral : List Char → Int → Prop where
  | positive (text : List Char) (value : Nat) (numeral : Numeral text value) :
    SignedNumeral text value
  | negative (digits : List Char) (value : Nat) (some : digits ≠ [])
    (each : ∀ character ∈ digits, isDigit character = true) (same : natOfDigits digits = value) :
    SignedNumeral ('-' :: digits) (-value)

theorem readInt?_of_numeral (text : List Char) (value : Nat) (numeral : Numeral text value)
    (bounded : value < signedLimit) : readInt? text = some (value : Int) := by
  obtain ⟨digits, signed, some, each, same⟩ := numeral
  have read := (readDigits?_eq_some digits value).2 ⟨some, each, same⟩
  have kept : (readDigits? digits).filter (· < signedLimit) = Option.some value :=
    Option.filter_eq_some_iff.2 ⟨read, decide_eq_true bounded⟩
  unfold readInt?
  split
  case h_1 rest =>
    rcases signed with rfl | plus
    · exact absurd (each '-' List.mem_cons_self) (by decide)
    · cases plus
  case h_2 rest =>
    rcases signed with rfl | plus
    · exact absurd (each '+' List.mem_cons_self) (by decide)
    · cases plus
      exact Option.map_eq_some_iff.2 ⟨value, kept, rfl⟩
  case h_3 unsigned plain =>
    rcases signed with rfl | plus
    · exact Option.map_eq_some_iff.2 ⟨value, kept, rfl⟩
    · exact absurd plus (plain digits)

theorem readInt?_eq_some (text : List Char) (value : Int) : readInt? text = some value ↔
    SignedNumeral text value ∧ -(signedLimit : Int) ≤ value ∧ value < signedLimit := by
  have positive : 0 < signedLimit := by decide
  constructor
  · intro found
    unfold readInt? at found
    split at found
    all_goals
      obtain ⟨number, kept, rfl⟩ := Option.map_eq_some_iff.1 found
      obtain ⟨read, bounded⟩ := Option.filter_eq_some_iff.1 kept
      obtain ⟨some, each, same⟩ := (readDigits?_eq_some ..).1 read
      rw [decide_eq_true_eq] at bounded
    case h_1 digits => exact ⟨.negative digits number some each same, by omega, by omega⟩
    case h_2 digits =>
      exact ⟨.positive _ number ⟨digits, .inr rfl, some, each, same⟩, by omega, by omega⟩
    case h_3 =>
      exact ⟨.positive text number ⟨text, .inl rfl, some, each, same⟩, by omega, by omega⟩
  · rintro ⟨signed, low, high⟩
    cases signed with
    | positive _ magnitude numeral =>
      exact readInt?_of_numeral text magnitude numeral (by omega)
    | negative digits magnitude some each same =>
      have read := (readDigits?_eq_some digits magnitude).2 ⟨some, each, same⟩
      have bounded : magnitude ≤ signedLimit := by omega
      have kept : (readDigits? digits).filter (· ≤ signedLimit) = Option.some magnitude :=
        Option.filter_eq_some_iff.2 ⟨read, decide_eq_true bounded⟩
      exact Option.map_eq_some_iff.2 ⟨magnitude, kept, rfl⟩

end Multicast.Text
