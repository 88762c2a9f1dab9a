import Multicast.Text.Blank
import Multicast.Text.Numeral
import Multicast.Text.Separated

/-!
Texts read back. Parts without the separator come out as they were joined, and a number in decimal
notation has no white space around it and is read as itself.
-/

namespace Multicast.Text

section
variable {α : Type} [DecidableEq α]

theorem splitOn_append_cons (separator : α) (front rest : List α) :
    (front ++ separator :: rest).splitOn separator =
      front.splitOn separator ++ rest.splitOn separator :=
  List.splitOnP_append_cons front rest (beq_self_eq_true separator)

theorem notMem_of_mem_splitOn (separator : α) (text part : List α)
    (member : part ∈ text.splitOn separator) : separator ∉ part := by
  induction text generalizing part with
  | nil =>
    rw [List.splitOn_nil, List.mem_singleton] at member
    simp [member]
  | cons element rest ih =>
    rw [List.splitOn, List.splitOnP_cons_eq_if_modifyHead] at member
    split at member
    · rcases List.mem_cons.1 member with rfl | later
      · exact List.not_mem_nil
      · exact ih part later
    case isFalse other =>
      rw [beq_iff_eq] at other
      change part ∈ (rest.splitOn separator).modifyHead (List.cons element) at member
      cases parts : rest.splitOn separator with
      | nil => exact absurd parts (List.splitOn_ne_nil separator rest)
      | cons first others =>
        rw [parts] at ih member
        rcases List.mem_cons.1 member with rfl | later
        · rw [List.mem_cons, not_or]
          exact ⟨Ne.symm other, ih first List.mem_cons_self⟩
        · exact ih part (List.mem_cons_of_mem _ later)

theorem splitFirst?_append (separator : α) (part rest : List α) (inside : separator ∉ part) :
    splitFirst? separator (part ++ separator :: rest) = some (part, rest) := by
  have other (element : α) (member : element ∈ part) : element ≠ separator := by
    rintro rfl
    exact inside member
  unfold splitFirst?
  rw [List.dropWhile_append_of_pos (by simpa using other),
    List.takeWhile_append_of_pos (by simpa using other)]
  simp

theorem splitFirst?_eq_some (separator : α) (text part rest : List α) :
    splitFirst? separator text = some (part, rest) ↔
      text = part ++ separator :: rest ∧ separator ∉ part := by
  constructor
  · intro cut
    unfold splitFirst? at cut
    split at cut
    · cases cut
    case h_2 element behind begins =>
      cases cut
      have isSeparator : element = separator := by
        have kept := text.head?_dropWhile_not (· ≠ separator)
        rw [begins] at kept
        simpa using kept
      rw [isSeparator] at begins
      refine ⟨?_, fun inside => ?_⟩
      · rw [← begins, List.takeWhile_append_dropWhile]
      · simpa using List.all_eq_true.1 List.all_takeWhile separator inside
  · rintro ⟨rfl, inside⟩
    exact splitFirst?_append separator part rest inside

end

section
variable {α : Type} (separator : α)

theorem mem_intercalate (parts : List (List α)) (element : α) :
    element ∈ [separator].intercalate parts ↔
      (1 < parts.length ∧ element = separator) ∨ ∃ part ∈ parts, element ∈ part := by
  induction parts with
  | nil => simp
  | cons part rest ih =>
    cases rest with
    | nil => simp
    | cons next rest =>
      rw [List.intercalate_cons_cons, List.mem_append, List.mem_append, List.mem_singleton, ih]
      grind

theorem mem_of_mem_splitOn [DecidableEq α] (text part : List α)
    (listed : part ∈ text.splitOn separator) (element : α) (inside : element ∈ part) :
    element ∈ text := by
  have joined := (mem_intercalate separator _ element).2 (.inr ⟨part, listed, inside⟩)
  rwa [List.intercalate_splitOn] at joined

theorem exists_intercalate_concat (parts : List (List α)) (part : List α) :
    ∃ front, [separator].intercalate (parts ++ [part]) = front ++ part := by
  induction parts with
  | nil => exact ⟨[], by simp⟩
  | cons first rest ih =>
    obtain ⟨front, ends⟩ := ih
    refine ⟨first ++ [separator] ++ front, ?_⟩
    rw [List.cons_append, List.intercalate_cons_of_ne_nil (List.append_ne_nil_of_right_ne_nil _
      (List.cons_ne_nil _ _)), ends, ← List.append_assoc]

end

theorem trim_of_forall (text : List Char) (black : ∀ character ∈ text, isBlank character = false) :
    trim text = text := by
  have kept (characters : List Char) (black : ∀ character ∈ characters, isBlank character = false) :
      characters.dropWhile isBlank = characters := by
    cases characters with
    | nil => rfl
    | cons character rest =>
      exact List.dropWhile_cons_of_neg (by simp [black character List.mem_cons_self])
  unfold trim trimEnd trimStart
  have black' (character : Char) (member : character ∈ text.reverse) : isBlank character = false :=
    black character (List.mem_reverse.1 member)
  rw [kept text black, kept text.reverse black', List.reverse_reverse]

theorem isBlank_of_isDigit (character : Char) (digit : isDigit character = true) :
    isBlank character = false := by
  have bounds : 48 ≤ character.toNat ∧ character.toNat ≤ 57 := by
    simpa [isDigit, Char.le_def, UInt32.le_iff_toNat_le] using digit
  simp only [isBlank, Bool.or_eq_false_iff, Bool.and_eq_false_iff, decide_eq_false_iff_not,
    beq_eq_false_iff_ne]
  omega

theorem isDigit_of_mem_toDigits (value : Nat) (character : Char)
    (member : character ∈ Nat.toDigits 10 value) : isDigit character = true := by
  have digit := Nat.isDigit_of_mem_toDigits (by decide) (by decide) member
  simpa [Char.isDigit, isDigit, Char.le_def] using digit

theorem natOfDigits_toDigits (value : Nat) : natOfDigits (Nat.toDigits 10 value) = value := by
  have read := Nat.ofDigitChars_ten_toDigits (n := value)
  rw [Nat.ofDigitChars_eq_foldl] at read
  exact read

theorem readDigits?_toDigits (value : Nat) : readDigits? (Nat.toDigits 10 value) = some value := by
  have digits : (Nat.toDigits 10 value).all isDigit = true :=
    List.all_eq_true.2 (isDigit_of_mem_toDigits value)
  have some : (Nat.toDigits 10 value).isEmpty = false :=
    List.isEmpty_eq_false_iff.2 Nat.toDigits_ne_nil
  simp [readDigits?, digits, some, natOfDigits_toDigits]

theorem readNat?_toDigits (limit value : Nat) (bounded : value ≤ limit) :
    readNat? limit (Nat.toDigits 10 value) = some value := by
  unfold readNat?
  split
  case h_1 rest plus =>
    have digit := isDigit_of_mem_toDigits value '+' (by simp [plus])
    exact absurd digit (by decide)
  case h_2 => simp [readDigits?_toDigits, bounded]

end Multicast.Text
