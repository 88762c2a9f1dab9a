import Multicast.Proofs.Text

/-!
Words read back. A text that begins and ends with something black has no white space to trim. Main
statement: words that are joined by white space come out as they were.
-/

namespace Multicast.Text

theorem dropWhile_of_head? (drops : Char → Bool) (text : List Char)
    (kept : ∀ first ∈ text.head?, drops first = false) : text.dropWhile drops = text := by
  cases text with
  | nil => rfl
  | cons first rest => exact List.dropWhile_cons_of_neg (by simp [kept first rfl])

theorem words_cons (character : Char) (rest : List Char) :
    words (character :: rest) = prependToWords character rest (words rest) := rfl

theorem words_blank_cons (character : Char) (rest : List Char) (blank : isBlank character = true) :
    words (character :: rest) = words rest := by
  rw [words_cons]
  exact if_pos blank

theorem words_cons_of_blank (character : Char) (rest : List Char) (black : isBlank character = false)
    (ends : ∀ next ∈ rest.head?, isBlank next = true) :
    words (character :: rest) = [character] :: words rest := by
  rw [words_cons]
  unfold prependToWords
  rw [if_neg (Bool.eq_false_iff.1 black)]
  cases rest with
  | nil => rfl
  | cons next rest =>
    cases words (next :: rest) with
    | nil => rfl
    | cons word others => exact if_pos (ends next rfl)

theorem words_cons_of_black (character next : Char) (rest word : List Char)
    (others : List (List Char)) (black : isBlank character = false)
    (nextBlack : isBlank next = false) (found : words (next :: rest) = word :: others) :
    words (character :: next :: rest) = (character :: word) :: others := by
  rw [words_cons, found]
  unfold prependToWords
  rw [if_neg (Bool.eq_false_iff.1 black)]
  exact if_neg (Bool.eq_false_iff.1 nextBlack)

theorem words_append (part rest : List Char) (inhabited : part ≠ [])
    (black : ∀ character ∈ part, isBlank character = false)
    (ends : ∀ next ∈ rest.head?, isBlank next = true) :
    words (part ++ rest) = part :: words rest := by
  induction part with
  | nil => exact absurd rfl inhabited
  | cons character part ih =>
    obtain ⟨own, others⟩ := List.forall_mem_cons.1 black
    cases part with
    | nil => exact words_cons_of_blank character rest own ends
    | cons next part =>
      exact words_cons_of_black character next (part ++ rest) _ _ own
        (others next List.mem_cons_self) (ih (List.cons_ne_nil _ _) others)

theorem words_intercalate (separator : Char) (blank : isBlank separator = true)
    (parts : List (List Char)) (inhabited : ∀ part ∈ parts, part ≠ [])
    (black : ∀ part ∈ parts, ∀ character ∈ part, isBlank character = false) :
    words ([separator].intercalate parts) = parts := by
  induction parts with
  | nil => rfl
  | cons part rest ih =>
    obtain ⟨own, others⟩ := List.forall_mem_cons.1 inhabited
    obtain ⟨blacks, otherBlacks⟩ := List.forall_mem_cons.1 black
    cases rest with
    | nil =>
      have alone := words_append part [] own blacks (by simp)
      rw [List.append_nil] at alone
      rwa [List.intercalate_singleton]
    | cons next rest =>
      rw [List.intercalate_cons_cons, List.append_assoc, List.singleton_append,
        words_append part _ own blacks (by simpa using blank), words_blank_cons separator _ blank,
        ih others otherBlacks]

theorem head?_intercalate (separator : Char) (parts : List (List Char))
    (inhabited : ∀ part ∈ parts, part ≠ []) :
    ∀ first ∈ ([separator].intercalate parts).head?, ∃ part ∈ parts, first ∈ part := by
  cases parts with
  | nil => simp
  | cons part rest =>
    intro first begins
    refine ⟨part, List.mem_cons_self, ?_⟩
    have own := inhabited part List.mem_cons_self
    cases rest with
    | nil =>
      rw [List.intercalate_singleton] at begins
      exact List.mem_of_head? begins
    | cons next rest =>
      rw [List.intercalate_cons_cons, List.append_assoc, List.head?_append,
        List.head?_eq_some_head own, Option.some_or] at begins
      exact List.mem_of_head? ((List.head?_eq_some_head own).trans begins)

theorem getLast?_intercalate (separator : Char) (parts : List (List Char))
    (inhabited : ∀ part ∈ parts, part ≠ []) :
    ∀ last ∈ ([separator].intercalate parts).getLast?, ∃ part ∈ parts, last ∈ part := by
  rcases parts.eq_nil_or_concat with rfl | ⟨front, part, rfl⟩
  · simp
  · rw [List.concat_eq_append] at inhabited ⊢
    intro last ends
    have member : part ∈ front ++ [part] := List.mem_append_right _ (List.mem_singleton_self part)
    have own := inhabited part member
    obtain ⟨before, same⟩ := exists_intercalate_concat separator front part
    rw [same, List.getLast?_append, List.getLast?_eq_some_getLast own, Option.some_or] at ends
    exact ⟨part, member, List.mem_of_getLast? ((List.getLast?_eq_some_getLast own).trans ends)⟩

end Multicast.Text
