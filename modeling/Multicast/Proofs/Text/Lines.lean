import Multicast.Text.Line
import Multicast.Proofs.Text
import Mathlib.Data.List.Infix
import Mathlib.Data.List.Induction

/-!
Lines read back. A byte below 128 only stands for the character of its number, so the bytes of a text
are split at line feeds where the text is. Main statement: terminated lines without a line feed are read
as they were written, except for a carriage return at their end.
-/

namespace Multicast.Text

def utf8Bytes (text : List Char) : List UInt8 := text.flatMap String.utf8EncodeChar

theorem encodeUtf8_ofList (text : List Char) : encodeUtf8 (String.ofList text) = utf8Bytes text := by
  unfold encodeUtf8 utf8Bytes
  rw [String.toUTF8_eq_toByteArray, String.toByteArray_ofList, List.utf8Encode,
    List.toList_data_toByteArray]

theorem utf8Bytes_append (text more : List Char) :
    utf8Bytes (text ++ more) = utf8Bytes text ++ utf8Bytes more := List.flatMap_append

theorem mk_utf8Bytes (text : List Char) : ByteArray.mk (utf8Bytes text).toArray = text.utf8Encode := by
  unfold utf8Bytes List.utf8Encode
  exact ByteArray.ext (List.data_toByteArray).symm

theorem decodeUtf8?_utf8Bytes (text : List Char) : decodeUtf8? (utf8Bytes text) = some text := by
  unfold decodeUtf8?
  rw [mk_utf8Bytes, List.utf8Decode?_utf8Encode]
  simp

theorem eq_utf8Bytes_of_decodeUtf8? (bytes : List UInt8) (text : List Char)
    (decoded : decodeUtf8? bytes = some text) : bytes = utf8Bytes text := by
  unfold decodeUtf8? at decoded
  obtain ⟨characters, found, rfl⟩ := Option.map_eq_some_iff.1 decoded
  have valid : (ByteArray.mk bytes.toArray).utf8Decode?.isSome := by rw [found]; rfl
  have encoded := ByteArray.utf8Encode_get_utf8Decode? (b := ByteArray.mk bytes.toArray) (h := valid)
  simp only [found, Option.get_some] at encoded
  rw [← mk_utf8Bytes] at encoded
  simpa using congrArg (fun array => array.data.toList) encoded.symm

/-- A byte below 128 is the whole of the character of its number, and part of no other. -/
theorem mem_utf8EncodeChar (character : Char) (byte : UInt8) (small : byte.toNat < 128) :
    byte ∈ String.utf8EncodeChar character ↔ character.toNat = byte.toNat := by
  have same : character.toNat = character.val.toNat := rfl
  have exact_ofNat (value : Nat) (bounded : value < 256) : (UInt8.ofNat value).toNat = value :=
    Nat.mod_eq_of_lt bounded
  rw [same]
  unfold String.utf8EncodeChar
  simp only
  split
  · simp only [List.mem_singleton, ← UInt8.toNat_inj]
    rw [exact_ofNat _ (by omega)]
    exact eq_comm
  · split
    · simp only [List.mem_cons, List.not_mem_nil, or_false, ← UInt8.toNat_inj]
      rw [exact_ofNat _ (by omega), exact_ofNat _ (by omega)]
      omega
    · split
      · simp only [List.mem_cons, List.not_mem_nil, or_false, ← UInt8.toNat_inj]
        rw [exact_ofNat _ (by omega), exact_ofNat _ (by omega), exact_ofNat _ (by omega)]
        omega
      · simp only [List.mem_cons, List.not_mem_nil, or_false, ← UInt8.toNat_inj]
        rw [exact_ofNat _ (by omega), exact_ofNat _ (by omega), exact_ofNat _ (by omega),
          exact_ofNat _ (by omega)]
        omega

theorem mem_utf8Bytes (text : List Char) (character : Char) (small : character.toNat < 128) :
    UInt8.ofNat character.toNat ∈ utf8Bytes text ↔ character ∈ text := by
  have number : (UInt8.ofNat character.toNat).toNat = character.toNat :=
    Nat.mod_eq_of_lt (by omega)
  unfold utf8Bytes
  simp only [List.mem_flatMap, mem_utf8EncodeChar _ _ (number ▸ small), number, Char.toNat_inj,
    exists_eq_right]

def withoutReturn (text : List Char) : List Char :=
  if text.getLast? = some '\r' then text.dropLast else text

theorem dropReturn_utf8Bytes (text : List Char) :
    dropReturn (utf8Bytes text) = utf8Bytes (withoutReturn text) := by
  induction text using List.reverseRecOn with
  | nil => rfl
  | append_singleton text character =>
    unfold withoutReturn dropReturn
    rw [utf8Bytes_append, List.getLast?_concat]
    by_cases return_ : character = '\r'
    · subst return_
      rw [if_pos rfl, show utf8Bytes ['\r'] = [13] from rfl, List.getLast?_concat, if_pos rfl,
        List.dropLast_concat, List.dropLast_concat]
    · have kept : (utf8Bytes text ++ utf8Bytes [character]).getLast? ≠ some 13 := by
        have other : 13 ∉ utf8Bytes [character] := by
          have bytes := mem_utf8Bytes [character] '\r' (by decide)
          rw [List.mem_singleton] at bytes
          exact mt bytes.1 (Ne.symm return_)
        have inhabited : utf8Bytes [character] ≠ [] := by simp [utf8Bytes]
        rw [List.getLast?_append, List.getLast?_eq_some_getLast inhabited, Option.some_or, ne_eq,
          Option.some.injEq]
        exact fun last => other (last ▸ List.getLast_mem inhabited)
      rw [if_neg kept, if_neg (by simpa using return_), utf8Bytes_append]

section
variable {α : Type} [DecidableEq α]

theorem splitOn_terminated (separator : α) (parts : List (List α))
    (inside : ∀ part ∈ parts, separator ∉ part) :
    (parts.flatMap (· ++ [separator])).splitOn separator = parts ++ [[]] := by
  induction parts with
  | nil => rfl
  | cons part rest ih =>
    obtain ⟨own, others⟩ := List.forall_mem_cons.1 inside
    rw [List.flatMap_cons, List.append_assoc, List.singleton_append, splitOn_append_cons, List.splitOn_eq_singleton own, List.singleton_append,
      ih others, List.cons_append]

end

theorem lines_terminated (texts : List (List Char)) (inside : ∀ text ∈ texts, '\n' ∉ text) :
    lines (encodeUtf8 (String.ofList (texts.flatMap (· ++ ['\n'])))) =
      texts.map fun text => some (withoutReturn text) := by
  have bytes : utf8Bytes (texts.flatMap (· ++ ['\n'])) =
      (texts.map utf8Bytes).flatMap (· ++ [10]) := by
    unfold utf8Bytes
    rw [List.flatMap_assoc, List.flatMap_map]
    refine List.flatMap_congr fun text _ => ?_
    exact List.flatMap_append
  have unbroken : ∀ part ∈ texts.map utf8Bytes, 10 ∉ part := by
    intro part member
    obtain ⟨text, listed, rfl⟩ := List.mem_map.1 member
    exact mt (mem_utf8Bytes text '\n' (by decide)).1 (inside text listed)
  unfold lines lineBytes
  rw [encodeUtf8_ofList, bytes, splitOn_terminated _ _ unbroken]
  simp only [List.getLastD_concat, List.dropLast_concat, List.isEmpty_nil, if_true,
    List.append_nil, List.map_map]
  refine List.map_congr_left fun text _ => ?_
  simp only [Function.comp_apply, dropReturn_utf8Bytes, decodeUtf8?_utf8Bytes]

theorem lineBytes_append (front more : List UInt8) :
    lineBytes (front ++ 10 :: more) = lineBytes (front ++ [10]) ++ lineBytes more := by
  have inhabited := List.splitOn_ne_nil (10 : UInt8) more
  have ends : (front.splitOn 10 ++ more.splitOn 10).getLastD [] =
      (more.splitOn 10).getLastD [] := by
    rw [List.getLastD_eq_getLast?, List.getLastD_eq_getLast?, List.getLast?_append,
      List.getLast?_eq_some_getLast inhabited]
    rfl
  unfold lineBytes
  rw [splitOn_append_cons, splitOn_append_cons, List.splitOn_nil]
  dsimp only
  rw [ends, List.dropLast_append_of_ne_nil inhabited, List.dropLast_concat, List.getLastD_concat,
    List.map_append, List.append_assoc]
  simp

theorem lines_append (bytes more : List UInt8) (ended : bytes.getLast? = some 10) :
    lines (bytes ++ more) = lines bytes ++ lines more := by
  obtain ⟨front, rfl⟩ := List.getLast?_eq_some_iff.1 ended
  unfold lines
  rw [List.append_assoc, List.singleton_append, lineBytes_append, List.map_append]

theorem notMem_of_mem_lines (bytes : List UInt8) (text : List Char)
    (member : some text ∈ lines bytes) : '\n' ∉ text := by
  obtain ⟨part, listed, decoded⟩ := List.mem_map.1 member
  have unbroken : 10 ∉ part := by
    have each := notMem_of_mem_splitOn (10 : UInt8) bytes
    unfold lineBytes at listed
    rcases List.mem_append.1 listed with terminated | last
    · obtain ⟨piece, inside, rfl⟩ := List.mem_map.1 terminated
      have own := each piece (List.mem_of_mem_dropLast inside)
      unfold dropReturn
      split
      · exact fun again => own (List.mem_of_mem_dropLast again)
      · exact own
    · split at last
      · cases last
      · rw [List.mem_singleton] at last
        rw [last]
        rcases List.mem_cons.1 (List.getLastD_mem_cons (l := bytes.splitOn 10) (a := []))
          with nothing | inside
        · rw [nothing]
          exact List.not_mem_nil
        · exact each _ inside
  rw [eq_utf8Bytes_of_decodeUtf8? part text decoded] at unbroken
  exact mt (mem_utf8Bytes text '\n' (by decide)).2 unbroken

end Multicast.Text
