import Multicast.Proofs.Split.Groups
import Multicast.Proofs.Text.Grammar

/-!
Origin tags read back. Main statements: whatever the metadata held before, the tag of a request is
the one that is read from it, and its number ends the text; a tag takes the place of all older ones and
leaves the other pieces as they are.
-/

namespace Multicast
open Text

namespace OriginTag

theorem mem_piece (request : RequestId) (character : Char) (member : character ∈ piece request) :
    character ∈ key ∨ character = '=' ∨ isDigit character = true := by
  rcases List.mem_append.1 member with inKey | later
  · exact .inl inKey
  · rcases List.mem_cons.1 later with isEquals | inNumber
    · exact .inr (.inl isEquals)
    · exact .inr (.inr (isDigit_of_mem_toDigits request character (by simpa using inNumber)))

theorem notMem_piece (request : RequestId) : ';' ∉ piece request := by
  intro inside
  rcases mem_piece request ';' inside with inKey | isEquals | digit
  · exact absurd inKey (by decide)
  · exact absurd isEquals (by decide)
  · exact absurd digit (by decide)

theorem splitFirst?_piece (request : RequestId) :
    splitFirst? '=' (piece request) = some (key, Nat.toDigits 10 request) := by
  unfold piece
  rw [splitFirst?_append '=' key _ (by decide)]
  simp

theorem isTag_piece (request : RequestId) : isTag (piece request) = true := by
  have own : trim key = key := by decide
  unfold isTag
  rw [splitFirst?_piece]
  simp only [own, decide_true]

theorem splitOn_tag (metadata : String) (request : RequestId) :
    (tag metadata request).toList.splitOn ';' = keptPieces metadata.toList ++ [piece request] := by
  unfold tag
  rw [String.toList_ofList]
  apply List.splitOn_intercalate
  · intro part member
    rcases List.mem_append.1 member with kept | new
    · have old := (List.mem_filter.1 (List.mem_filter.1 kept).1).1
      exact notMem_of_mem_splitOn ';' _ part old
    · rw [List.mem_singleton.1 new]
      exact notMem_piece request
  · simp

theorem find?_splitOn_tag (metadata : String) (request : RequestId) :
    ((tag metadata request).toList.splitOn ';').find? isTag = some (piece request) := by
  rw [splitOn_tag, List.find?_append, List.find?_eq_none.2]
  · simp [isTag_piece]
  · intro part kept
    simpa using (List.mem_filter.1 kept).2

theorem read?_tag (metadata : String) (request : RequestId) (numbered : request < UInt64.size) :
    read? (tag metadata request) = some request := by
  have digits : trim (Nat.toDigits 10 request) = Nat.toDigits 10 request :=
    trim_of_forall _ fun character member =>
      isBlank_of_isDigit character (isDigit_of_mem_toDigits request character member)
  unfold read?
  rw [find?_splitOn_tag]
  simp only [splitFirst?_piece, Option.bind_some, digits]
  exact readNat?_toDigits _ request (Nat.le_sub_one_of_lt numbered)

theorem mem_tag (metadata : String) (request : RequestId) (character : Char)
    (member : character ∈ (tag metadata request).toList) :
    character = ';' ∨ character ∈ metadata.toList ∨ character ∈ piece request := by
  unfold tag at member
  rw [String.toList_ofList] at member
  rcases (mem_intercalate ';' _ character).1 member with ⟨_, semicolon⟩ | ⟨part, listed, inside⟩
  · exact .inl semicolon
  · rcases List.mem_append.1 listed with kept | new
    · have old := (List.mem_filter.1 (List.mem_filter.1 kept).1).1
      exact .inr (.inl (mem_of_mem_splitOn ';' _ part old character inside))
    · rw [List.mem_singleton.1 new] at inside
      exact .inr (.inr inside)

theorem isDigit_of_getLast?_tag (metadata : String) (request : RequestId) (last : Char)
    (ends : last ∈ (tag metadata request).toList.getLast?) : isDigit last = true := by
  have inhabited : Nat.toDigits 10 request ≠ [] := Nat.toDigits_ne_nil
  obtain ⟨front, same⟩ := exists_intercalate_concat ';' (keptPieces metadata.toList) (piece request)
  have number : piece request = (key ++ ['=']) ++ Nat.toDigits 10 request := by simp [piece]
  unfold tag at ends
  rw [String.toList_ofList, same, number, ← List.append_assoc, List.getLast?_append,
    List.getLast?_eq_some_getLast inhabited, Option.some_or] at ends
  cases ends
  exact isDigit_of_mem_toDigits request _ (List.getLast_mem inhabited)

/-! ## What a tag replaces -/

def Named (piece : List Char) : Prop :=
  ∃ name value, piece = name ++ '=' :: value ∧ '=' ∉ name ∧ Padded isBlank name "origin_id".toList

theorem isTag_iff (piece : List Char) : isTag piece = true ↔ Named piece := by
  unfold isTag Named
  simp only [padded_iff]
  cases cut : splitFirst? '=' piece with
  | none =>
    simp only [Bool.false_eq_true, false_iff]
    -- A piece that is a pair can be split, at the first equals sign.
    rintro ⟨name, value, parts, inside, _⟩
    rw [(splitFirst?_eq_some ..).2 ⟨parts, inside⟩] at cut
    cases cut
  | some pair =>
    obtain ⟨name, value⟩ := pair
    obtain ⟨parts, inside⟩ := (splitFirst?_eq_some ..).1 cut
    rw [decide_eq_true_eq]
    constructor
    · intro own
      exact ⟨name, value, parts, inside, own⟩
    · rintro ⟨other, value', parts', inside', own⟩
      have same := cut.symm.trans ((splitFirst?_eq_some ..).2 ⟨parts', inside'⟩)
      cases same
      exact own

/-- The piece is not blank, and is not a tag. -/
def Stays (piece : List Char) : Prop :=
  (∃ character ∈ piece, isBlank character = false) ∧ ¬Named piece

instance (piece : List Char) : Decidable (Named piece) := decidable_of_iff _ (isTag_iff piece)

instance (piece : List Char) : Decidable (Stays piece) := inferInstanceAs (Decidable (_ ∧ _))

theorem keptPieces_eq (metadata : List Char) :
    keptPieces metadata = (metadata.splitOn ';').filter Stays := by
  unfold keptPieces
  rw [List.filter_filter]
  refine List.filter_congr fun piece _ => ?_
  rw [Bool.eq_iff_iff]
  simp [Stays, ← isTag_iff, isAllBlank, and_comm]

theorem stays_of_kept (metadata part : List Char) (kept : part ∈ keptPieces metadata) :
    Stays part := by
  rw [keptPieces_eq] at kept
  simpa using (List.mem_filter.1 kept).2

theorem keptPieces_tag (metadata : String) (request : RequestId) :
    keptPieces (tag metadata request).toList = keptPieces metadata.toList := by
  have replaced : ¬Stays (piece request) := fun stays =>
    stays.2 ((isTag_iff _).1 (isTag_piece request))
  rw [keptPieces_eq (tag metadata request).toList, splitOn_tag, List.filter_append,
    List.filter_eq_self.2 fun part kept => by simpa using stays_of_kept _ part kept,
    List.filter_singleton, decide_eq_false replaced, cond_false, List.append_nil]

theorem tag_tag (metadata : String) (first second : RequestId) :
    tag (tag metadata first) second = tag metadata second := by
  change String.ofList ([';'].intercalate (keptPieces (tag metadata first).toList ++ _)) = _
  rw [keptPieces_tag]
  rfl

theorem piece_eq (request : RequestId) : piece request = s!"origin_id={request}".toList := by
  rw [String.toList_append]
  rfl

/-- The tag of a request is read from its parts, and from every other request that carries it. A tagged
text has the pieces of the old one that are not blank and are no tags, and the tag behind them. Tagging
once more puts the new tag in the place of the other. -/
theorem tag_takes_place (metadata : String) (first second : RequestId)
    (numbered : first < UInt64.size) :
    (∀ part : Request, part.metadata = tag metadata first → part.originId? = some first) ∧
    (∀ request : Request, request.metadata = metadata → request.id = first →
      ∀ snapshot parts, request.splitAtSource snapshot = .ok parts →
        ∀ part ∈ parts, part.metadata = tag metadata first) ∧
    (∃ pieces, pieces ≠ [] ∧ [';'].intercalate pieces = metadata.toList ∧
      (∀ piece ∈ pieces, ';' ∉ piece) ∧
      tag metadata first = String.ofList
        ([';'].intercalate (pieces.filter Stays ++ [s!"origin_id={first}".toList]))) ∧
    tag (tag metadata first) second = tag metadata second := by
  refine ⟨?_, ?_, ?_, tag_tag metadata first second⟩
  · intro part tagged
    unfold Request.originId?
    rw [tagged]
    exact read?_tag metadata first numbered
  · rintro request rfl rfl snapshot parts split part member
    obtain ⟨destinations, rfl, _⟩ := request.mem_splitAtSource snapshot parts split part member
    rfl
  · obtain ⟨inhabited, joined, inside⟩ := (splitOn_eq_iff ';' metadata.toList _).1 rfl
    refine ⟨_, inhabited, joined, inside, ?_⟩
    rw [← keptPieces_eq, ← piece_eq]
    rfl

/-- Two old tags, a blank piece, a key that only begins like the tag's and a piece without a key. -/
def worn : String := "note=a=b; origin_id =7;\u2003;origin_ids=1;free;origin_id=x"

theorem tag_takes_place_worn :
    4 < UInt64.size ∧ tag worn 4 = "note=a=b;origin_ids=1;free;origin_id=4" ∧
      (∀ part : Request, part.metadata = tag worn 4 → part.originId? = some 4) ∧
      tag (tag worn 4) 15 = "note=a=b;origin_ids=1;free;origin_id=15" := by
  have numbered : 4 < UInt64.size := by decide
  obtain ⟨read, _, _, again⟩ := tag_takes_place worn 4 15 numbered
  refine ⟨numbered, by decide +kernel, read, again.trans (by decide +kernel)⟩

end OriginTag
end Multicast
