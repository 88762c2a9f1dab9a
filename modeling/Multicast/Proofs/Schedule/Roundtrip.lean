import Multicast.Proofs.Schedule.Fields
import Multicast.Proofs.Schedule.Listing

/-!
Schedules written and read again. The writer ends every line with a line feed, and the reader takes a
carriage return before it for a part of the ending, so metadata that ends in one loses it. Main
statements: requests that meet the rules of the reader are read as they were written but for that, and
so is whatever the reader accepts.
-/

namespace Multicast
open Text

namespace Text

theorem mem_withoutReturn (text : List Char) (character : Char)
    (member : character ∈ withoutReturn text) : character ∈ text := by
  unfold withoutReturn at member
  split at member
  · exact List.mem_of_mem_dropLast member
  · exact member

theorem withoutReturn_append_cons (front text : List Char) (character : Char)
    (other : character ≠ '\r') :
    withoutReturn (front ++ character :: text) = front ++ character :: withoutReturn text := by
  induction text using List.reverseRecOn with
  | nil =>
    unfold withoutReturn
    rw [List.getLast?_concat, if_neg (by simpa using other)]
    rfl
  | append_singleton text last =>
    have whole : front ++ character :: (text ++ [last]) = (front ++ character :: text) ++ [last] := by
      simp
    unfold withoutReturn
    rw [whole, List.getLast?_concat, List.getLast?_concat]
    by_cases return_ : last = '\r'
    · rw [if_pos (by rw [return_]), if_pos (by rw [return_]), List.dropLast_concat,
        List.dropLast_concat]
    · rw [if_neg (by simpa using return_), if_neg (by simpa using return_), ← whole]

end Text

namespace Request

/-- The free texts can stand in a field and in a line. -/
structure Plain (request : Request) : Prop where
  parameters : ',' ∉ request.parameters.toList ∧ '\n' ∉ request.parameters.toList
  metadata : ',' ∉ request.metadata.toList ∧ '\n' ∉ request.metadata.toList

instance (request : Request) : Decidable request.Plain :=
  decidable_of_iff ((',' ∉ request.parameters.toList ∧ '\n' ∉ request.parameters.toList) ∧
      ',' ∉ request.metadata.toList ∧ '\n' ∉ request.metadata.toList)
    ⟨fun ⟨parameters, metadata⟩ => ⟨parameters, metadata⟩,
      fun ⟨parameters, metadata⟩ => ⟨parameters, metadata⟩⟩

def withoutReturn (request : Request) : Request :=
  { request with metadata := String.ofList (Text.withoutReturn request.metadata.toList) }

theorem Plain.withoutReturn (request : Request) (plain : request.Plain) :
    request.withoutReturn.Plain where
  parameters := plain.parameters
  metadata := by
    have kept (character : Char) (absent : character ∉ request.metadata.toList) :
        character ∉ request.withoutReturn.metadata.toList := by
      unfold Request.withoutReturn
      rw [String.toList_ofList]
      exact mt (mem_withoutReturn _ character) absent
    exact ⟨kept _ plain.metadata.1, kept _ plain.metadata.2⟩

theorem withoutReturn_eq_self (request : Request) :
    request.withoutReturn = request ↔ request.metadata.toList.getLast? ≠ some '\r' := by
  unfold withoutReturn Text.withoutReturn
  constructor
  · intro same ends
    rw [if_pos ends] at same
    have shorter := congrArg (fun request => request.metadata.toList.length) same
    have inhabited : request.metadata.toList ≠ [] := fun nothing => by simp [nothing] at ends
    have positive := List.length_pos_of_ne_nil inhabited
    simp only [String.toList_ofList, List.length_dropLast] at shorter
    omega
  · intro unreturned
    rw [if_neg unreturned, String.ofList_toList]

theorem map_withoutReturn_eq_self (requests : List Request) :
    requests.map withoutReturn = requests ↔
      ∀ request ∈ requests, request.metadata.toList.getLast? ≠ some '\r' := by
  have each := List.map_eq_map_iff (l := requests) (f := withoutReturn) (g := fun request => request)
  rw [List.map_id'] at each
  exact each.trans (forall₂_congr fun request _ => request.withoutReturn_eq_self)

end Request

namespace Schedule

theorem notMem_of_mem_fields (request : Request) (plain : request.Plain) (field : List Char)
    (member : field ∈ fields request) : ',' ∉ field ∧ '\n' ∉ field := by
  have digits (value : Nat) : ',' ∉ writeNat value ∧ '\n' ∉ writeNat value := by
    constructor
    · exact fun inside => absurd (isDigit_of_mem_writeNat value _ inside) (by decide)
    · exact fun inside => absurd (isDigit_of_mem_writeNat value _ inside) (by decide)
  have listed (character : Char) (other : character ≠ ' ') (nodes : List NodeId)
      (absent : ∀ value, character ∉ writeNat value) :
      character ∉ [' '].intercalate (nodes.map writeNat) := by
    intro inside
    rcases (mem_intercalate ' ' _ character).1 inside with ⟨_, same⟩ | ⟨part, member, inside⟩
    · exact other same
    · obtain ⟨node, _, rfl⟩ := List.mem_map.1 member
      exact absent node inside
  unfold fields at member
  simp only [List.mem_cons, List.not_mem_nil, or_false] at member
  rcases member with rfl | rfl | rfl | rfl | rfl | rfl | rfl | rfl | rfl
  · exact digits _
  · exact digits _
  · exact digits _
  · exact ⟨listed ',' (by decide) _ fun value => (digits value).1,
      listed '\n' (by decide) _ fun value => (digits value).2⟩
  · constructor
    · exact fun inside => (Decimal.mem_writeFloat _ _ inside).2 rfl
    · exact fun inside => absurd (Decimal.mem_writeFloat _ _ inside).1 (by decide)
  · exact digits _
  · exact digits _
  · exact plain.parameters
  · exact plain.metadata

theorem withoutReturn_intercalate_fields (request : Request) :
    withoutReturn ([','].intercalate (fields request)) =
      [','].intercalate (fields request.withoutReturn) := by
  obtain ⟨front, ends⟩ : ∃ front, ∀ metadata,
      [','].intercalate (fields { request with metadata }) = front ++ ',' :: metadata.toList := by
    refine ⟨[','].intercalate ((fields request).take 8), fun metadata => ?_⟩
    simp [fields]
  rw [show [','].intercalate (fields request) = _ from ends request.metadata,
    withoutReturn_append_cons _ _ _ (by decide)]
  exact ((ends _).trans (by rw [String.toList_ofList])).symm

theorem lines_writeBytes (requests : List Request) (plain : ∀ request ∈ requests, request.Plain) :
    lines (writeBytes requests) =
      requests.map fun request => some ([','].intercalate (fields request.withoutReturn)) := by
  have unbroken : ∀ text ∈ requests.map fun request => [','].intercalate (fields request),
      '\n' ∉ text := by
    intro text member inside
    obtain ⟨request, listed, rfl⟩ := List.mem_map.1 member
    rcases (mem_intercalate ',' _ _).1 inside with ⟨_, same⟩ | ⟨field, written, inside⟩
    · exact absurd same (by decide)
    · exact (notMem_of_mem_fields request (plain request listed) field written).2 inside
  have written := lines_terminated _ unbroken
  rw [List.flatMap_map, List.map_map] at written
  refine written.trans (List.map_congr_left fun request _ => ?_)
  exact congrArg some (withoutReturn_intercalate_fields request)

section
variable (roles : NodeRoles) (finish : Nat)

theorem listing_fields (requests : List Request) (fits : ∀ request ∈ requests, request.Fits)
    (plain : ∀ request ∈ requests, request.Plain)
    (rates : ∀ request ∈ requests, Decimal.ReadsBack request.targetRate) :
    Listing (requests.map fun request => some ([','].intercalate (fields request.withoutReturn)))
      (requests.map Request.withoutReturn) := by
  induction requests with
  | nil => exact .nil
  | cons request rest ih =>
    obtain ⟨fits, restFits⟩ := List.forall_mem_cons.1 fits
    obtain ⟨plain, restPlain⟩ := List.forall_mem_cons.1 plain
    obtain ⟨rate, restRates⟩ := List.forall_mem_cons.1 rates
    have described := describes_fields request.withoutReturn
      ⟨fits.id, fits.source, fits.destinations, fits.start, fits.duration⟩ rate
    refine .request _ _ request.withoutReturn _ ⟨_, rfl, fun field member => ?_, described⟩
      (ih restFits restPlain restRates)
    exact (notMem_of_mem_fields _ (Request.Plain.withoutReturn request plain) field member).1

theorem succeed_map_withoutReturn (expected previous : Nat) (requests : List Request)
    (succeed : Succeed expected previous requests) :
    Succeed expected previous (requests.map Request.withoutReturn) := by
  induction succeed with
  | nil expected previous => exact .nil expected previous
  | cons expected previous request rest numbered ascends later ih =>
    exact .cons expected previous request.withoutReturn _ numbered ascends ih

theorem fits_of_listing (lines : List Line) (requests : List Request)
    (listing : Listing lines requests) (unbroken : ∀ text, some text ∈ lines → '\n' ∉ text) :
    ∀ request ∈ requests, request.Fits ∧ request.Plain := by
  induction listing with
  | nil => exact List.forall_mem_nil _
  | blank text rest requests blank later ih =>
    exact ih fun text member => unbroken text (List.mem_cons_of_mem _ member)
  | request text rest request requests lists later ih =>
    refine List.forall_mem_cons.2
      ⟨?_, ih fun text member => unbroken text (List.mem_cons_of_mem _ member)⟩
    obtain ⟨fields, rfl, inside, described⟩ := lists
    obtain ⟨fits, parameters, metadata⟩ := fits_of_describes request fields described
    have plain (field : List Char) (member : field ∈ fields) : ',' ∉ field ∧ '\n' ∉ field :=
      ⟨inside field member, fun broken => unbroken _ List.mem_cons_self
        ((mem_intercalate ',' fields _).2 (.inr ⟨field, member, broken⟩))⟩
    exact ⟨fits, plain _ parameters, plain _ metadata⟩

theorem rules_of_readLines (number expected previous : Nat) (lines : List Line)
    (unbroken : ∀ text, some text ∈ lines → '\n' ∉ text) (requests : List Request)
    (read : readLines roles finish number expected previous lines = .ok requests) :
    Succeed expected previous requests ∧ ∀ request ∈ requests,
      request.Fits ∧ request.Acceptable roles finish ∧ request.Plain := by
  obtain ⟨listing, succeed, acceptable⟩ := (readLines_eq_ok ..).1 read
  refine ⟨succeed, fun request member => ?_⟩
  obtain ⟨fits, plain⟩ := fits_of_listing lines requests listing unbroken request member
  exact ⟨fits, acceptable request member, plain⟩

theorem read_writeBytes (requests : List Request) (succeed : Succeed 0 0 requests)
    (fits : ∀ request ∈ requests, request.Fits)
    (acceptable : ∀ request ∈ requests, request.Acceptable roles finish)
    (plain : ∀ request ∈ requests, request.Plain)
    (rates : ∀ request ∈ requests, Decimal.ReadsBack request.targetRate) :
    read (writeBytes requests) roles finish = .ok (requests.map Request.withoutReturn) := by
  unfold read
  rw [lines_writeBytes requests plain, readLines_eq_ok]
  refine ⟨listing_fields requests fits plain rates, succeed_map_withoutReturn 0 0 requests succeed,
    List.forall_mem_map.2 fun request member => ?_⟩
  obtain ⟨endpoints, finite, positive, inTime⟩ := acceptable request member
  exact ⟨endpoints, finite, positive, inTime⟩

end

/-- The requests of a schedule that meets the rules of the reader are read as they were written, if no
metadata ends in a carriage return. -/
theorem read_writeBytes_of_valid (roles : NodeRoles) (finish : Nat) (requests : List Request)
    (numbered : NumberedFromZero requests) (ascend : StartsAscend requests)
    (fits : ∀ request ∈ requests, request.Fits)
    (acceptable : ∀ request ∈ requests, request.Acceptable roles finish)
    (plain : ∀ request ∈ requests, request.Plain)
    (unreturned : ∀ request ∈ requests, request.metadata.toList.getLast? ≠ some '\r')
    (rates : ∀ request ∈ requests, Decimal.ReadsBack request.targetRate) :
    read (writeBytes requests) roles finish = .ok requests := by
  rw [read_writeBytes roles finish requests (succeed_of_valid requests numbered ascend) fits
    acceptable plain rates, (Request.map_withoutReturn_eq_self requests).2 unreturned]

def plainSchedule : List Request :=
  [⟨0, 4, (∅ : NodeSet).insertMany [7, 5], 10.0, 0, 18446744073709551615, " a\r", "kind=\u00a0b "⟩,
    ⟨1, 6, (∅ : NodeSet).insertMany [4], 2.5, 999999, 100, "", ""⟩]

theorem read_writeBytes_of_valid_plain :
    write plainSchedule =
        "0,4,2,5 7,10,0,18446744073709551615, a\r,kind=\u00a0b \n1,6,1,4,2.5,999999,100,,\n" ∧
      read (writeBytes plainSchedule) (.ofCounts 8 4) 1000000 = .ok plainSchedule := by
  refine ⟨by decide +kernel, ?_⟩
  exact read_writeBytes_of_valid (.ofCounts 8 4) 1000000 plainSchedule (by decide) (by decide)
    (by decide +kernel) (by decide +kernel) (by decide +kernel) (by decide +kernel)
    (by decide +kernel)

/-- What the reader accepts is read again from the written text, except for a carriage return at the end
of metadata. -/
theorem read_writeBytes_of_read (roles : NodeRoles) (finish : Nat) (bytes : List UInt8)
    (requests : List Request) (accepted : read bytes roles finish = .ok requests)
    (rates : ∀ request ∈ requests, Decimal.ReadsBack request.targetRate) :
    read (writeBytes requests) roles finish = .ok (requests.map Request.withoutReturn) ∧
      (read (writeBytes requests) roles finish = .ok requests ↔
        ∀ request ∈ requests, request.metadata.toList.getLast? ≠ some '\r') := by
  obtain ⟨succeed, rules⟩ := rules_of_readLines roles finish 1 0 0 (lines bytes)
    (fun text member => notMem_of_mem_lines bytes text member) requests accepted
  have again := read_writeBytes roles finish requests succeed
    (fun request member => (rules request member).1)
    (fun request member => (rules request member).2.1)
    (fun request member => (rules request member).2.2) rates
  refine ⟨again, ?_⟩
  rw [again, Except.ok.injEq]
  exact Request.map_withoutReturn_eq_self requests

/-- One request that is listed with blanks and quotes around its fields. -/
theorem read_writeBytes_of_read_quoted :
    ∃ requests, read (encodeUtf8 " 0, 4,2,\"7 5\" ,+1e1,0,500,,kept \r\n") (.ofCounts 8 4) 1000000 =
        .ok requests ∧ write requests = "0,4,2,5 7,10,0,500,,kept \n" ∧
      read (writeBytes requests) (.ofCounts 8 4) 1000000 = .ok requests := by
  have accepted : read (encodeUtf8 " 0, 4,2,\"7 5\" ,+1e1,0,500,,kept \r\n") (.ofCounts 8 4) 1000000 =
      .ok [⟨0, 4, (∅ : NodeSet).insertMany [7, 5], 10.0, 0, 500, "", "kept "⟩] := by decide +kernel
  exact ⟨_, accepted, by decide +kernel,
    (read_writeBytes_of_read _ _ _ _ accepted (by decide +kernel)).2.2 (by decide +kernel)⟩

/-- A carriage return that ends the text is metadata, and is lost when the text is written. -/
theorem not_read_writeBytes_of_read_return :
    ∃ requests, read (encodeUtf8 "0,4,1,5,10,0,500,,kept\r") (.ofCounts 8 4) 1000000 = .ok requests ∧
      (∀ request ∈ requests, Decimal.ReadsBack request.targetRate) ∧
      requests.map Request.metadata = ["kept\r"] ∧
      (read (writeBytes requests) (.ofCounts 8 4) 1000000).map (·.map Request.metadata) =
        .ok ["kept"] ∧
      read (writeBytes requests) (.ofCounts 8 4) 1000000 ≠ .ok requests := by
  have accepted : read (encodeUtf8 "0,4,1,5,10,0,500,,kept\r") (.ofCounts 8 4) 1000000 =
      .ok [⟨0, 4, (∅ : NodeSet).insertMany [5], 10.0, 0, 500, "", "kept\r"⟩] := by decide +kernel
  exact ⟨_, accepted, by decide +kernel, by decide +kernel, by decide +kernel, by decide +kernel⟩

end Schedule
end Multicast
