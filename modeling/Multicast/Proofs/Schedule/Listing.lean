import Multicast.Proofs.Schedule.Grammar
import Multicast.Proofs.Text.Lines

/-!
Lines that list requests. A line has the fields of a request between commas, and blank lines list nothing.
Main statement: a text is read exactly if its lines list requests that meet the rules, and is read as those
requests; else the error names the first line after which they do not.
-/

namespace Multicast
open Text

namespace Schedule

def Lists (text : List Char) (request : Request) : Prop :=
  ∃ fields, [','].intercalate fields = text ∧ (∀ field ∈ fields, ',' ∉ field) ∧ Describes request fields

inductive Listing : List Line → List Request → Prop where
  | nil : Listing [] []
  | blank (text : List Char) (rest : List Line) (requests : List Request)
    (blank : ∀ character ∈ text, isBlank character = true) (later : Listing rest requests) :
    Listing (some text :: rest) requests
  | request (text : List Char) (rest : List Line) (request : Request) (requests : List Request)
    (lists : Lists text request) (later : Listing rest requests) :
    Listing (some text :: rest) (request :: requests)

/-- The requests carry the numbers from the given one on, and none starts before the instant or before
the request in front of it. -/
inductive Succeed : (expected previous : Nat) → List Request → Prop where
  | nil (expected previous : Nat) : Succeed expected previous []
  | cons (expected previous : Nat) (request : Request) (rest : List Request)
    (numbered : request.id = expected) (ascends : previous ≤ request.start)
    (later : Succeed (expected + 1) request.start rest) :
    Succeed expected previous (request :: rest)

theorem succeed_of_numbered (requests : List Request) (expected previous : Nat)
    (numbered : requests.map Request.id = List.range' expected requests.length)
    (ascend : (previous :: requests.map Request.start).Pairwise (· ≤ ·)) :
    Succeed expected previous requests := by
  induction requests generalizing expected previous with
  | nil => exact .nil expected previous
  | cons request rest ih =>
    rw [List.map_cons, List.length_cons, List.range'_succ, List.cons.injEq] at numbered
    rw [List.map_cons, List.pairwise_cons] at ascend
    exact .cons expected previous request rest numbered.1 (ascend.1 _ List.mem_cons_self)
      (ih _ _ numbered.2 ascend.2)

theorem succeed_of_valid (requests : List Request) (numbered : NumberedFromZero requests)
    (ascend : StartsAscend requests) : Succeed 0 0 requests :=
  succeed_of_numbered requests 0 0 (numbered.trans List.range_eq_range')
    (List.pairwise_cons.2 ⟨fun _ _ => Nat.zero_le _, ascend⟩)

theorem map_id_of_succeed (expected previous : Nat) (requests : List Request)
    (succeed : Succeed expected previous requests) :
    requests.map Request.id = List.range' expected requests.length := by
  induction succeed with
  | nil => rfl
  | cons expected previous request rest numbered ascends later ih =>
    rw [List.map_cons, List.length_cons, List.range'_succ, ih, numbered]

theorem ascend_of_succeed (expected previous : Nat) (requests : List Request)
    (succeed : Succeed expected previous requests) :
    (previous :: requests.map Request.start).Pairwise (· ≤ ·) := by
  induction succeed with
  | nil => exact List.pairwise_singleton _ _
  | cons expected previous request rest numbered ascends later ih =>
    refine List.pairwise_cons.2 ⟨fun start listed => ?_, ih⟩
    rcases List.mem_cons.1 listed with rfl | behind
    · exact ascends
    · exact Nat.le_trans ascends ((List.pairwise_cons.1 ih).1 start behind)

theorem succeed_iff (requests : List Request) :
    Succeed 0 0 requests ↔ NumberedFromZero requests ∧ StartsAscend requests := by
  constructor
  · intro succeed
    exact ⟨(map_id_of_succeed 0 0 requests succeed).trans List.range_eq_range'.symm,
      (List.pairwise_cons.1 (ascend_of_succeed 0 0 requests succeed)).2⟩
  · rintro ⟨numbered, ascend⟩
    exact succeed_of_valid requests numbered ascend

theorem lists_iff (text : List Char) (request : Request) :
    Lists text request ↔ Describes request (text.splitOn ',') := by
  constructor
  · rintro ⟨fields, joined, inside, described⟩
    have some : fields ≠ [] := by
      cases described
      exact List.cons_ne_nil _ _
    rwa [(splitOn_eq_iff ',' text fields).2 ⟨some, joined, inside⟩]
  · intro described
    exact ⟨_, List.intercalate_splitOn ',', notMem_of_mem_splitOn ',' text, described⟩

theorem isAllBlank_of_lists (text : List Char) (request : Request) (lists : Lists text request) :
    isAllBlank text = false := by
  obtain ⟨fields, rfl, _, described⟩ := lists
  refine List.all_eq_false.2 ⟨',', ?_, by decide⟩
  cases described
  simp

section
variable (roles : NodeRoles) (finish : Nat)

theorem listing_of_readLines (number expected previous : Nat) (lines : List Line)
    (requests : List Request)
    (read : readLines roles finish number expected previous lines = .ok requests) :
    Listing lines requests ∧ Succeed expected previous requests ∧
      ∀ request ∈ requests, request.Acceptable roles finish := by
  induction lines generalizing number expected previous requests with
  | nil =>
    cases read
    exact ⟨.nil, .nil expected previous, List.forall_mem_nil _⟩
  | cons line rest ih =>
    cases line with
    | none => cases read
    | some text =>
      unfold readLines at read
      split at read
      · next blank =>
        obtain ⟨listing, succeed, acceptable⟩ := ih _ _ _ requests read
        exact ⟨.blank text rest requests (List.all_eq_true.1 blank) listing, succeed, acceptable⟩
      · split at read
        · cases read
        · next request first =>
          split at read
          · cases read
          · next others later =>
            cases read
            obtain ⟨described, numbered, ascends, accepted⟩ := (readFields_eq_ok ..).1 first
            obtain ⟨listing, succeed, acceptable⟩ := ih _ _ _ others later
            exact ⟨.request text rest request others ((lists_iff text request).2 described) listing,
              .cons expected previous request others numbered ascends succeed,
              List.forall_mem_cons.2 ⟨accepted, acceptable⟩⟩

theorem readLines_of_listing (number expected previous : Nat) (lines : List Line)
    (requests : List Request) (listing : Listing lines requests)
    (succeed : Succeed expected previous requests)
    (acceptable : ∀ request ∈ requests, request.Acceptable roles finish) :
    readLines roles finish number expected previous lines = .ok requests := by
  induction listing generalizing number expected previous with
  | nil => rfl
  | blank text rest requests blank later ih =>
    rw [readLines, isAllBlank, List.all_eq_true.2 blank]
    exact ih _ _ _ succeed acceptable
  | request text rest request requests lists later ih =>
    cases succeed with
    | cons _ _ _ _ numbered ascends succeed =>
      obtain ⟨accepted, others⟩ := List.forall_mem_cons.1 acceptable
      have described := (lists_iff text request).1 lists
      have first := (readFields_eq_ok roles finish expected previous _ request).2
        ⟨described, numbered, ascends, accepted⟩
      rw [readLines, isAllBlank_of_lists text request lists, first]
      dsimp only
      rw [ih _ _ _ succeed others]
      rfl

theorem readLines_eq_ok (number expected previous : Nat) (lines : List Line)
    (requests : List Request) :
    readLines roles finish number expected previous lines = .ok requests ↔
      Listing lines requests ∧ Succeed expected previous requests ∧
        ∀ request ∈ requests, request.Acceptable roles finish := by
  constructor
  · exact listing_of_readLines roles finish number expected previous lines requests
  · rintro ⟨listing, succeed, acceptable⟩
    exact readLines_of_listing roles finish _ _ _ lines requests listing succeed acceptable

/-- A line fails whatever follows it, or it goes in front of whatever follows it. -/
theorem readLines_cons (number expected previous : Nat) (line : Line) :
    (∃ fault, ∀ rest, readLines roles finish number expected previous (line :: rest) =
      .error (.line number fault)) ∨
    ∃ expected' previous' own, ∀ rest,
      readLines roles finish number expected previous (line :: rest) =
        (readLines roles finish (number + 1) expected' previous' rest).map (own ++ ·) := by
  cases line with
  | none => exact .inl ⟨_, fun _ => rfl⟩
  | some text =>
    by_cases blank : isAllBlank text = true
    · refine .inr ⟨expected, previous, [], fun rest => ?_⟩
      rw [readLines, if_pos blank]
      cases readLines roles finish (number + 1) expected previous rest with
      | error error => rfl
      | ok requests => rfl
    · cases first : readFields roles finish expected previous (text.splitOn ',') with
      | error fault => exact .inl ⟨fault, fun rest => by rw [readLines, if_neg blank, first]⟩
      | ok request =>
        refine .inr ⟨expected + 1, request.start, [request], fun rest => ?_⟩
        rw [readLines, if_neg blank, first]
        dsimp only
        cases readLines roles finish (number + 1) (expected + 1) request.start rest with
        | error error => rfl
        | ok requests => rfl

theorem readLines_eq_error (number expected previous : Nat) (lines : List Line)
    (error : ScheduleError)
    (failed : readLines roles finish number expected previous lines = .error error) :
    ∃ position < lines.length, ∃ fault, error = .line (number + position) fault ∧
      (∃ requests,
        readLines roles finish number expected previous (lines.take position) = .ok requests) ∧
      ∀ others : List Line, others.take (position + 1) = lines.take (position + 1) →
        readLines roles finish number expected previous others = .error error := by
  induction lines generalizing number expected previous with
  | nil => cases failed
  | cons line rest ih =>
    have begins (position : Nat) (others : List Line)
        (same : others.take (position + 1) = (line :: rest).take (position + 1)) :
        ∃ behind, others = line :: behind ∧ behind.take position = rest.take position := by
      cases others with
      | nil => cases same
      | cons first behind =>
        rw [List.take_succ_cons, List.take_succ_cons, List.cons.injEq] at same
        exact ⟨behind, by rw [same.1], same.2⟩
    rcases readLines_cons roles finish number expected previous line with
      ⟨fault, fails⟩ | ⟨expected', previous', own, passes⟩
    · cases (fails rest).symm.trans failed
      refine ⟨0, Nat.succ_pos _, fault, rfl, ⟨[], rfl⟩, fun others same => ?_⟩
      obtain ⟨behind, rfl, _⟩ := begins 0 others same
      exact fails behind
    · have later : readLines roles finish (number + 1) expected' previous' rest = .error error := by
        rw [passes] at failed
        cases found : readLines roles finish (number + 1) expected' previous' rest with
        | error other =>
          rw [found] at failed
          exact failed
        | ok requests =>
          rw [found] at failed
          cases failed
      obtain ⟨position, inside, fault, rfl, ⟨requests, before⟩, whatever⟩ := ih _ _ _ later
      refine ⟨position + 1, Nat.succ_lt_succ inside, fault, by rw [Nat.add_right_comm, Nat.add_assoc],
        ⟨own ++ requests, ?_⟩, fun others same => ?_⟩
      · rw [List.take_succ_cons, passes, before]
        rfl
      · obtain ⟨behind, rfl, tail⟩ := begins _ others same
        rw [passes, whatever behind tail]
        rfl

end

/-- The lines list the requests, and the requests meet the rules. -/
structure IsSchedule (lines : List Line) (roles : NodeRoles) (finish : Nat)
    (requests : List Request) : Prop where
  listing : Listing lines requests
  valid : Valid requests roles finish

theorem readLines_eq_ok_isSchedule (roles : NodeRoles) (finish : Nat) (lines : List Line)
    (requests : List Request) :
    readLines roles finish 1 0 0 lines = .ok requests ↔ IsSchedule lines roles finish requests := by
  rw [readLines_eq_ok, succeed_iff]
  constructor
  · rintro ⟨listing, ⟨numbered, ascends⟩, acceptable⟩
    exact ⟨listing, numbered, ascends, acceptable⟩
  · rintro ⟨listing, numbered, ascends, acceptable⟩
    exact ⟨listing, ⟨numbered, ascends⟩, acceptable⟩

/-- A text is read as the requests that its lines list, if they meet the rules. Else the error names the
first line up to which they do not, whatever stands behind that line. -/
theorem read_iff_isSchedule (bytes : List UInt8) (roles : NodeRoles) (finish : Nat) :
    (∀ requests, read bytes roles finish = .ok requests ↔
      IsSchedule (lines bytes) roles finish requests) ∧
    ∀ error, read bytes roles finish = .error error → ∃ position < (lines bytes).length,
      (∃ fault, error = .line (position + 1) fault) ∧
      (∃ requests, IsSchedule ((lines bytes).take position) roles finish requests) ∧
      (∀ requests, ¬ IsSchedule ((lines bytes).take (position + 1)) roles finish requests) ∧
      (∀ others, (lines others).take (position + 1) = (lines bytes).take (position + 1) →
        read others roles finish = .error error) ∧
      (bytes.getLast? = some 10 → ∀ more, read (bytes ++ more) roles finish = .error error) := by
  refine ⟨readLines_eq_ok_isSchedule roles finish (lines bytes), fun error failed => ?_⟩
  obtain ⟨position, inside, fault, rfl, ⟨requests, before⟩, whatever⟩ :=
    readLines_eq_error roles finish 1 0 0 (lines bytes) error failed
  refine ⟨position, inside, ⟨fault, by rw [Nat.add_comm]⟩,
    ⟨requests, (readLines_eq_ok_isSchedule ..).1 before⟩, fun requests schedule => ?_,
    fun others same => whatever (lines others) same, fun ended more => ?_⟩
  · have read := (readLines_eq_ok_isSchedule ..).2 schedule
    rw [whatever _ (by rw [List.take_take, Nat.min_self])] at read
    cases read
  · refine whatever (lines (bytes ++ more)) ?_
    rw [lines_append bytes more ended, List.take_append_of_le_length (Nat.succ_le_of_lt inside)]

def gapSchedule : List UInt8 := encodeUtf8
  " 0, 4,2,\"7\t5\" ,+1e1,+0,500,,kept \r\n\u00a0\n1,6,01,\"4\",2.5,99,0,,\n3,4,1,5,10,100,1,,\n"

theorem read_iff_isSchedule_gap :
    read gapSchedule (.ofCounts 8 4) 1000000 = .error (.line 4 (.idNotAscending 2 3)) ∧
      (∃ requests, IsSchedule ((lines gapSchedule).take 3) (.ofCounts 8 4) 1000000 requests) ∧
      ∀ more, read (gapSchedule ++ more) (.ofCounts 8 4) 1000000 =
        .error (.line 4 (.idNotAscending 2 3)) := by
  have failed : read gapSchedule (.ofCounts 8 4) 1000000 =
      .error (.line 4 (.idNotAscending 2 3)) := by decide +kernel
  obtain ⟨position, _, ⟨fault, named⟩, before, _, _, whatever⟩ :=
    (read_iff_isSchedule gapSchedule (.ofCounts 8 4) 1000000).2 _ failed
  obtain rfl : position = 3 := by
    cases named
    rfl
  exact ⟨failed, before, whatever (by decide +kernel)⟩

end Schedule
end Multicast
