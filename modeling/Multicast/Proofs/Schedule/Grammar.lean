import Multicast.Schedule.Reader
import Multicast.Schedule.Valid
import Multicast.Proofs.Decimal.Written
import Multicast.Proofs.Text.Grammar
import Multicast.Proofs.Traversal

/-!
The grammar of a request. White space around a field does not count, nor do double quotes around a list
of destinations. Main statement: the nine fields that are read as a request are those that describe it,
and the request meets the rules.
-/

namespace Multicast
open Std Text

namespace Request

/-- What a reader demands of a request apart from the requests before it. -/
structure Acceptable (request : Request) (roles : NodeRoles) (finish : Nat) : Prop where
  endpoints : request.HasValidEndpoints roles
  finite : request.targetRate.isFinite = true
  positive : 0.0 < request.targetRate
  inTime : request.start < finish

instance (request : Request) (roles : NodeRoles) (finish : Nat) :
    Decidable (request.Acceptable roles finish) :=
  decidable_of_iff (request.HasValidEndpoints roles ∧ request.targetRate.isFinite = true ∧
      0.0 < request.targetRate ∧ request.start < finish)
    ⟨fun ⟨endpoints, finite, positive, inTime⟩ => ⟨endpoints, finite, positive, inTime⟩,
      fun ⟨endpoints, finite, positive, inTime⟩ => ⟨endpoints, finite, positive, inTime⟩⟩

end Request

namespace Schedule

structure Valid (requests : List Request) (roles : NodeRoles) (finish : Nat) : Prop where
  numbered : NumberedFromZero requests
  ascends : StartsAscend requests
  acceptable : ∀ request ∈ requests, request.Acceptable roles finish

def IsNumber (bound : Nat) (field : List Char) (value : Nat) : Prop :=
  value < bound ∧ ∃ numeral, Padded isBlank field numeral ∧ Numeral numeral value

def IsList (field : List Char) (nodes : List NodeId) : Prop :=
  ∃ trimmed listed words, Padded isBlank field trimmed ∧ Padded (· = '"') trimmed listed ∧
    Spaced listed words ∧ List.Forall₂ (IsNumber UInt32.size) words nodes

def IsRate (field : List Char) (rate : Float) : Prop :=
  ∃ numeral, Padded isBlank field numeral ∧ Decimal.readFloat? numeral = some rate

/-- What the nine fields of a line say. -/
inductive Describes (request : Request) : List (List Char) → Prop where
  | fields (id source count members rate start duration parameters metadata : List Char)
    (nodes : List NodeId)
    (idRead : IsNumber UInt64.size id request.id)
    (sourceRead : IsNumber UInt32.size source request.source)
    (countRead : IsNumber UInt64.size count nodes.length) (listed : IsList members nodes)
    (destinations : ∀ node, node ∈ request.destinations ↔ node ∈ nodes)
    (distinct : request.destinations.size = nodes.length) (rateRead : IsRate rate request.targetRate)
    (startRead : IsNumber UInt64.size start request.start)
    (durationRead : IsNumber UInt64.size duration request.duration)
    (parametersKept : request.parameters.toList = parameters)
    (metadataKept : request.metadata.toList = metadata) :
    Describes request [id, source, count, members, rate, start, duration, parameters, metadata]

section
variable (what : String) (text : List Char)

theorem padded_trim (core : List Char) : Padded isBlank text core ↔ trim text = core :=
  padded_iff isBlank text core

theorem readField_eq_ok {α : Type} (read? : List Char → Option α) (value : α) :
    readField read? what text = .ok value ↔ read? (trim text) = some value := by
  unfold readField
  cases read? (trim text) with
  | none => simp
  | some other => simp

theorem readField_eq_ok_isNumber (bound value : Nat) (positive : 0 < bound) :
    readField (readNat? (bound - 1)) what text = .ok value ↔ IsNumber bound text value := by
  unfold IsNumber
  simp only [padded_trim, exists_eq_left', readField_eq_ok, readNat?_eq_some,
    Nat.le_sub_one_iff_lt positive]
  exact and_comm

theorem readField_uint32_iff (value : Nat) :
    readField readUInt32? what text = .ok value ↔ IsNumber UInt32.size text value :=
  readField_eq_ok_isNumber what text UInt32.size value (by decide)

theorem readField_uint64_iff (value : Nat) :
    readField readUInt64? what text = .ok value ↔ IsNumber UInt64.size text value :=
  readField_eq_ok_isNumber what text UInt64.size value (by decide)

theorem readMembers_eq_ok (nodes : List NodeId) :
    readMembers text = .ok nodes ↔ IsList text nodes := by
  have unquoted (trimmed listed : List Char) : Padded (· = '"') trimmed listed ↔
      ((trimmed.dropWhile (· = '"')).reverse.dropWhile (· = '"')).reverse = listed :=
    padded_iff _ trimmed listed
  unfold readMembers unquote IsList
  simp only [padded_trim, unquoted, spaced_iff, exists_and_left, exists_eq_left',
    Traversal.mapM_eq_ok, readField_uint32_iff]

theorem readDestinations_eq_ok (memberCount : Nat) (destinations : NodeSet) :
    readDestinations memberCount text = .ok destinations ↔
      ∃ nodes, IsList text nodes ∧ nodes.length = memberCount ∧
        (∀ node, node ∈ destinations ↔ node ∈ nodes) ∧ destinations.size = nodes.length ∧
        destinations.isEmpty = false := by
  constructor
  · intro read
    obtain ⟨nodes, listed, rest⟩ := (Traversal.bind_eq_ok ..).1 read
    obtain ⟨counted, rest⟩ := (Traversal.guard_eq_ok ..).1 rest
    obtain ⟨inhabited, rest⟩ := (Traversal.guard_eq_ok ..).1 rest
    cases rest
    obtain ⟨length, size⟩ := not_or.1 counted
    refine ⟨nodes, (readMembers_eq_ok ..).1 listed, not_not.1 length, fun node => ?_,
      (not_not.1 size).trans (not_not.1 length).symm, Bool.eq_false_iff.2 inhabited⟩
    rw [ExtTreeSet.mem_ofList, List.contains_iff_mem]
  · rintro ⟨nodes, listed, rfl, members, size, inhabited⟩
    obtain rfl : ExtTreeSet.ofList nodes = destinations := ExtTreeSet.ext_mem fun node => by
      rw [ExtTreeSet.mem_ofList, List.contains_iff_mem, members]
    refine (Traversal.bind_eq_ok ..).2 ⟨nodes, (readMembers_eq_ok ..).2 listed, ?_⟩
    refine (Traversal.guard_eq_ok ..).2 ⟨by simp [size], ?_⟩
    exact (Traversal.guard_eq_ok ..).2 ⟨by simp [inhabited], rfl⟩

theorem readRate_eq_ok (rate : Float) :
    readRate text = .ok rate ↔ IsRate text rate ∧ rate.isFinite = true ∧ 0.0 < rate := by
  unfold IsRate
  simp only [padded_trim, exists_eq_left']
  constructor
  · intro read
    obtain ⟨value, found, rest⟩ := (Traversal.bind_eq_ok ..).1 read
    obtain ⟨kept, rest⟩ := (Traversal.guard_eq_ok ..).1 rest
    cases rest
    rw [Bool.or_eq_true, not_or, decide_eq_true_eq] at kept
    have finite : rate.isFinite = true := by simpa using kept.1
    exact ⟨(readField_eq_ok ..).1 found, finite, (Decimal.not_le_zero_iff rate finite).1 kept.2⟩
  · rintro ⟨found, finite, positive⟩
    have above := (Decimal.not_le_zero_iff rate finite).2 positive
    refine (Traversal.bind_eq_ok ..).2 ⟨rate, (readField_eq_ok ..).2 found, ?_⟩
    exact (Traversal.guard_eq_ok ..).2 ⟨by simp [finite, above], rfl⟩

end

theorem invalidEndpoint?_eq_none (roles : NodeRoles) (source : NodeId) (destinations : NodeSet) :
    invalidEndpoint? roles source destinations = none ↔
      ∀ node ∈ source :: destinations.toList, roles.isGroundStation node = true := by
  unfold invalidEndpoint?
  rw [List.find?_eq_none]
  simp only [Bool.not_eq_true', Bool.not_eq_false]

section
variable (roles : NodeRoles) (finish expected previous : Nat) (texts : List (List Char))
  (request : Request)

theorem describes_of_readFields
    (read : readFields roles finish expected previous texts = .ok request) :
    Describes request texts ∧ request.id = expected ∧ previous ≤ request.start ∧
      request.Acceptable roles finish := by
  unfold readFields at read
  split at read
  · obtain ⟨id, idRead, read⟩ := (Traversal.bind_eq_ok ..).1 read
    obtain ⟨numbered, read⟩ := (Traversal.guard_eq_ok ..).1 read
    obtain ⟨source, sourceRead, read⟩ := (Traversal.bind_eq_ok ..).1 read
    obtain ⟨memberCount, countRead, read⟩ := (Traversal.bind_eq_ok ..).1 read
    obtain ⟨destinations, destinationsRead, read⟩ := (Traversal.bind_eq_ok ..).1 read
    obtain ⟨rate, rateRead, read⟩ := (Traversal.bind_eq_ok ..).1 read
    obtain ⟨start, startRead, read⟩ := (Traversal.bind_eq_ok ..).1 read
    obtain ⟨duration, durationRead, read⟩ := (Traversal.bind_eq_ok ..).1 read
    obtain ⟨early, read⟩ := (Traversal.guard_eq_ok ..).1 read
    obtain ⟨own, read⟩ := (Traversal.guard_eq_ok ..).1 read
    cases stations : invalidEndpoint? roles source destinations with
    | some node =>
      rw [stations] at read
      cases read
    | none =>
      rw [stations] at read
      obtain ⟨late, read⟩ := (Traversal.guard_eq_ok ..).1 read
      cases read
      obtain ⟨nodes, listed, rfl, members, size, inhabited⟩ :=
        (readDestinations_eq_ok ..).1 destinationsRead
      obtain ⟨isRate, finite, positive⟩ := (readRate_eq_ok ..).1 rateRead
      rw [ExtTreeSet.mem_iff_contains, Bool.not_eq_true] at own
      refine ⟨.fields _ _ _ _ _ _ _ _ _ nodes ((readField_uint64_iff ..).1 idRead)
        ((readField_uint32_iff ..).1 sourceRead) ((readField_uint64_iff ..).1 countRead) listed
        members size isRate ((readField_uint64_iff ..).1 startRead)
        ((readField_uint64_iff ..).1 durationRead) String.toList_ofList String.toList_ofList,
        not_not.1 numbered, Nat.le_of_not_lt early, ?_⟩
      exact ⟨⟨inhabited, own, (invalidEndpoint?_eq_none ..).1 stations⟩, finite, positive,
        Nat.lt_of_not_le late⟩
  · cases read

theorem readFields_of_describes (described : Describes request texts)
    (ascends : previous ≤ request.start) (acceptable : request.Acceptable roles finish) :
    readFields roles finish request.id previous texts = .ok request := by
  cases described with
  | fields id source count members rate start duration parameters metadata nodes idRead sourceRead
    countRead listed destinations distinct rateRead startRead durationRead parametersKept
    metadataKept =>
    obtain ⟨inhabited, apart, stations⟩ := acceptable.endpoints
    have absent : request.source ∉ request.destinations := by
      rw [ExtTreeSet.mem_iff_contains, apart]
      decide
    have id := (readField_uint64_iff "id" ..).2 idRead
    have source := (readField_uint32_iff "source node" ..).2 sourceRead
    have count := (readField_uint64_iff "member count" ..).2 countRead
    have members := (readDestinations_eq_ok members nodes.length request.destinations).2
      ⟨nodes, listed, rfl, destinations, distinct, inhabited⟩
    have rate := (readRate_eq_ok ..).2 ⟨rateRead, acceptable.finite, acceptable.positive⟩
    have start := (readField_uint64_iff "start time" ..).2 startRead
    have duration := (readField_uint64_iff "duration" ..).2 durationRead
    unfold readFields
    simp only [bind, Except.bind, id, source, count, members, rate, start, duration, ne_eq,
      not_true_eq_false, if_false, (invalidEndpoint?_eq_none ..).2 stations, if_neg absent,
      if_neg (Nat.not_lt_of_le ascends), if_neg (Nat.not_le_of_lt acceptable.inTime)]
    subst parametersKept metadataKept
    simp [pure, Except.pure, String.ofList_toList]

theorem readFields_eq_ok :
    readFields roles finish expected previous texts = .ok request ↔
      Describes request texts ∧ request.id = expected ∧ previous ≤ request.start ∧
        request.Acceptable roles finish := by
  constructor
  · exact describes_of_readFields roles finish expected previous texts request
  · rintro ⟨described, rfl, ascends, acceptable⟩
    exact readFields_of_describes roles finish previous texts request described ascends acceptable

end

end Schedule
end Multicast
