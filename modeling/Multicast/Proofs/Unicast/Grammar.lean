import Multicast.Unicast.Record
import Multicast.Proofs.Schedule.Grammar
import Multicast.Proofs.Unicast.Records

/-!
The grammar of state files. Main statements: the five fields that are read as a record are those that
describe it, and a state file is read as the records that its lines list.
-/

namespace Multicast
open Text

namespace UnicastRecord

def IsNode (nodeCount : Nat) (field : List Char) (node : NodeId) : Prop :=
  Schedule.IsNumber UInt32.size field node ∧ node < nodeCount

def IsSigned (field : List Char) (value : Int) : Prop :=
  ∃ numeral, Padded isBlank field numeral ∧ SignedNumeral numeral value

/-- What the five fields of a line say. A file counts interfaces from zero, a record from one. -/
inductive Describes (nodeCount : Nat) : List (List Char) → UnicastRecord → Prop where
  | unreachable (nodeField targetField nextField interfaceField nextInterfaceField : List Char)
    (node target : NodeId) (nodeRead : IsNode nodeCount nodeField node)
    (targetRead : IsNode nodeCount targetField target) (nextRead : IsSigned nextField (-1))
    (interfaceRead : IsSigned interfaceField (-1))
    (nextInterfaceRead : IsSigned nextInterfaceField (-1)) :
    Describes nodeCount [nodeField, targetField, nextField, interfaceField, nextInterfaceField]
      (.unreachable node target)
  | route (nodeField targetField nextField interfaceField nextInterfaceField : List Char)
    (node target next : NodeId) (value nextValue : Nat) (nodeRead : IsNode nodeCount nodeField node)
    (targetRead : IsNode nodeCount targetField target) (nextRead : IsNode nodeCount nextField next)
    (interfaceRead : IsSigned interfaceField value) (bounded : value + 1 < UInt32.size)
    (nextInterfaceRead : IsSigned nextInterfaceField nextValue)
    (nextBounded : nextValue + 1 < UInt32.size) :
    Describes nodeCount [nodeField, targetField, nextField, interfaceField, nextInterfaceField]
      (.route node target next (value + 1) (nextValue + 1))

inductive Listing (nodeCount : Nat) : List Line → List UnicastRecord → Prop where
  | nil : Listing nodeCount [] []
  | blank (text : List Char) (rest : List Line) (records : List UnicastRecord)
    (blank : ∀ character ∈ text, isBlank character = true) (later : Listing nodeCount rest records) :
    Listing nodeCount (some text :: rest) records
  | record (fields : List (List Char)) (rest : List Line) (record : UnicastRecord)
    (records : List UnicastRecord) (inside : ∀ field ∈ fields, ',' ∉ field)
    (describes : Describes nodeCount fields record) (later : Listing nodeCount rest records) :
    Listing nodeCount (some ([','].intercalate fields) :: rest) (record :: records)

section
variable (nodeCount : Nat) (what : String) (field : List Char)

theorem readNode_eq_ok (node : NodeId) :
    readNode nodeCount what field = .ok node ↔ IsNode nodeCount field node := by
  unfold readNode IsNode
  rw [← Schedule.readField_uint32_iff what, Schedule.readField_eq_ok]
  cases readUInt32? (trim field) with
  | none => simp
  | some number =>
    by_cases inside : number < nodeCount
    · simp only [if_pos inside, Except.ok.injEq, Option.some.injEq]
      exact iff_self_and.2 fun same => same ▸ inside
    · simp only [if_neg inside, reduceCtorEq, Option.some.injEq, false_iff]
      rintro ⟨rfl, below⟩
      exact inside below

theorem readSigned_eq_ok (value : Int) : readSigned what field = .ok value ↔
    IsSigned field value ∧ -(signedLimit : Int) ≤ value ∧ value < signedLimit := by
  unfold readSigned IsSigned
  simp only [Schedule.padded_trim, exists_eq_left', ← readInt?_eq_some]
  cases readInt? (trim field) with
  | none => simp
  | some other => simp

theorem isSigned_of_isNode (node : NodeId) (read : IsNode nodeCount field node) :
    IsSigned field node := by
  obtain ⟨⟨_, numeral, padded, number⟩, _⟩ := read
  exact ⟨numeral, padded, .positive numeral node number⟩

theorem readSigned_of_isSigned (value : Int) (read : IsSigned field value) (low : -1 ≤ value)
    (high : value < UInt32.size) : readSigned what field = .ok value := by
  have wide : 1 + UInt32.size ≤ signedLimit := by decide
  exact (readSigned_eq_ok what field value).2 ⟨read, by omega, by omega⟩

end

theorem readInterface_eq_ok (value : Nat) (interface : InterfaceId) :
    readInterface value = .ok interface ↔ value + 1 < UInt32.size ∧ interface = value + 1 := by
  unfold readInterface
  by_cases bounded : value + 1 < UInt32.size
  · rw [if_pos (by omega), Except.ok.injEq, eq_comm]
    exact (and_iff_right bounded).symm
  · rw [if_neg (by omega)]
    simp [bounded]

section
variable (nodeCount : Nat) (fields : List (List Char)) (record : UnicastRecord)

theorem describes_of_ofFields (read : ofFields nodeCount fields = .ok record) :
    Describes nodeCount fields record := by
  unfold ofFields at read
  split at read
  · obtain ⟨node, nodeRead, read⟩ := (Traversal.bind_eq_ok ..).1 read
    obtain ⟨target, targetRead, read⟩ := (Traversal.bind_eq_ok ..).1 read
    obtain ⟨nextValue, nextSigned, read⟩ := (Traversal.bind_eq_ok ..).1 read
    obtain ⟨value, signed, read⟩ := (Traversal.bind_eq_ok ..).1 read
    obtain ⟨nextInterfaceValue, nextInterfaceSigned, read⟩ := (Traversal.bind_eq_ok ..).1 read
    have atNode := (readNode_eq_ok ..).1 nodeRead
    have atTarget := (readNode_eq_ok ..).1 targetRead
    have towards := ((readSigned_eq_ok ..).1 nextSigned).1
    have leaving := ((readSigned_eq_ok ..).1 signed).1
    have entering := ((readSigned_eq_ok ..).1 nextInterfaceSigned).1
    split at read
    · next absent =>
      cases read
      obtain ⟨rfl, rfl, rfl⟩ := absent
      exact .unreachable _ _ _ _ _ node target atNode atTarget towards leaving entering
    · split at read
      · next present =>
        obtain ⟨next, nextRead, read⟩ := (Traversal.bind_eq_ok ..).1 read
        obtain ⟨interface, interfaceRead, read⟩ := (Traversal.bind_eq_ok ..).1 read
        obtain ⟨nextInterface, nextInterfaceRead, read⟩ := (Traversal.bind_eq_ok ..).1 read
        cases read
        obtain ⟨number, rfl⟩ := Int.eq_ofNat_of_zero_le present.2.1
        obtain ⟨nextNumber, rfl⟩ := Int.eq_ofNat_of_zero_le present.2.2
        obtain ⟨bounded, rfl⟩ := (readInterface_eq_ok ..).1 interfaceRead
        obtain ⟨nextBounded, rfl⟩ := (readInterface_eq_ok ..).1 nextInterfaceRead
        exact .route _ _ _ _ _ node target next number nextNumber atNode atTarget
          ((readNode_eq_ok ..).1 nextRead) leaving bounded entering nextBounded
      · cases read
  · cases read

theorem ofFields_of_describes (describes : Describes nodeCount fields record) :
    ofFields nodeCount fields = .ok record := by
  have positive : 0 < UInt32.size := by decide
  cases describes with
  | unreachable _ _ _ _ _ node target nodeRead targetRead nextRead interfaceRead
    nextInterfaceRead =>
    have absent (what : String) (field : List Char) (read : IsSigned field (-1)) :
        readSigned what field = .ok (-1) :=
      readSigned_of_isSigned what field (-1) read (by omega) (by omega)
    refine (Traversal.bind_eq_ok ..).2 ⟨node, (readNode_eq_ok ..).2 nodeRead, ?_⟩
    refine (Traversal.bind_eq_ok ..).2 ⟨target, (readNode_eq_ok ..).2 targetRead, ?_⟩
    refine (Traversal.bind_eq_ok ..).2 ⟨-1, absent _ _ nextRead, ?_⟩
    refine (Traversal.bind_eq_ok ..).2 ⟨-1, absent _ _ interfaceRead, ?_⟩
    refine (Traversal.bind_eq_ok ..).2 ⟨-1, absent _ _ nextInterfaceRead, ?_⟩
    exact if_pos ⟨rfl, rfl, rfl⟩
  | route _ _ _ _ _ node target next value nextValue nodeRead targetRead nextRead interfaceRead
    bounded nextInterfaceRead nextBounded =>
    have present (what : String) (field : List Char) (number : Nat) (read : IsSigned field number)
        (small : number < UInt32.size) : readSigned what field = .ok (number : Int) :=
      readSigned_of_isSigned what field number read (by omega) (by omega)
    have towards := isSigned_of_isNode nodeCount _ next nextRead
    refine (Traversal.bind_eq_ok ..).2 ⟨node, (readNode_eq_ok ..).2 nodeRead, ?_⟩
    refine (Traversal.bind_eq_ok ..).2 ⟨target, (readNode_eq_ok ..).2 targetRead, ?_⟩
    refine (Traversal.bind_eq_ok ..).2 ⟨next, present _ _ next towards nextRead.1.1, ?_⟩
    refine (Traversal.bind_eq_ok ..).2 ⟨value, present _ _ value interfaceRead (by omega), ?_⟩
    refine (Traversal.bind_eq_ok ..).2
      ⟨nextValue, present _ _ nextValue nextInterfaceRead (by omega), ?_⟩
    rw [if_neg (by omega), if_pos (by omega)]
    refine (Traversal.bind_eq_ok ..).2 ⟨next, (readNode_eq_ok ..).2 nextRead, ?_⟩
    refine (Traversal.bind_eq_ok ..).2 ⟨value + 1, (readInterface_eq_ok ..).2 ⟨bounded, rfl⟩, ?_⟩
    exact (Traversal.bind_eq_ok ..).2
      ⟨nextValue + 1, (readInterface_eq_ok ..).2 ⟨nextBounded, rfl⟩, rfl⟩

theorem ofFields_eq_ok :
    ofFields nodeCount fields = .ok record ↔ Describes nodeCount fields record :=
  ⟨describes_of_ofFields nodeCount fields record, ofFields_of_describes nodeCount fields record⟩

end

theorem isAllBlank_of_describes (nodeCount : Nat) (fields : List (List Char))
    (record : UnicastRecord) (describes : Describes nodeCount fields record) :
    isAllBlank ([','].intercalate fields) = false := by
  refine List.all_eq_false.2 ⟨',', ?_, by decide⟩
  cases describes
  all_goals simp

theorem ofText_intercalate (nodeCount : Nat) (fields : List (List Char)) (record : UnicastRecord)
    (inside : ∀ field ∈ fields, ',' ∉ field) (describes : Describes nodeCount fields record) :
    ofText nodeCount ([','].intercalate fields) = .ok record := by
  have inhabited : fields ≠ [] := by
    cases describes
    all_goals exact List.cons_ne_nil _ _
  unfold ofText
  rw [(splitOn_eq_iff ',' _ fields).2 ⟨inhabited, rfl, inside⟩]
  exact (ofFields_eq_ok ..).2 describes

theorem Listing.cons (nodeCount : Nat) (text : List Char) (rest : List Line)
    (record : UnicastRecord) (records : List UnicastRecord)
    (read : ofText nodeCount text = .ok record) (later : Listing nodeCount rest records) :
    Listing nodeCount (some text :: rest) (record :: records) := by
  have described := (ofFields_eq_ok ..).1 read
  have joined : [','].intercalate (text.splitOn ',') = text := List.intercalate_splitOn ','
  rw [← joined]
  exact .record _ rest record records (notMem_of_mem_splitOn ',' text) described later

end UnicastRecord

namespace Snapshot
open UnicastRecord

theorem lineRecords_eq_ok (nodeCount line : Nat) (lines : List Line)
    (records : List UnicastRecord) :
    lineRecords nodeCount line lines = .ok records ↔ Listing nodeCount lines records := by
  constructor
  · intro read
    induction lines generalizing line records with
    | nil =>
      cases read
      exact .nil
    | cons first rest ih =>
      cases first with
      | none => cases read
      | some text =>
        unfold lineRecords at read
        split at read
        · next blank => exact .blank text rest records (List.all_eq_true.1 blank) (ih _ _ read)
        · split at read
          · cases read
          · next record found =>
            cases later : lineRecords nodeCount (line + 1) rest with
            | error error =>
              rw [later] at read
              cases read
            | ok others =>
              rw [later] at read
              cases read
              exact .cons nodeCount text rest record others found (ih _ _ later)
  · intro listing
    induction listing generalizing line with
    | nil => rfl
    | blank text rest records blank later ih =>
      have skipped : isAllBlank text = true := List.all_eq_true.2 blank
      unfold lineRecords
      rw [if_pos skipped]
      exact ih (line + 1)
    | record fields rest record records inside describes later ih =>
      unfold lineRecords
      rw [isAllBlank_of_describes nodeCount fields record describes, if_neg Bool.false_ne_true,
        ofText_intercalate nodeCount fields record inside describes, ih (line + 1)]
      rfl

end Snapshot
end Multicast
