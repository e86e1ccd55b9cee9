import SelectiveRepeat.Library.Runs
import SelectiveRepeat.Record

/-! Records written one after the other are read back one after the other, and the readers stop
where the writers did. -/

namespace SelectiveRepeat

open Bytes Files Runs

/-! What the functions of the record API make of a record. -/

inductive RecordCall where
  | init
  | setType (type : Int)
  | setPayload (buf : Memory) (n : Nat)
  | setUuid (uuid : BitVec 32)
  | deleteFooter
  | read (leftovers : Leftovers) (f : File)

def recordCall (machine : Machine) (r : Record) : RecordCall → Record
  | .init => recordInit r
  | .setType type => recordSetType r type
  | .setPayload buf n => recordSetPayload r buf n
  | .setUuid uuid => recordSetUuid r uuid
  | .deleteFooter => recordDeleteFooter r
  | .read leftovers f => (recordRead machine leftovers r f).2.1

/-- Initialised, whatever it held, and then only changed by calls. -/
def Built (machine : Machine) (r : Record) : Prop :=
  ∃ junk, Reachable (recordCall machine) (fun _ _ => True) (recordInit junk) r

def Filled (r : Record) : Prop := r.length.toNat ≤ (r.data.getD []).length

theorem recordReadPayload_filled (leftovers : Leftovers) (r : Record) (f : File) :
    Filled (recordReadPayload leftovers r f).2.1 := by
  rw [recordReadPayload]
  split
  · have taken : (f.ahead.take r.length.toNat).length ≤ r.length.toNat := List.length_take_le ..
    simp only [Filled, File.fread, Option.getD_some, List.length_append, List.length_drop,
      slice_length]
    omega
  · next zero =>
      simp only [ne_eq, not_not] at zero
      simp [Filled, zero]

theorem recordCall_filled (machine : Machine) {r : Record} (filled : Filled r) (call : RecordCall) :
    Filled (recordCall machine r call) := by
  cases call with
  | init => exact Nat.zero_le 0
  | setType type => exact filled
  | setPayload buf n =>
      show (BitVec.ofNat 16 n).toNat ≤ (buf.slice 0 n).length
      rw [BitVec.toNat_ofNat, slice_length]
      exact Nat.mod_le n _
  | setUuid uuid =>
      simp only [recordCall, recordSetUuid]
      split <;> exact filled
  | deleteFooter => exact filled
  | read leftovers f =>
      simp only [recordCall, recordRead, recordReadFooter]
      split <;> exact recordReadPayload_filled ..

theorem Built.filled {machine : Machine} {r : Record} (built : Built machine r) : Filled r := by
  obtain ⟨junk, reached⟩ := built
  refine reached.invariant Filled (show Filled (recordInit junk) from Nat.zero_le 0) ?_
  exact fun _ call filled _ => recordCall_filled machine filled call

/-! The bytes of a record in a file. -/

def payload (r : Record) : List Byte := (r.data.getD []).take r.length.toNat

def footerBytes (machine : Machine) (r : Record) : List Byte :=
  if r.hasFooter ≠ 0 then machine.uint32.bytes r.uuid else []

def recordBytes (machine : Machine) (r : Record) : List Byte :=
  machine.header.bytes (r.type, r.hasFooter) ++ (machine.uint16.bytes (machine.htons r.length) ++
    (payload r ++ footerBytes machine r))

def recordSize (r : Record) : Nat :=
  2 + 2 + r.length.toNat + if r.hasFooter ≠ 0 then 4 else 0

theorem payload_length {r : Record} (filled : Filled r) : (payload r).length = r.length.toNat := by
  rw [payload, List.length_take]
  exact Nat.min_eq_left filled

theorem firstBytes_of_le {data : Option (List Byte)} {count : Nat}
    (le : count ≤ (data.getD []).length) : firstBytes data count = some ((data.getD []).take count) :=
  if_pos le

theorem recordWritePayload_end {r : Record} (filled : Filled r) (passed : List Byte) :
    recordWritePayload r ⟨passed, []⟩ = some (r.length.toNat, ⟨passed ++ payload r, []⟩) := by
  rw [recordWritePayload]
  split
  · next nonempty =>
      rw [firstBytes_of_le filled, Option.bind_eq_bind, Option.bind_some, ← payload,
        fwrite_end passed (by rwa [payload_length filled])]
      simp only [Nat.mul_one]
  · next empty =>
      have zero : r.length.toNat = 0 := Nat.eq_zero_of_not_pos empty
      rw [payload, zero, List.take_zero, List.append_nil]

theorem recordWriteFooter_end (machine : Machine) (r : Record) (passed : List Byte) :
    recordWriteFooter machine r ⟨passed, []⟩ =
      (if r.hasFooter ≠ 0 then 4 else 0, ⟨passed ++ footerBytes machine r, []⟩) := by
  rw [recordWriteFooter, footerBytes]
  split
  · rw [Layout.fwrite_end _ (by omega)]
  · rw [List.append_nil]

theorem recordWrite_end (machine : Machine) {r : Record} (filled : Filled r) (passed : List Byte) :
    recordWrite machine r ⟨passed, []⟩ =
      some (recordSize r, ⟨passed ++ recordBytes machine r, []⟩) := by
  simp only [recordWrite, Layout.fwrite_end _ (show 0 < 2 by omega), recordWritePayload_end filled,
    recordWriteFooter_end, Option.bind_eq_bind, Option.bind_some, recordSize, recordBytes,
    List.append_assoc]

theorem recordReadPayload_bytes (leftovers : Leftovers) {target r : Record} (filled : Filled r)
    (length : target.length = r.length) (passed rest : List Byte) :
    ∃ data extra, data.getD [] = payload r ++ extra ∧
      recordReadPayload leftovers target ⟨passed, payload r ++ rest⟩ =
        (r.length.toNat, { target with data := data }, ⟨passed ++ payload r, rest⟩) := by
  have size := payload_length filled
  rw [recordReadPayload, length]
  split
  · next filledLength =>
      have nonempty : 0 < (payload r).length := by
        rw [size, Nat.pos_iff_ne_zero]
        exact fun zero => filledLength (BitVec.eq_of_toNat_eq zero)
      have item := fread_item passed rest (leftovers.block.slice 0 (r.length.toNat + 1)) nonempty
      rw [size] at item
      simp only [item, Nat.mul_one]
      exact ⟨_, _, rfl, rfl⟩
  · next empty =>
      simp only [ne_eq, not_not] at empty
      have nothing : payload r = [] := List.length_eq_zero_iff.mp (by rw [size, empty]; rfl)
      refine ⟨none, [], ?_, ?_⟩
      · rw [nothing]
        rfl
      · rw [nothing, List.append_nil, empty]
        rfl

theorem recordReadFooter_bytes (machine : Machine) (leftovers : Leftovers) (target : Record) {r : Record}
    (same : target.hasFooter = r.hasFooter) (passed rest : List Byte) :
    recordReadFooter machine leftovers target ⟨passed, footerBytes machine r ++ rest⟩ =
      (if r.hasFooter ≠ 0 then 4 else 0,
        { target with uuid := if r.hasFooter ≠ 0 then r.uuid else 0 },
        ⟨passed ++ footerBytes machine r, rest⟩) := by
  rw [recordReadFooter, footerBytes, same]
  split
  · rw [Layout.fread_bytes _ (by omega)]
  · rw [List.append_nil]
    rfl

/-- The same to every reader of the record: `record_get_uuid` only where there is a footer. -/
structure SameContents (read written : Record) : Prop where
  type : recordGetType read = recordGetType written
  hasFooter : recordHasFooter read = recordHasFooter written
  length : recordGetLength read = recordGetLength written
  payload : ∀ n, ∃ bytes,
    recordGetPayload read n = some bytes ∧ recordGetPayload written n = some bytes
  uuid : recordHasFooter written ≠ 0 → recordGetUuid read = recordGetUuid written

theorem recordGetPayload_same {read written : Record} (filled : Filled written)
    (length : read.length = written.length) {extra : List Byte}
    (data : read.data.getD [] = payload written ++ extra) (n : Nat) :
    ∃ bytes, recordGetPayload read n = some bytes ∧ recordGetPayload written n = some bytes := by
  have size := payload_length filled
  have part : (if written.length.toNat < n then written.length.toNat else n) ≤
      written.length.toNat := by
    split <;> omega
  rw [recordGetPayload, recordGetPayload, length, firstBytes_of_le (part.trans filled),
    firstBytes_of_le (by rw [data, List.length_append]; omega)]
  refine ⟨_, ?_, rfl⟩
  rw [data, List.take_append_of_le_length (by omega), payload, List.take_take, Nat.min_eq_left part]

theorem recordRead_bytes (machine : Machine) (leftovers : Leftovers) (target : Record) {r : Record}
    (filled : Filled r) (passed rest : List Byte) :
    ∃ read, recordRead machine leftovers target ⟨passed, recordBytes machine r ++ rest⟩ =
        (recordSize r, read, ⟨passed ++ recordBytes machine r, rest⟩) ∧ SameContents read r := by
  let header := passed ++ machine.header.bytes (r.type, r.hasFooter) ++
    machine.uint16.bytes (machine.htons r.length)
  obtain ⟨data, extra, sameData, payloadRead⟩ := @recordReadPayload_bytes leftovers
    { target with type := r.type, hasFooter := r.hasFooter, length := r.length } r filled rfl header
    (footerBytes machine r ++ rest)
  have footerRead := @recordReadFooter_bytes machine leftovers
    { target with type := r.type, hasFooter := r.hasFooter, length := r.length, data := data } r rfl
    (header ++ payload r) rest
  let read : Record := ⟨r.type, r.hasFooter, r.length, data, if r.hasFooter ≠ 0 then r.uuid else 0⟩
  refine ⟨read, ?_, rfl, rfl, rfl, recordGetPayload_same filled rfl sameData, fun footer => ?_⟩
  · simp only [header, List.append_assoc] at payloadRead footerRead
    simp only [recordRead, recordBytes, List.append_assoc, Layout.fread_bytes _ (show 0 < 2 by omega),
      machine.ntohs_htons, payloadRead, footerRead, recordSize, read]
  · refine if_pos fun zero => footer ?_
    rw [recordHasFooter, zero]
    rfl

/-! Sequences of records. -/

def writeRecords (machine : Machine) : List Record → File → Option (List Nat × File)
  | [], f => some ([], f)
  | r :: rest, f => do
      let (sum, f) ← recordWrite machine r f
      let (sums, f) ← writeRecords machine rest f
      some (sum :: sums, f)

def readRecords (machine : Machine) : List (Record × Leftovers) → File →
    List Nat × List Record × File
  | [], f => ([], [], f)
  | (r, leftovers) :: rest, f =>
      let (sum, r, f) := recordRead machine leftovers r f
      let (sums, records, f) := readRecords machine rest f
      (sum :: sums, r :: records, f)

theorem writeRecords_end (machine : Machine) {records : List Record}
    (filled : ∀ r ∈ records, Filled r) (passed : List Byte) :
    writeRecords machine records ⟨passed, []⟩ =
      some (records.map recordSize, ⟨passed ++ records.flatMap (recordBytes machine), []⟩) := by
  induction records generalizing passed with
  | nil => rw [writeRecords, List.map_nil, List.flatMap_nil, List.append_nil]
  | cons r rest ih =>
      obtain ⟨filledHere, filledRest⟩ := List.forall_mem_cons.mp filled
      rw [writeRecords, recordWrite_end machine filledHere]
      simp only [ih filledRest, Option.bind_eq_bind, Option.bind_some, List.map_cons,
        List.flatMap_cons, List.append_assoc]

theorem readRecords_bytes (machine : Machine) {records : List Record}
    (filled : ∀ r ∈ records, Filled r) {targets : List (Record × Leftovers)}
    (each : targets.length = records.length) (passed rest : List Byte) :
    ∃ read, readRecords machine targets
        ⟨passed, records.flatMap (recordBytes machine) ++ rest⟩ =
          (records.map recordSize, read, ⟨passed ++ records.flatMap (recordBytes machine), rest⟩) ∧
      List.Forall₂ SameContents read records := by
  induction records generalizing targets passed with
  | nil =>
      obtain rfl := List.length_eq_zero_iff.mp each
      refine ⟨[], ?_, List.Forall₂.nil⟩
      rw [readRecords, List.flatMap_nil, List.nil_append, List.append_nil, List.map_nil]
  | cons r records ih =>
      obtain ⟨filledHere, filledRest⟩ := List.forall_mem_cons.mp filled
      obtain ⟨⟨target, leftovers⟩, targets, rfl⟩ := List.exists_cons_of_length_eq_add_one each
      obtain ⟨first, firstRead, firstSame⟩ := recordRead_bytes machine leftovers target filledHere
        passed (records.flatMap (recordBytes machine) ++ rest)
      obtain ⟨others, othersRead, othersSame⟩ := ih filledRest (Nat.succ.inj each)
        (passed ++ recordBytes machine r)
      refine ⟨first :: others, ?_, List.Forall₂.cons firstSame othersSame⟩
      simp only [readRecords, List.flatMap_cons, List.append_assoc, firstRead, List.map_cons]
      simp only [othersRead, List.append_assoc]

theorem records_round_trip (machine : Machine) {records : List Record}
    (built : ∀ r ∈ records, Built machine r) {targets : List (Record × Leftovers)}
    (each : targets.length = records.length) (before : List Byte) :
    ∃ sums file read, writeRecords machine records ⟨before, []⟩ = some (sums, file) ∧
      readRecords machine targets (file.seek before.length) = (sums, read, file) ∧
      file.ahead = [] ∧ List.Forall₂ SameContents read records := by
  have filled : ∀ r ∈ records, Filled r := fun r member => (built r member).filled
  obtain ⟨read, returns, same⟩ := readRecords_bytes machine filled each before []
  refine ⟨_, _, read, writeRecords_end machine filled before, ?_, rfl, same⟩
  rw [seek_end, ← returns, List.append_nil]

theorem records_round_trip_two :
    ∃ sums file read,
      writeRecords x86
          [[RecordCall.setType 23, .setPayload (fun index => BitVec.ofNat 8 (97 + index)) 3,
              .setUuid 1234].foldl (recordCall x86) (recordInit ⟨1, 1, 9, none, 77⟩),
            recordInit ⟨1, 1, 9, none, 77⟩] ⟨[], []⟩ = some (sums, file) ∧
      readRecords x86 [(⟨1, 1, 9, none, 77⟩, ⟨5, fun _ => 255, 6⟩),
          (⟨2, 1, 4, some [0], 88⟩, ⟨7, fun _ => 255, 8⟩)] (file.seek 0) = (sums, read, file) ∧
      file.ahead = [] ∧
      List.Forall₂ SameContents read
        [[RecordCall.setType 23, .setPayload (fun index => BitVec.ofNat 8 (97 + index)) 3,
            .setUuid 1234].foldl (recordCall x86) (recordInit ⟨1, 1, 9, none, 77⟩),
          recordInit ⟨1, 1, 9, none, 77⟩] := by
  refine records_round_trip x86 ?_ rfl []
  simp only [List.forall_mem_cons, List.not_mem_nil, false_implies, implies_true, and_true]
  exact ⟨⟨_, reachable_along ⟨trivial, trivial, trivial, trivial⟩⟩, ⟨_, Reachable.start⟩⟩

end SelectiveRepeat
