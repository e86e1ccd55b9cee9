import SelectiveRepeat.RecordFile

/-! What `record_read` makes of any file at all, one cut short included. Its sum falls short of the
size of the record it filled in exactly when the file ended inside of that record. -/

namespace SelectiveRepeat

open Bytes Files Runs

/-- Memory holds nothing that the record's fields do not. -/
structure Machine.Full (machine : Machine) : Prop where
  header : machine.header.Full
  uint16 : machine.uint16.Full
  uint32 : machine.uint32.Full
  htons_ntohs : ∀ netshort, machine.htons (machine.ntohs netshort) = netshort

theorem x86_header_full : x86.header.Full := by
  intro bytes length
  have joined (word : BitVec 16) : word.extractLsb' 15 1 ++ word.extractLsb' 0 15 = word := by
    apply BitVec.eq_of_getLsbD_eq
    intro bit bound
    simp only [BitVec.getLsbD_append, BitVec.getLsbD_extractLsb']
    grind
  simp only [x86, Layout.packed, joined]
  exact layout16_full bytes length

theorem x86_full : x86.Full := ⟨x86_header_full, layout16_full, layout32_full, swap16_swap16⟩

/-! One read, piece by piece. -/

def footerSize (r : Record) : Nat := if r.hasFooter ≠ 0 then 4 else 0

theorem recordSize_eq (r : Record) : recordSize r = 2 + 2 + r.length.toNat + footerSize r := rfl

theorem recordReadPayload_spec (leftovers : Leftovers) (r : Record) (f : File) :
    ∃ data, recordReadPayload leftovers r f =
        (f.counted r.length.toNat, { r with data := data }, f.advance r.length.toNat) ∧
      (r.length.toNat ≤ f.ahead.length →
        (data.getD []).take r.length.toNat = f.ahead.take r.length.toNat) := by
  by_cases empty : r.length = 0
  · refine ⟨none, ?_, fun _ => ?_⟩
    · simp [recordReadPayload, empty]
    · simp [empty]
  · have positive : 0 < r.length.toNat :=
      Nat.pos_of_ne_zero fun zero => empty (BitVec.eq_of_toNat_eq zero)
    refine ⟨some (f.fread (leftovers.block.slice 0 (r.length.toNat + 1)) r.length.toNat).2.1, ?_, ?_⟩
    · simp only [recordReadPayload, ne_eq, empty, not_false_eq_true, if_true,
        fread_counted f _ positive, fread_advance]
    · exact fun whole => fread_take f _ whole

theorem recordReadFooter_spec (machine : Machine) (leftovers : Leftovers) (r : Record) (f : File) :
    ∃ uuid, recordReadFooter machine leftovers r f =
        (f.counted (footerSize r), { r with uuid := uuid }, f.advance (footerSize r)) ∧
      (machine.Full → footerSize r ≤ f.ahead.length →
        footerBytes machine { r with uuid := uuid } = f.ahead.take (footerSize r)) := by
  by_cases footer : r.hasFooter = 0
  · refine ⟨0, ?_, fun _ _ => ?_⟩
    · simp [recordReadFooter, footerSize, footer]
    · simp [footerBytes, footerSize, footer]
  · refine ⟨(machine.uint32.fread leftovers.foo f).2.1, ?_, fun full whole => ?_⟩
    · simp only [recordReadFooter, footerSize, ne_eq, footer, not_false_eq_true, if_true,
        Layout.fread_counted _ (show 0 < 4 by omega), Layout.fread_advance]
    · simp only [footerSize, footerBytes, ne_eq, footer, not_false_eq_true, if_true] at whole ⊢
      exact full.uint32.fread_bytes leftovers.foo whole

/-! The whole read. -/

/-- What a read leaves has to do with the file it started from. -/
structure ReadFrom (machine : Machine) (f : File) (out : Nat × Record × File) : Prop where
  position : out.2.2 = f.advance (recordSize out.2.1)
  counts : Counts f (recordSize out.2.1) out.1
  filled : recordSize out.2.1 ≤ f.ahead.length → Filled out.2.1
  bytes : machine.Full → recordSize out.2.1 ≤ f.ahead.length →
    recordBytes machine out.2.1 = f.ahead.take (recordSize out.2.1)

theorem recordRead_from (machine : Machine) (leftovers : Leftovers) (target : Record) (f : File) :
    ReadFrom machine f (recordRead machine leftovers target f) := by
  let fields := (machine.header.fread (target.type, target.hasFooter) f).2.1
  let length := (machine.uint16.fread leftovers.length (f.advance 2)).2.1
  let sized : Record :=
    { target with type := fields.1, hasFooter := fields.2, length := machine.ntohs length }
  obtain ⟨data, payloadRead, payloadTaken⟩ :=
    recordReadPayload_spec leftovers sized (f.advance (2 + 2))
  let loaded : Record := { sized with data := data }
  obtain ⟨uuid, footerRead, footerTaken⟩ :=
    recordReadFooter_spec machine leftovers loaded (f.advance (2 + 2 + sized.length.toNat))
  let read : Record := { loaded with uuid := uuid }
  have size : recordSize read = 2 + 2 + sized.length.toNat + footerSize loaded := rfl
  have reads : recordRead machine leftovers target f =
      (f.counted 2 + (f.advance 2).counted 2 + (f.advance (2 + 2)).counted sized.length.toNat +
          (f.advance (2 + 2 + sized.length.toNat)).counted (footerSize loaded),
        read, f.advance (recordSize read)) := by
    simp only [recordRead, Layout.fread_counted _ (show 0 < 2 by omega), Layout.fread_advance,
      advance_advance]
    rw [payloadRead]
    simp only [advance_advance]
    rw [footerRead, advance_advance, size]
  rw [reads]
  refine ⟨rfl, ?_, fun whole => ?_, fun full whole => ?_⟩
  · simp only [size]
    exact (((counts_counted f 2).add (counts_counted _ 2)).add (counts_counted _ _)).add
      (counts_counted _ _)
  · simp only [size] at whole
    have taken := congrArg List.length (payloadTaken (by rw [advance_ahead_length]; omega))
    rw [List.length_take, List.length_take, advance_ahead_length] at taken
    show sized.length.toNat ≤ (data.getD []).length
    omega
  · simp only [size] at whole
    have header : machine.header.bytes (sized.type, sized.hasFooter) = f.ahead.take 2 :=
      full.header.fread_bytes _ (by omega)
    have words : machine.uint16.bytes (machine.htons sized.length) =
        (f.advance 2).ahead.take 2 := by
      rw [full.htons_ntohs]
      exact full.uint16.fread_bytes _ (by rw [advance_ahead_length]; omega)
    have block : payload read = (f.advance (2 + 2)).ahead.take sized.length.toNat :=
      payloadTaken (by rw [advance_ahead_length]; omega)
    have footer : footerBytes machine read = _ :=
      footerTaken full (by rw [advance_ahead_length]; omega)
    rw [recordBytes, size, advance_take, advance_take, advance_take, ← header, ← words, ← block,
      ← footer]
    simp only [List.append_assoc]
    rfl

/-! Reading on, and writing what was read. -/

theorem readRecords_cons (machine : Machine) (target : Record) (leftovers : Leftovers)
    (targets : List (Record × Leftovers)) (f : File) :
    readRecords machine ((target, leftovers) :: targets) f =
      let first := recordRead machine leftovers target f
      let others := readRecords machine targets first.2.2
      (first.1 :: others.1, first.2.1 :: others.2.1, others.2.2) := rfl

theorem readRecords_whole {machine : Machine} (full : machine.Full)
    {targets : List (Record × Leftovers)} {f rest : File} {sums : List Nat} {read : List Record}
    (reads : readRecords machine targets f = (sums, read, rest))
    (whole : sums = read.map recordSize) :
    rest = f.advance (read.flatMap (recordBytes machine)).length ∧
      f.ahead.take (read.flatMap (recordBytes machine)).length =
        read.flatMap (recordBytes machine) ∧
      ∀ r ∈ read, Filled r := by
  induction targets generalizing f sums read with
  | nil =>
      cases reads
      simp
  | cons head targets ih =>
      obtain ⟨target, leftovers⟩ := head
      rw [readRecords_cons] at reads
      cases reads
      obtain ⟨wholeFirst, wholeOthers⟩ := List.cons_eq_cons.mp whole
      have first := recordRead_from machine leftovers target f
      have enough := first.counts.eq_iff.mp wholeFirst
      have bytes := first.bytes full enough
      have length := congrArg List.length bytes
      rw [List.length_take_of_le enough] at length
      obtain ⟨position, same, filled⟩ := @ih _ _ _ rfl wholeOthers
      simp only [List.flatMap_cons, List.length_append, length]
      refine ⟨?_, ?_, List.forall_mem_cons.mpr ⟨first.filled enough, filled⟩⟩
      · rw [← advance_advance, ← first.position]
        exact position
      · rw [advance_take, ← first.position, same, bytes]

theorem records_rewritten {machine : Machine} (full : machine.Full)
    {targets : List (Record × Leftovers)} {f rest : File} {sums : List Nat} {read : List Record}
    (reads : readRecords machine targets f = (sums, read, rest))
    (whole : sums = read.map recordSize) :
    ∃ bytes, f.ahead = bytes ++ rest.ahead ∧ rest.passed = f.passed ++ bytes ∧
      ∀ copied, writeRecords machine read ⟨copied, []⟩ = some (sums, ⟨copied ++ bytes, []⟩) := by
  obtain ⟨position, same, filled⟩ := readRecords_whole full reads whole
  refine ⟨read.flatMap (recordBytes machine), ?_, ?_, fun copied => ?_⟩
  · calc f.ahead
      _ = f.ahead.take (read.flatMap (recordBytes machine)).length ++ rest.ahead := by
          rw [position, File.advance, List.take_append_drop]
      _ = _ := by rw [same]
  · rw [position, File.advance, same]
  · rw [whole]
    exact writeRecords_end machine filled copied

theorem records_rewritten_two :
    let f : File := ⟨[7], [23, 128, 0, 3, 97, 98, 99, 210, 4, 0, 0, 1, 0, 0, 0, 9]⟩
    let out := readRecords x86 [(⟨1, 1, 9, none, 77⟩, ⟨5, fun _ => 255, 6⟩),
      (⟨2, 1, 4, some [0], 88⟩, ⟨7, fun _ => 255, 8⟩)] f
    out.1 = out.2.1.map recordSize ∧
    ∃ bytes, f.ahead = bytes ++ out.2.2.ahead ∧ out.2.2.passed = f.passed ++ bytes ∧
      ∀ copied, writeRecords x86 out.2.1 ⟨copied, []⟩ = some (out.1, ⟨copied ++ bytes, []⟩) :=
  ⟨by decide, records_rewritten x86_full rfl (by decide)⟩

/-! A file cut short. -/

/-- How many of the items of these sizes lie wholly in the first `kept` bytes. -/
def wholeItems : List Nat → Nat → Nat
  | [], _ => 0
  | size :: sizes, kept => if size ≤ kept then wholeItems sizes (kept - size) + 1 else 0

/-- The records up to the first whose size is not the sum that its read returned. -/
def recovered (out : List Nat × List Record × File) : List Record :=
  ((out.1.zip out.2.1).takeWhile fun (sum, r) => sum == recordSize r).map Prod.snd

theorem recordRead_header (machine : Machine) (leftovers : Leftovers) (target r : Record)
    (passed rest : List Byte) :
    recordSize (recordRead machine leftovers target ⟨passed,
      machine.header.bytes (r.type, r.hasFooter) ++
        (machine.uint16.bytes (machine.htons r.length) ++ rest)⟩).2.1 = recordSize r := by
  simp only [recordRead, Layout.fread_bytes _ (show 0 < 2 by omega), machine.ntohs_htons]
  obtain ⟨data, payloadRead, -⟩ := recordReadPayload_spec leftovers
    { target with type := r.type, hasFooter := r.hasFooter, length := r.length }
    ⟨passed ++ machine.header.bytes (r.type, r.hasFooter) ++
      machine.uint16.bytes (machine.htons r.length), rest⟩
  rw [payloadRead]
  simp only
  obtain ⟨uuid, footerRead, -⟩ := recordReadFooter_spec machine leftovers
    { target with type := r.type, hasFooter := r.hasFooter, length := r.length, data := data }
    (File.advance ⟨passed ++ machine.header.bytes (r.type, r.hasFooter) ++
      machine.uint16.bytes (machine.htons r.length), rest⟩ r.length.toNat)
  rw [footerRead]
  rfl

theorem recordBytes_length (machine : Machine) {r : Record} (filled : Filled r) :
    (recordBytes machine r).length = recordSize r := by
  simp only [recordBytes, footerBytes, recordSize, List.length_append, payload_length filled,
    Layout.bytes_length]
  split <;> simp only [Layout.bytes_length, List.length_nil] <;> omega

theorem recordRead_cut (machine : Machine) (leftovers : Leftovers) (target : Record) {r : Record}
    (passed rest : List Byte) {kept : Nat} (cut : kept < recordSize r) :
    (recordRead machine leftovers target ⟨passed, (recordBytes machine r ++ rest).take kept⟩).1 ≠
      recordSize
        (recordRead machine leftovers target
          ⟨passed, (recordBytes machine r ++ rest).take kept⟩).2.1 := by
  intro complete
  have enough := (recordRead_from machine leftovers target _).counts.eq_iff.mp complete
  have few : ((recordBytes machine r ++ rest).take kept).length ≤ kept := List.length_take_le ..
  by_cases header : 2 + 2 ≤ kept
  · -- The whole header is there, so what is read has the size of the record written.
    have start := recordRead_header machine leftovers target r passed
      ((payload r ++ footerBytes machine r ++ rest).take (kept - 2 - 2))
    have split : (recordBytes machine r ++ rest).take kept =
        machine.header.bytes (r.type, r.hasFooter) ++
          (machine.uint16.bytes (machine.htons r.length) ++
            (payload r ++ footerBytes machine r ++ rest).take (kept - 2 - 2)) := by
      rw [recordBytes, List.append_assoc, List.take_append, List.append_assoc, List.take_append]
      simp only [Layout.bytes_length]
      rw [List.take_of_length_le (by rw [Layout.bytes_length]; omega),
        List.take_of_length_le (by rw [Layout.bytes_length]; omega)]
    rw [← split] at start
    rw [start] at enough
    exact absurd (enough.trans few) (by omega)
  · rw [recordSize_eq] at enough
    exact absurd (enough.trans few) (by omega)

theorem SameContents.size {read written : Record} (same : SameContents read written) :
    recordSize read = recordSize written := by
  have footer : read.hasFooter = written.hasFooter := BitVec.eq_of_toNat_eq same.hasFooter
  have length : read.length.toNat = written.length.toNat := same.length
  rw [recordSize, recordSize, footer, length]

theorem recovered_cons (sum : Nat) (r : Record) (out : List Nat × List Record × File) :
    recovered (sum :: out.1, r :: out.2.1, out.2.2) =
      if sum = recordSize r then r :: recovered out else [] := by
  simp only [recovered, List.zip_cons_cons, List.takeWhile_cons, beq_iff_eq]
  split <;> rfl

theorem cut_file_recovered (machine : Machine) {records : List Record}
    (built : ∀ r ∈ records, Built machine r) {targets : List (Record × Leftovers)}
    (more : records.length < targets.length) (before : List Byte) (kept : Nat) :
    ∃ sums bytes, writeRecords machine records ⟨before, []⟩ = some (sums, ⟨before ++ bytes, []⟩) ∧
      List.Forall₂ SameContents
        (recovered (readRecords machine targets ⟨before, bytes.take kept⟩))
        (records.take (wholeItems sums kept)) := by
  have filled : ∀ r ∈ records, Filled r := fun r member => (built r member).filled
  refine ⟨_, _, writeRecords_end machine filled before, ?_⟩
  clear built
  induction records generalizing targets before kept with
  | nil =>
      obtain ⟨⟨target, leftovers⟩, targets, rfl⟩ := List.exists_cons_of_length_pos more
      rw [readRecords_cons]
      simp only [List.flatMap_nil, List.take_nil]
      have short : ¬ (recordRead machine leftovers target ⟨before, []⟩).1 =
          recordSize (recordRead machine leftovers target ⟨before, []⟩).2.1 := by
        rw [(recordRead_from machine leftovers target ⟨before, []⟩).counts.eq_iff, recordSize_eq,
          List.length_nil]
        omega
      rw [recovered_cons, if_neg short]
      exact List.Forall₂.nil
  | cons r records ih =>
      obtain ⟨filledHere, filledRest⟩ := List.forall_mem_cons.mp filled
      obtain ⟨⟨target, leftovers⟩, targets, rfl⟩ :=
        List.exists_cons_of_length_pos (Nat.zero_lt_of_lt more)
      rw [readRecords_cons]
      simp only [List.flatMap_cons, List.map_cons, wholeItems]
      split
      · next whole =>
          have bytes : (recordBytes machine r ++ records.flatMap (recordBytes machine)).take kept =
              recordBytes machine r ++
                (records.flatMap (recordBytes machine)).take (kept - recordSize r) := by
            rw [List.take_append, recordBytes_length machine filledHere,
              List.take_of_length_le (by rwa [recordBytes_length machine filledHere])]
          obtain ⟨first, firstRead, firstSame⟩ := recordRead_bytes machine leftovers target
            filledHere before ((records.flatMap (recordBytes machine)).take (kept - recordSize r))
          rw [bytes, firstRead, recovered_cons, if_pos firstSame.size.symm, List.take_succ_cons]
          exact List.Forall₂.cons firstSame (ih (Nat.lt_of_succ_lt_succ more) _ _ filledRest)
      · next cut =>
          rw [recovered_cons, if_neg
            (recordRead_cut machine leftovers target before _ (Nat.lt_of_not_le cut))]
          exact List.Forall₂.nil

theorem cut_file_recovered_two :
    ∃ sums bytes,
      writeRecords x86
          [[RecordCall.setType 23, .setPayload (fun index => BitVec.ofNat 8 (97 + index)) 3,
              .setUuid 1234].foldl (recordCall x86) (recordInit ⟨1, 1, 9, none, 77⟩),
            recordInit ⟨1, 1, 9, none, 77⟩] ⟨[], []⟩ = some (sums, ⟨[] ++ bytes, []⟩) ∧
      List.Forall₂ SameContents
        (recovered (readRecords x86 (List.replicate 3 (⟨1, 1, 9, none, 77⟩, ⟨5, fun _ => 255, 6⟩))
          ⟨[], bytes.take 13⟩))
        (List.take (wholeItems sums 13)
          [[RecordCall.setType 23, .setPayload (fun index => BitVec.ofNat 8 (97 + index)) 3,
              .setUuid 1234].foldl (recordCall x86) (recordInit ⟨1, 1, 9, none, 77⟩),
            recordInit ⟨1, 1, 9, none, 77⟩]) := by
  refine cut_file_recovered x86 ?_ (by decide) [] 13
  simp only [List.forall_mem_cons, List.not_mem_nil, false_implies, implies_true, and_true]
  exact ⟨⟨_, reachable_along ⟨trivial, trivial, trivial, trivial⟩⟩, ⟨_, Reachable.start⟩⟩

end SelectiveRepeat
