import SelectiveRepeat.ReceiverEnd
import SelectiveRepeat.ReceiverFeed

/-! What an accepted packet does while no `write` fails: everything due is written, and
the window grows by one for each packet. -/

namespace SelectiveRepeat

open Bytes Circle Reassembly

/-- From this call on `write` may stop short but does not fail. -/
def Sys.WritesFrom (sys : Sys) (first : Nat) : Prop :=
  ∀ call count, first ≤ call → sys.write call count ≠ none

theorem Sys.WritesFrom.mono {sys : Sys} {first later : Nat} (writes : sys.WritesFrom first)
    (le : first ≤ later) : sys.WritesFrom later :=
  fun call count after => writes call count (le.trans after)

theorem Sys.WritesAll.writesFrom {sys : Sys} (writesAll : sys.WritesAll) (first : Nat) :
    sys.WritesFrom first := by
  intro call count _
  rw [writesAll]
  exact Option.some_ne_none count

def writtenFrom (sys : Sys) : Nat → List Pkt → List (List Byte)
  | _, [] => []
  | call, pkt :: rest =>
      (pktGetPayload pkt).take ((sys.write call (pktGetLength pkt)).getD 0) ::
        writtenFrom sys (call + 1) rest

theorem windowAdd_min {r : Receiver} (valid : r.WindowValid) :
    (windowAdd r).windowSize = min 31 (r.windowSize + 1) := by
  have high := valid.high
  rw [windowAdd]
  split
  · next room =>
    have small : r.windowSize < 31 := room
    show r.windowSize + 1 = _
    omega
  · next full =>
    have large : ¬r.windowSize < 31 := full
    omega

structure Advanced (sys : Sys) (r : Receiver) (new : List Pkt) (after : Receiver) : Prop where
  written : after.written = r.written ++ writtenFrom sys r.writeCalls new
  writeCalls : after.writeCalls = r.writeCalls + new.length
  windowSize : after.windowSize = min 31 (r.windowSize + new.length)

theorem Advanced.refl (sys : Sys) {r : Receiver} (valid : r.WindowValid) : Advanced sys r [] r where
  written := (List.append_nil _).symm
  writeCalls := rfl
  windowSize := by
    have high := valid.high
    simp only [List.length_nil]
    omega

theorem Advanced.next {sys : Sys} {r after : Receiver} {pkt : Pkt} {new : List Pkt} {writed : Nat}
    (valid : (delivered r ((pktGetPayload pkt).take writed)).WindowValid)
    (waited : (delivered r ((pktGetPayload pkt).take writed)).waitedSeqnum =
      ((delivered r ((pktGetPayload pkt).take writed)).written.length % 256 : Nat))
    (wrote : sys.write r.writeCalls (pktGetLength pkt) = some writed)
    (advanced : Advanced sys (acknowledged sys (delivered r ((pktGetPayload pkt).take writed))) new
      after) : Advanced sys r (pkt :: new) after := by
  have acked := acknowledged_eq sys valid waited
  have grown := windowAdd_min valid
  obtain ⟨written, writeCalls, windowSize⟩ := advanced
  rw [acked] at written writeCalls windowSize
  constructor
  · rw [written, writtenFrom, wrote]
    exact List.append_assoc r.written [(pktGetPayload pkt).take writed] _
  · rw [writeCalls, List.length_cons]
    show r.writeCalls + 1 + new.length = _
    omega
  · rw [windowSize, grown, List.length_cons]
    show min 31 (min 31 (r.windowSize + 1) + new.length) = _
    omega

theorem writeInSequenceLoop_advances {sys : Sys} {entries : List (Nat × Pkt)} {r : Receiver}
    {out : List Pkt} (tracks : Tracks r out entries) (writes : sys.WritesFrom r.writeCalls) :
    (writeInSequenceLoop sys (entries.map Prod.snd) r).1 ≠ -1 ∧
      ((writeInSequenceLoop sys (entries.map Prod.snd) r).1 ≠ -10 →
        ∃ new, (drain out entries).1 = out ++ new ∧
          Advanced sys r new (writeInSequenceLoop sys (entries.map Prod.snd) r).2) := by
  induction entries generalizing r out with
  | nil =>
      refine ⟨by simp [writeInSequenceLoop], fun _ => ⟨[], ?_, Advanced.refl sys tracks.window⟩⟩
      rw [drain, List.append_nil]
  | cons entry rest ih =>
      rw [List.map_cons, writeInSequenceLoop_cons]
      by_cases due : entry.1 = out.length
      · rw [if_pos (tracks.head_due_iff.mpr due)]
        obtain ⟨writed, wrote⟩ := Option.ne_none_iff_exists'.mp
          (writes r.writeCalls (pktGetLength entry.2) (Nat.le_refl _))
        have popped := tracks.pop due ((pktGetPayload entry.2).take writed)
        rw [wrote]
        dsimp only
        split_ifs with ended
        · exact ⟨by simp, fun goes => absurd rfl goes⟩
        · have later : sys.WritesFrom
              (acknowledged sys (delivered r ((pktGetPayload entry.2).take writed))).writeCalls := by
            rw [acknowledged_eq sys popped.window popped.waited_written]
            exact writes.mono (Nat.le_succ _)
          obtain ⟨succeeded, advances⟩ := ih (popped.acknowledge sys) later
          refine ⟨succeeded, fun goes => ?_⟩
          obtain ⟨new, drained, advanced⟩ := advances goes
          refine ⟨entry.2 :: new, ?_, advanced.next popped.window popped.waited_written wrote⟩
          rw [drain, if_pos due, drained, List.append_assoc, List.singleton_append]
      · rw [if_neg (mt tracks.head_due_iff.mp due), drain, if_neg due]
        exact ⟨by simp, fun _ => ⟨[], (List.append_nil out).symm, Advanced.refl sys tracks.window⟩⟩

def taken (r : Receiver) (pkt : Pkt) : Receiver :=
  { r with lastTimestamp := pktGetTimestamp pkt, list := addSpecificQueue r.list pkt }

section

variable {r : Receiver} {out : List Pkt} {entries : List (Nat × Pkt)}

theorem Tracks.insertHead (tracks : Tracks r out entries) {pkt : Pkt} (valid : pkt.Valid)
    (inWindow : r.checkInWindow (pktGetSeqnum pkt) = true) :
    ∃ head rest, insertAt (absoluteNumber out.length pkt) pkt entries = head :: rest ∧
      Tracks (taken r pkt) out (head :: rest) := by
  have inserted := tracks.insert valid inWindow (pktGetTimestamp pkt)
  obtain ⟨found, member⟩ := exists_insertAt (absoluteNumber out.length pkt) pkt entries
  obtain ⟨head, rest, same⟩ := List.exists_cons_of_ne_nil (List.ne_nil_of_mem member)
  rw [same] at inserted
  exact ⟨head, rest, same, inserted⟩

/-! `write_in_sequence`, by the first packet of the list. -/

variable (sys : Sys) {head : Nat × Pkt} {rest : List (Nat × Pkt)}

theorem Tracks.writeInSequence_eq (tracks : Tracks r out (head :: rest)) :
    writeInSequence sys r =
      if (pktGetSeqnum head.2 : Int) > r.waitedSeqnum then (1, r)
      else writeInSequenceLoop sys ((head :: rest).map Prod.snd) r := by
  simp only [writeInSequence, tracks.list, List.map_cons]

theorem Tracks.afterSequence_ahead (tracks : Tracks r out (head :: rest))
    (ahead : (pktGetSeqnum head.2 : Int) > r.waitedSeqnum) :
    afterSequence sys (writeInSequence sys r) =
      (0, { r with sent := r.sent ++
        [ackEntry sys r.written.length r.windowSize.toNat r.lastTimestamp] }) := by
  rw [tracks.writeInSequence_eq, if_pos ahead, afterSequence_waiting,
    sendAck_waited sys tracks.window tracks.waited_written]

/-! The accepted packet. -/

theorem Advanced.of_taken {pkt : Pkt} {new : List Pkt} {after : Receiver}
    (advanced : Advanced sys (taken r pkt) new after) : Advanced sys r new after :=
  ⟨advanced.written, advanced.writeCalls, advanced.windowSize⟩

theorem afterSequence_succeeds {result : Int × Receiver} (succeeded : result.1 ≠ -1) :
    (afterSequence sys result).1 ≠ -1 := by
  rw [afterSequence, if_neg succeeded]
  split_ifs <;> simp

theorem Tracks.accepted_succeeds (listed : Tracks r out (head :: rest))
    (writes : sys.WritesFrom r.writeCalls) :
    (afterSequence sys (writeInSequence sys r)).1 ≠ -1 := by
  apply afterSequence_succeeds
  rw [listed.writeInSequence_eq]
  split
  · simp
  · exact (writeInSequenceLoop_advances listed writes).1

theorem Tracks.accepted_advances (listed : Tracks r out (head :: rest))
    (writes : sys.WritesFrom r.writeCalls)
    (nonempty : ∀ entry ∈ head :: rest, pktGetLength entry.2 ≠ 0) :
    (afterSequence sys (writeInSequence sys r)).1 = 0 ∧
      ∃ new, (drain out (head :: rest)).1 = out ++ new ∧
        Advanced sys r new (afterSequence sys (writeInSequence sys r)).2 := by
  by_cases ahead : (pktGetSeqnum head.2 : Int) > r.waitedSeqnum
  · have notDue : head.1 ≠ out.length := mt listed.head_due_iff.mpr (ne_of_gt ahead)
    obtain ⟨written, writeCalls, windowSize⟩ := Advanced.refl sys listed.window
    rw [listed.afterSequence_ahead sys ahead, drain, if_neg notDue]
    exact ⟨rfl, [], (List.append_nil out).symm, written, writeCalls, windowSize⟩
  · obtain ⟨out', rest', drained⟩ := writeInSequenceLoop_drains sys listed
    obtain ⟨succeeded, advances⟩ := writeInSequenceLoop_advances listed writes
    rw [listed.writeInSequence_eq, if_neg ahead]
    generalize writeInSequenceLoop sys ((head :: rest).map Prod.snd) r = result at *
    obtain ⟨code, after⟩ := result
    rcases drained.ended with rfl | failed | ⟨_, entry, member, empty⟩
    · exact ⟨rfl, advances (by simp)⟩
    · exact absurd failed succeeded
    · exact absurd empty (nonempty entry member)

end

section

variable {sys : Sys} {r : Receiver} {out : List Pkt} {entries : List (Nat × Pkt)} {arrival : Arrival}
  {pkt : Pkt}

theorem Brings.read_accepted (brings : Brings sys arrival pkt) (accepts : r.Accepts pkt) :
    readToListR sys r arrival.1 arrival.2 = afterSequence sys (writeInSequence sys (taken r pkt)) := by
  rw [brings.read]
  exact readPacketR_accepted sys brings.valid accepts.data accepts.whole accepts.inWindow

theorem Brings.accepted (brings : Brings sys arrival pkt) (tracks : Tracks r out entries)
    (accepts : r.Accepts pkt) :
    ∃ out' rest, Accepted sys r out entries pkt (readToListR sys r arrival.1 arrival.2).1
      (readToListR sys r arrival.1 arrival.2).2 out' rest :=
  afterSequence_accepted sys tracks brings.valid accepts.inWindow (brings.read_accepted accepts)

theorem receive_settles (tracks : Tracks r out entries) (brings : Brings sys arrival pkt)
    (accepts : r.Accepts pkt) (writes : sys.WritesFrom r.writeCalls) :
    Tracks (receive sys r arrival)
      (drain out (insertAt (absoluteNumber out.length pkt) pkt entries)).1
      (drain out (insertAt (absoluteNumber out.length pkt) pkt entries)).2 := by
  obtain ⟨head, rest, same, listed⟩ := tracks.insertHead brings.valid accepts.inWindow
  have succeeded := listed.accepted_succeeds sys writes
  obtain ⟨out', rest', accepted⟩ := brings.accepted tracks accepts
  rw [← brings.read_accepted accepts] at succeeded
  obtain ⟨rfl, rfl⟩ := Prod.mk.inj (accepted.whole succeeded)
  exact accepted.tracks

theorem receive_advances (tracks : Tracks r out entries) (brings : Brings sys arrival pkt)
    (accepts : r.Accepts pkt) (writes : sys.WritesFrom r.writeCalls)
    (nonempty : ∀ entry ∈ entries, pktGetLength entry.2 ≠ 0) (nonemptyPkt : pktGetLength pkt ≠ 0) :
    ∃ new, (drain out (insertAt (absoluteNumber out.length pkt) pkt entries)).1 = out ++ new ∧
      Advanced sys r new (receive sys r arrival) := by
  obtain ⟨head, rest, same, listed⟩ := tracks.insertHead brings.valid accepts.inWindow
  have allNonempty : ∀ entry ∈ head :: rest, pktGetLength entry.2 ≠ 0 := by
    intro entry member
    rw [← same] at member
    rcases insertAt_number_mem _ _ _ entry member with rfl | old
    · exact nonemptyPkt
    · exact nonempty entry old
  obtain ⟨_, new, drained, advanced⟩ := listed.accepted_advances sys writes allNonempty
  rw [receive, brings.read_accepted accepts, same]
  exact ⟨new, drained, advanced.of_taken sys⟩

end

/-! Packets in order. -/

def inOrderFeed (sys : Sys) (count : Nat) : List Arrival :=
  (List.range count).map fun number => intact sys (dataPkt number [0x61] 0)

theorem inOrderFeed_succ (sys : Sys) (count : Nat) :
    inOrderFeed sys (count + 1) =
      inOrderFeed sys count ++ [intact sys (dataPkt count [0x61] 0)] := by
  rw [inOrderFeed, List.range_succ, List.map_append]
  rfl

theorem fed_inOrder {sys : Sys} (writesAll : sys.WritesAll) (count : Nat) :
    (fed sys (inOrderFeed sys count)).windowSize = min 31 (1 + count) ∧
      ∃ out, out.length = count ∧ Tracks (fed sys (inOrderFeed sys count)) out [] := by
  induction count with
  | zero => exact ⟨rfl, [], rfl, init_tracks⟩
  | succ count ih =>
      obtain ⟨window, out, size, tracks⟩ := ih
      have short : [(0x61 : Byte)].length ≤ 512 := by decide
      have brings := brings_intact sys (dataPkt_valid short count 0)
      have seqnum : pktGetSeqnum (decodedPkt sys.crc32 (dataPkt count [0x61] 0)) = count % 256 :=
        dataPkt_getSeqnum count [0x61] 0
      have nonempty : pktGetLength (decodedPkt sys.crc32 (dataPkt count [0x61] 0)) ≠ 0 :=
        Nat.one_ne_zero
      have whole : pktGetTr (decodedPkt sys.crc32 (dataPkt count [0x61] 0)) ≠ 1 := Nat.zero_ne_one
      have inWindow : (fed sys (inOrderFeed sys count)).checkInWindow
          (pktGetSeqnum (decodedPkt sys.crc32 (dataPkt count [0x61] 0))) = true := by
        apply tracks.inTurn_inWindow
        rw [seqnum, tracks.written_length, size]
      have writes := writesAll.writesFrom (fed sys (inOrderFeed sys count)).writeCalls
      have number : absoluteNumber out.length (decodedPkt sys.crc32 (dataPkt count [0x61] 0)) =
          out.length := by
        apply absoluteNumber_of_le (Nat.le_refl _) (by omega)
        rw [seqnum, size]
      have settled := receive_settles tracks brings ⟨rfl, whole, inWindow⟩ writes
      obtain ⟨new, drained, advanced⟩ := receive_advances tracks brings ⟨rfl, whole, inWindow⟩ writes
        (List.forall_mem_nil _) nonempty
      rw [number, insertAt, drain, if_pos rfl, drain] at drained settled
      obtain rfl := List.append_cancel_left drained
      rw [inOrderFeed_succ, fed_concat]
      refine ⟨?_, _, ?_, settled⟩
      · rw [advanced.windowSize, window, List.length_singleton]
        omega
      · rw [List.length_append, size, List.length_singleton]

end SelectiveRepeat
