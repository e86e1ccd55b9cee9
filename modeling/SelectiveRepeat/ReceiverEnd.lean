import SelectiveRepeat.ReceiverRuns

/-! The end of a transfer: when the receiver sees that the empty packet in turn is the
last one. -/

namespace SelectiveRepeat

open Bytes Circle Reassembly

def EndRecognised (sys : Sys) (process : ReceiverProcess) (datagram : Datagram) (stale : Memory) :
    Prop :=
  (readToListR sys process.state (some datagram) stale).1 = -2 ∧
    (processReceiver sys process (.readable (some datagram) stale)).returned = some 0

theorem endRecognised_of_running {sys : Sys} {process : ReceiverProcess}
    (running : process.returned = none) (datagram : Datagram) (stale : Memory) :
    EndRecognised sys process datagram stale ↔
      (readToListR sys process.state (some datagram) stale).1 = -2 := by
  refine and_iff_left_of_imp fun ended => ?_
  rw [processReceiver_readable sys running]
  exact if_pos ended

section

variable {sys : Sys} {r : Receiver} {out : List Pkt} {datagram : Datagram} {stale : Memory} {pkt : Pkt}

theorem Tracks.inTurn_waited {entries : List (Nat × Pkt)} (tracks : Tracks r out entries)
    (inTurn : pktGetSeqnum pkt = r.written.length % 256) :
    (pktGetSeqnum pkt : Int) = r.waitedSeqnum := by
  rw [tracks.waited_written, inTurn]

theorem Tracks.inTurn_inWindow {entries : List (Nat × Pkt)} (tracks : Tracks r out entries)
    (inTurn : pktGetSeqnum pkt = r.written.length % 256) :
    r.checkInWindow (pktGetSeqnum pkt) = true := by
  have low := tracks.window.low
  rw [inTurn, Receiver.checkInWindow_iff tracks.waited_written (Nat.le_refl _) (by omega)]
  left
  omega

/-- The end test at the only packet of the list: its seqnum is one less than the waited one unless
that has wrapped. -/
theorem Tracks.endOfTransfer_iff (tracks : Tracks r out []) (noPayload : pktGetLength pkt = 0)
    (inTurn : pktGetSeqnum pkt = r.written.length % 256) (timestamp : BitVec 32)
    (bytes : List Byte) :
    EndOfTransfer (delivered { r with lastTimestamp := timestamp, list := [pkt] } bytes) pkt ↔
      r.written.length % 256 ≠ 255 := by
  have waited := tracks.waited_written
  show 0 = 0 ∧ pktGetLength pkt = 0 ∧
    (pktGetSeqnum pkt : Int) = (r.waitedSeqnum + 1) % 256 - 1 ↔ _
  rw [waited, inTurn]
  constructor
  · rintro ⟨_, _, same⟩
    omega
  · intro notLast
    exact ⟨rfl, noPayload, by omega⟩

theorem readToListR_inTurn (tracks : Tracks r out []) (decodes : Decodes sys datagram stale pkt)
    (data : pktGetType pkt = ptypeData) (whole : pktGetTr pkt ≠ 1)
    (inTurn : pktGetSeqnum pkt = r.written.length % 256) :
    readToListR sys r (some datagram) stale = afterSequence sys (writeInSequenceLoop sys [pkt]
      { r with lastTimestamp := pktGetTimestamp pkt, list := [pkt] }) := by
  have waited := tracks.inTurn_waited inTurn
  have alone : addSpecificQueue r.list pkt = [pkt] := by
    rw [tracks.list]
    rfl
  have head : writeInSequence sys { r with lastTimestamp := pktGetTimestamp pkt, list := [pkt] } =
      writeInSequenceLoop sys [pkt]
        { r with lastTimestamp := pktGetTimestamp pkt, list := [pkt] } := by
    simp only [writeInSequence]
    rw [if_neg]
    rw [waited]
    exact lt_irrefl _
  rw [readToListR_decodes decodes,
    readPacketR_accepted sys decodes.valid data whole (tracks.inTurn_inWindow inTurn), alone, head]

theorem readToListR_end_iff (tracks : Tracks r out []) (decodes : Decodes sys datagram stale pkt)
    (data : pktGetType pkt = ptypeData) (whole : pktGetTr pkt ≠ 1)
    (noPayload : pktGetLength pkt = 0) (inTurn : pktGetSeqnum pkt = r.written.length % 256) :
    (readToListR sys r (some datagram) stale).1 = -2 ↔
      r.written.length % 256 ≠ 255 ∧ sys.write r.writeCalls 0 ≠ none := by
  have waited := tracks.inTurn_waited inTurn
  have ends := tracks.endOfTransfer_iff noPayload inTurn (pktGetTimestamp pkt)
  rw [readToListR_inTurn tracks decodes data whole inTurn, writeInSequenceLoop_cons, if_pos waited,
    noPayload]
  cases wrote : sys.write r.writeCalls 0 with
  | none => simp [afterSequence]
  | some writed =>
      dsimp only
      by_cases last : r.written.length % 256 = 255
      · rw [if_neg fun ended => (ends _).mp ended last]
        simp [writeInSequenceLoop, afterSequence, last]
      · rw [if_pos ((ends _).mpr last)]
        simp [afterSequence, last]

end

/-- The empty packet in turn ends the receiver unless the number of packets written is 255 modulo
256, where `waited_seqnum - 1` is -1 after the wrap. -/
theorem endRecognised_iff (sys : Sys) (events : List ReceiverEvent)
    (running : (receiverRun sys events).returned = none)
    (nothingLeft : (receiverRun sys events).state.list = [])
    {datagram : Datagram} {stale : Memory} {pkt : Pkt} (decodes : Decodes sys datagram stale pkt)
    (data : pktGetType pkt = ptypeData) (whole : pktGetTr pkt = 0)
    (noPayload : pktGetLength pkt = 0)
    (inTurn : pktGetSeqnum pkt = (receiverRun sys events).state.written.length % 256) :
    EndRecognised sys (receiverRun sys events) datagram stale ↔
      (receiverRun sys events).state.written.length % 256 ≠ 255 ∧
        sys.write (receiverRun sys events).state.writeCalls 0 ≠ none := by
  obtain ⟨out, entries, tracks⟩ := receiverRun_tracks sys events
  have empty : entries = [] := by
    have nodes := tracks.list
    rw [nothingLeft] at nodes
    exact List.map_eq_nil_iff.mp nodes.symm
  subst empty
  rw [endRecognised_of_running running]
  exact readToListR_end_iff tracks decodes data (by rw [whole]; decide) noPayload inTurn

/-! Transfers in order, of any length. -/

def inOrderArrivals (sys : Sys) (count : Nat) : List ReceiverEvent :=
  (List.range count).map fun number =>
    .readable (some (packetBytes sys.crc32 (dataPkt number [0x61] 0))) fun _ => 0

theorem readToListR_next {sys : Sys} (writesAll : sys.WritesAll) {r : Receiver} {out : List Pkt}
    (tracks : Tracks r out []) {datagram : Datagram} {stale : Memory} {pkt : Pkt}
    (decodes : Decodes sys datagram stale pkt) (data : pktGetType pkt = ptypeData)
    (whole : pktGetTr pkt ≠ 1) (nonempty : pktGetLength pkt ≠ 0)
    (inTurn : pktGetSeqnum pkt = r.written.length % 256) :
    (readToListR sys r (some datagram) stale).1 = 0 ∧
      Tracks (readToListR sys r (some datagram) stale).2 (out ++ [pkt]) [] := by
  have number : absoluteNumber out.length pkt = out.length := by
    apply absoluteNumber_of_le (Nat.le_refl _) (by omega)
    rw [inTurn, tracks.written_length]
  obtain ⟨out', rest, accepted⟩ := afterSequence_accepted sys tracks decodes.valid
    (tracks.inTurn_inWindow inTurn)
    (readPacketR_accepted sys decodes.valid data whole (tracks.inTurn_inWindow inTurn))
  have succeeded := accepted.succeeds writesAll
  have delivered : (out', rest) = (out ++ [pkt], []) := by
    rw [accepted.whole succeeded, number]
    simp [insertAt, drain]
  obtain ⟨rfl, rfl⟩ := Prod.mk.inj delivered
  rw [readToListR_decodes decodes]
  refine ⟨?_, accepted.tracks⟩
  rcases accepted.ended with zero | failed | ⟨_, empty | ⟨entry, member, _⟩⟩
  · exact zero
  · exact absurd failed succeeded
  · exact absurd empty nonempty
  · exact absurd member List.not_mem_nil

theorem inOrder_run {sys : Sys} (writesAll : sys.WritesAll) (count : Nat) :
    (receiverRun sys (inOrderArrivals sys count)).returned = none ∧
      ∃ out, out.length = count ∧
        Tracks (receiverRun sys (inOrderArrivals sys count)).state out [] := by
  induction count with
  | zero => exact ⟨rfl, [], rfl, init_tracks⟩
  | succ count ih =>
      obtain ⟨running, out, size, tracks⟩ := ih
      have short : [(0x61 : Byte)].length ≤ 512 := by decide
      have decodes := decodes_packetBytes sys (dataPkt_valid short count 0) fun _ => 0
      have inTurn : pktGetSeqnum (decodedPkt sys.crc32 (dataPkt count [0x61] 0)) =
          (receiverRun sys (inOrderArrivals sys count)).state.written.length % 256 := by
        rw [tracks.written_length, size]
        exact dataPkt_getSeqnum count [0x61] 0
      have whole : pktGetTr (decodedPkt sys.crc32 (dataPkt count [0x61] 0)) ≠ 1 := Nat.zero_ne_one
      have nonempty : pktGetLength (decodedPkt sys.crc32 (dataPkt count [0x61] 0)) ≠ 0 :=
        Nat.one_ne_zero
      obtain ⟨zero, next⟩ := readToListR_next writesAll tracks decodes rfl whole nonempty inTurn
      have arrivals : inOrderArrivals sys (count + 1) = inOrderArrivals sys count ++
          [.readable (some (packetBytes sys.crc32 (dataPkt count [0x61] 0))) fun _ => 0] := by
        rw [inOrderArrivals, List.range_succ, List.map_append]
        rfl
      rw [arrivals, receiverRun_concat, processReceiver_readable sys running, zero]
      exact ⟨rfl, out ++ [decodedPkt sys.crc32 (dataPkt count [0x61] 0)], by simp [size], next⟩

def endPkt (chunks : Nat) : Pkt := dataPkt chunks [] 0

theorem endPkt_valid (chunks : Nat) : (endPkt chunks).Valid :=
  dataPkt_valid (show ([] : List Byte).length ≤ 512 by decide) chunks 0

/-- After two chunks in order, the end of the file is recognised. -/
theorem endRecognised_iff_two :
    (receiverRun Sys.faultless (inOrderArrivals Sys.faultless 2)).state.written.length = 2 ∧
      EndRecognised Sys.faultless (receiverRun Sys.faultless (inOrderArrivals Sys.faultless 2))
        (packetBytes Sys.faultless.crc32 (endPkt 2)) fun _ => 0 := by
  obtain ⟨running, out, size, tracks⟩ := inOrder_run Sys.faultless_writesAll 2
  have written := tracks.written_length.trans size
  have decodes := decodes_packetBytes Sys.faultless (endPkt_valid 2) fun _ => 0
  have inTurn : pktGetSeqnum (decodedPkt Sys.faultless.crc32 (endPkt 2)) =
      (receiverRun Sys.faultless (inOrderArrivals Sys.faultless 2)).state.written.length % 256 := by
    rw [written]
    rfl
  refine ⟨written, (endRecognised_iff Sys.faultless (inOrderArrivals Sys.faultless 2) running
    tracks.list decodes rfl rfl rfl inTurn).mpr ⟨?_, ?_⟩⟩
  · rw [written]
    decide
  · exact Option.some_ne_none _

/-- After 255 chunks in order, the end of the file is written as if it were data. -/
theorem end_missed_after_255 :
    let process := receiverRun Sys.faultless (inOrderArrivals Sys.faultless 255)
    process.returned = none ∧ process.state.written.length = 255 ∧ process.state.list = [] ∧
      ¬EndRecognised Sys.faultless process (packetBytes Sys.faultless.crc32 (endPkt 255))
        (fun _ => 0) := by
  obtain ⟨running, out, size, tracks⟩ := inOrder_run Sys.faultless_writesAll 255
  have written := tracks.written_length.trans size
  have decodes := decodes_packetBytes Sys.faultless (endPkt_valid 255) fun _ => 0
  have inTurn : pktGetSeqnum (decodedPkt Sys.faultless.crc32 (endPkt 255)) =
      (receiverRun Sys.faultless (inOrderArrivals Sys.faultless 255)).state.written.length % 256 := by
    rw [written]
    rfl
  refine ⟨running, written, tracks.list, fun recognised => ?_⟩
  have notLast := (readToListR_end_iff tracks decodes rfl Nat.zero_ne_one rfl inTurn).mp recognised.1
  rw [written] at notLast
  exact notLast.1 rfl

end SelectiveRepeat
