import SelectiveRepeat.JointSafety

/-! Progress: in every reachable state with outstanding chunks, the oldest one that is
due is sent again, the receiver answers it, and the answer takes it off the list. -/

namespace SelectiveRepeat

open Bytes Circle Reassembly

def Confirms (sys : Sys) (reads : List (List Byte)) (base : Nat) (entry : Nat × Datagram) : Prop :=
  ∃ number window timestamp, entry = ackEntry sys number window timestamp ∧
    base < number ∧ number ≤ reads.length

theorem Confirms.shrinks {sys : Sys} {s : Sender} {base : Nat} {entry : Nat × Datagram}
    (confirms : Confirms sys s.reads base entry) (chunks : ChunksValid s.reads)
    (outstanding : Outstanding s.reads base s.list) (size : s.list.length ≤ 31) (stale : Memory) :
    (checkAck sys s (some entry.2) stale).2.list.length < s.list.length := by
  obtain ⟨number, window, timestamp, rfl, ahead, read⟩ := confirms
  have length := outstanding.length
  have decodes := decodes_packetBytes sys
    (controlPkt_valid (show 1 ≤ ptypeAck by decide) (by decide) number window timestamp) stale
  have seqnum : pktGetSeqnum (decodedPkt sys.crc32 (controlPkt ptypeAck number window timestamp)) =
      number % 256 := controlPkt_getSeqnum ptypeAck number window timestamp
  obtain ⟨base', rest, checked, kept, le, removed, stopped, _⟩ := packetCheckedLoop_outstanding chunks
    s.seqnumEOF (pktGetSeqnum (decodedPkt sys.crc32 (controlPkt ptypeAck number window timestamp)))
    outstanding
  have keptLength := kept.length
  have last := acks_exactly seqnum le (by omega) (show s.reads.length ≤ base + 31 by omega) read
    (by omega) removed stopped
  have result := checkAck_ack decodes Nat.zero_ne_one rfl checked
  rw [ackEntry, result]
  show rest.length < s.list.length
  omega

theorem checkTimeoutLoop_due {sys : Sys} {aLo : BitVec 32} {first : Int} {size : Nat} {s : Sender}
    {number : Nat} {chunk : List Byte} {timestamp : BitVec 32} {runner : List Pkt}
    (valid : 1 ≤ chunk.length ∧ chunk.length ≤ 512)
    (inside : s.checkInWindow (pktGetSeqnum (dataPkt number chunk timestamp)) first = true)
    (late : (aLo - timestamp).toNat ≥ retransmissionTimer) {code : Int} {rest : List Pkt}
    {after : Sender} (loop : checkTimeoutLoop sys aLo first size runner
      (transmitted sys s (dataPkt number chunk (sys.time s.timeCalls))) = (code, rest, after)) :
    checkTimeoutLoop sys aLo first size (dataPkt number chunk timestamp :: runner) s =
      (code, dataPkt number chunk (sys.time s.timeCalls) :: rest, after) := by
  have nonempty : ¬pktGetLength (dataPkt number chunk timestamp) = 0 :=
    dataPkt_nonempty valid number timestamp
  have stamp : pktGetTimestamp (dataPkt number chunk timestamp) = timestamp := rfl
  simp only [checkTimeoutLoop, inside, not_true_eq_false, if_false, nonempty, false_and, stamp,
    if_pos late, sendPacket_dataPkt sys s number valid.2, loop]

theorem checkTimeout_resends {sys : Sys} {s : Sender} {base : Nat} {chunk : List Byte}
    {timestamp : BitVec 32} {next : List Pkt} (chunks : ChunksValid s.reads)
    (found : s.reads[base]? = some chunk) (outstanding : Outstanding s.reads (base + 1) next)
    (near : s.reads.length ≤ base + 31) (window : 1 ≤ s.windowSize)
    (nodes : s.list = dataPkt base chunk timestamp :: next)
    (late : (sys.time s.timeCalls - timestamp).toNat ≥ retransmissionTimer) :
    ∃ later, (checkTimeout sys s).2.sent = s.sent ++
      (if sys.send s.sendCalls then [(s.reads.length, packetBytes sys.crc32
        (dataPkt base chunk (sys.time (s.timeCalls + 1))))] else []) ++ later := by
  have inside : (ticked s).checkInWindow (pktGetSeqnum (dataPkt base chunk timestamp))
      (pktGetSeqnum (dataPkt base chunk timestamp)) = true := by
    rw [Sender.checkInWindow, if_pos (Int.le_refl _), decide_eq_true_eq, Int.sub_self]
    show 0 ≤ s.windowSize - 1
    omega
  obtain ⟨rest, after, loop, retransmits⟩ := checkTimeoutLoop_retransmits
    (s := transmitted sys (ticked s) (dataPkt base chunk (sys.time (s.timeCalls + 1)))) sys
    (sys.time s.timeCalls) (pktGetSeqnum (dataPkt base chunk timestamp))
    (dataPkt base chunk timestamp :: next).length chunks outstanding
  obtain ⟨later, sent, _⟩ := (retransmits.resends (Nat.le_trans near (by omega))).sent
  have copied : (transmitted sys (ticked s) (dataPkt base chunk (sys.time (s.timeCalls + 1)))).sent =
      s.sent ++ (if sys.send s.sendCalls then [(s.reads.length, packetBytes sys.crc32
        (dataPkt base chunk (sys.time (s.timeCalls + 1))))] else []) := by
    by_cases sends : sys.send s.sendCalls = true <;> simp [transmitted, ticked, sends]
  rw [checkTimeout_cons nodes (checkTimeoutLoop_due (chunks.get found) inside late loop)]
  exact ⟨later, by rw [← copied]; exact sent⟩

theorem checkTimeout_kept (sys : Sys) {s : Sender} {base : Nat} (chunks : ChunksValid s.reads)
    (outstanding : Outstanding s.reads base s.list) :
    (checkTimeout sys s).2.reads = s.reads ∧ Outstanding s.reads base (checkTimeout sys s).2.list := by
  obtain ⟨list', after, result, retransmits⟩ := checkTimeout_retransmits sys chunks outstanding
  have reads : after.reads = s.reads := by
    rw [retransmits.same]
    rfl
  rw [result]
  exact ⟨reads, retransmits.outstanding outstanding⟩

/-! The answer of the receiver. -/

section

variable {sys : Sys} {input : List Byte} {joint : Joint}

theorem JointValid.nonempty (valid : JointValid sys input joint)
    (running : joint.sender.stage ≠ .returned 0) {number : Nat} {pkt : Pkt} (pktValid : pkt.Valid)
    (sent : joint.sender.transfers[number]? = some (pktGetPayload pkt)) : pktGetLength pkt ≠ 0 := by
  rw [transfers_of_running running] at sent
  have low := ((valid.sender.running running).chunks.get sent).1
  rw [pktValid.getPayload_length] at low
  omega

theorem JointValid.last_answer (valid : JointValid sys input joint) {base : Nat} {after : Receiver}
    (grows : Grows sys joint.receiver.state after) (lastAck : LastAck sys after)
    (more : joint.receiver.state.written.length < after.written.length)
    (behind : base ≤ joint.receiver.state.written.length)
    (read : after.written.length ≤ joint.sender.state.reads.length) :
    ∃ answers answer, after.sent = joint.receiver.state.sent ++ answers ++ [answer] ∧
      Confirms sys joint.sender.state.reads base answer := by
  obtain ⟨answers, sent, _⟩ := grows.sent
  have confirms : Confirms sys joint.sender.state.reads base
      (ackEntry sys after.written.length after.windowSize.toNat after.lastTimestamp) :=
    ⟨_, _, _, rfl, by omega, read⟩
  rw [LastAck] at lastAck
  cases answers using List.reverseRecOn with
  | nil =>
      rw [List.append_nil] at sent
      rw [sent] at lastAck
      obtain ⟨_, _, _, _, _, _, _, old, _⟩ := valid.answers _ (List.mem_of_getLast? lastAck)
      exact absurd old (Nat.not_le.mpr more)
  | append_singleton answers answer =>
      rw [← List.append_assoc] at sent
      rw [sent, List.getLast?_concat, Option.some_inj] at lastAck
      exact ⟨answers, answer, sent, lastAck ▸ confirms⟩

theorem JointValid.answers_inTurn (valid : JointValid sys input joint)
    (running : joint.sender.stage ≠ .returned 0) {out : List Pkt} {entries : List (Nat × Pkt)}
    (tracks : Tracks joint.receiver.state out entries)
    (transfers : ∀ number pkt, Has out entries number pkt →
      joint.sender.transfers[number]? = some (pktGetPayload pkt)) {pkt : Pkt}
    (nonempty : pktGetLength pkt ≠ 0) (inTurn : absoluteNumber out.length pkt = out.length)
    {code : Int} {after : Receiver} {out' : List Pkt} {rest : List (Nat × Pkt)}
    (accepted : Accepted sys joint.receiver.state out entries pkt code after out' rest)
    (read : after.written.length ≤ joint.sender.state.reads.length) :
    after.sent = joint.receiver.state.sent ∧ WriteFails sys joint.receiver.state ∨
      ∃ answers answer, after.sent = joint.receiver.state.sent ++ answers ++ [answer] ∧
        Confirms sys joint.sender.state.reads joint.receiver.state.written.length answer := by
  have written := accepted.tracks.written_length
  have before := tracks.written_length
  rcases accepted.starts with more | stopped | failed
  · right
    have goes : code ≠ -2 := by
      rcases accepted.ended with zero | failed | ⟨_, empty | ⟨entry, held, empty⟩⟩
      · omega
      · omega
      · exact absurd empty nonempty
      · exact absurd empty (valid.nonempty running (tracks.valid entry held)
          (transfers entry.1 entry.2 (Or.inr held)))
    exact valid.last_answer accepted.grows (accepted.lastAck goes more) (by omega) (Nat.le_refl _) read
  · have moves := drain_insertAt_lt out pkt fun entry held => (tracks.arc entry held).1
    rw [inTurn] at stopped
    rw [stopped] at moves
    exact absurd moves (Nat.lt_irrefl _)
  · exact Or.inl failed

theorem JointValid.answers_copy (valid : JointValid sys input joint)
    (running : joint.sender.stage ≠ .returned 0) {base : Nat} {pkt : Pkt} (pktValid : pkt.Valid)
    (carries : Carries joint.sender base pkt) (waiting : base < joint.sender.state.reads.length)
    (near : joint.sender.state.reads.length ≤ base + 31)
    (behind : base ≤ joint.receiver.state.written.length) :
    (readPacketR sys joint.receiver.state pkt).2.sent = joint.receiver.state.sent ∧
        WriteFails sys joint.receiver.state ∨
      ∃ answers answer, (readPacketR sys joint.receiver.state pkt).2.sent =
          joint.receiver.state.sent ++ answers ++ [answer] ∧
        Confirms sys joint.sender.state.reads base answer := by
  obtain ⟨out, entries, tracks, transfers, payloads⟩ := valid.receiver
  have nonempty := valid.nonempty running pktValid carries.payload
  have ahead := valid.arc.2
  rw [transfers_of_running running] at ahead
  have number : joint.receiver.state.checkInWindow (pktGetSeqnum pkt) = true →
      absoluteNumber out.length pkt = base := by
    rw [← tracks.written_length]
    exact valid.accepted_number carries.seqnum (Nat.le_of_lt waiting) (by omega)
  have outcome := readPacketR_outcome sys tracks pktValid
  have lands : pktGetTr pkt ≠ 1 → joint.receiver.state.checkInWindow (pktGetSeqnum pkt) = true →
      joint.sender.transfers[absoluteNumber out.length pkt]? = some (pktGetPayload pkt) := by
    intro _ inWindow
    rw [number inWindow]
    exact carries.payload
  have next : JointValid sys input
      { joint with receiver := ⟨(readPacketR sys joint.receiver.state pkt).2, none⟩ } :=
    valid.takes_packet tracks transfers payloads outcome lands
  have read := next.arc.2
  rw [transfers_of_running running] at read
  dsimp only at read
  generalize readPacketR sys joint.receiver.state pkt = result at outcome read
  obtain ⟨code, after⟩ := result
  cases outcome with
  | notData notData => exact absurd carries.type notData
  | truncated _ cut => exact absurd cut carries.whole
  | closed _ _ _ empty => exact absurd empty nonempty
  | outOfWindow _ _ outside _ =>
      right
      refine ⟨[], _, by rw [List.append_nil], _, _, _, rfl, ?_, ahead⟩
      refine Nat.lt_of_le_of_ne behind fun due => ?_
      have low := tracks.window.low
      rw [carries.seqnum, due, ← Bool.not_eq_true, Receiver.checkInWindow_iff tracks.waited_written
        (Nat.le_refl _) (by omega)] at outside
      omega
  | accepted _ _ inWindow accepted =>
      have due := number inWindow
      have low := (absoluteNumber_bounds out.length pkt).1
      have written := tracks.written_length
      obtain rfl : base = joint.receiver.state.written.length := by omega
      exact valid.answers_inTurn running tracks transfers nonempty (due.trans written) accepted read

end

/-- Whenever chunks are outstanding and the timer of the oldest one has run out, `check_timeout`
sends it again; if that copy arrives, the receiver answers it unless its `write` fails; and if the
last answer arrives, the list of the sender is shorter. -/
theorem head_acknowledged {sys : Sys} {input : List Byte} {joint : Joint}
    (reached : JointReachable sys input joint) {head : Pkt} {next : List Pkt}
    (nodes : joint.sender.state.list = head :: next)
    (late : (sys.time joint.sender.state.timeCalls - pktGetTimestamp head).toNat ≥
      retransmissionTimer) :
    let s := joint.sender.state
    let r := joint.receiver.state
    let copy := packetBytes sys.crc32 (pktSetTimestamp head (sys.time (s.timeCalls + 1))).2
    (∃ later, (checkTimeout sys s).2.sent =
        s.sent ++ (if sys.send s.sendCalls then [(s.reads.length, copy)] else []) ++ later) ∧
      ∀ stale,
        ((∀ count, sys.write r.writeCalls count ≠ none) → ∃ answers answer,
          (readToListR sys r (some copy) stale).2.sent = r.sent ++ answers ++ [answer]) ∧
        ∀ answers answer,
          (readToListR sys r (some copy) stale).2.sent = r.sent ++ answers ++ [answer] →
            ∀ stale, (checkAck sys (checkTimeout sys s).2 (some answer.2) stale).2.list.length <
              s.list.length := by
  have valid := jointReachable_valid reached
  have running : joint.sender.stage ≠ .returned 0 := by
    intro finished
    have sender := valid.sender
    rw [SenderProcess.Valid, if_pos finished] at sender
    exact List.cons_ne_nil _ _ (nodes.symm.trans sender.list)
  have inLoop := valid.sender.running running
  obtain ⟨base, outstanding⟩ := inLoop.outstanding
  have length := outstanding.length
  have size := inLoop.size
  have acknowledged := valid.acknowledged
  have still := (checkTimeout_valid inLoop).2
  obtain ⟨sameReads, kept⟩ := checkTimeout_kept sys inLoop.chunks outstanding
  rw [nodes] at outstanding
  obtain ⟨⟨chunk, timestamp, found, rfl⟩, rest⟩ := outstanding
  have short := (inLoop.chunks.get found).2
  have waiting := (List.getElem?_eq_some_iff.mp found).1
  refine ⟨checkTimeout_resends inLoop.chunks found rest (by omega) valid.window nodes late,
    fun stale => ?_⟩
  have decodes := decodes_packetBytes sys
    (dataPkt_valid short base (sys.time (joint.sender.state.timeCalls + 1))) stale
  have sent : joint.sender.transfers[base]? = some chunk := by
    rw [transfers_of_running running, found]
  have carries : Carries joint.sender base (decodedPkt sys.crc32
      (dataPkt base chunk (sys.time (joint.sender.state.timeCalls + 1)))) :=
    carries_dataPkt sent short _
  have answered := valid.answers_copy running decodes.valid carries waiting (by omega) (by omega)
  rw [← readToListR_decodes decodes] at answered
  constructor
  · intro writes
    rcases answered with ⟨_, count, failed⟩ | ⟨answers, answer, sent, _⟩
    · exact absurd failed (writes count)
    · exact ⟨answers, answer, sent⟩
  · intro answers answer sent stale'
    rcases answered with ⟨silent, _⟩ | ⟨others, other, answeredWith, confirms⟩
    · have lengths := congrArg List.length (silent.symm.trans sent)
      simp at lengths
    · obtain rfl : other = answer :=
        List.singleton_inj.mp (List.append_inj' (answeredWith.symm.trans sent) rfl).2
      have sameLength := kept.length.trans length.symm
      rw [← sameReads] at confirms kept
      have shorter := confirms.shrinks still.chunks kept still.size stale'
      show _ < joint.sender.state.list.length
      omega

theorem firstRead_reachable : JointReachable Sys.faultless [0x61] (jointRun (firstArrival.take 1)) :=
  Runs.reachable_along ⟨trivial, trivial⟩

theorem head_acknowledged_first :
    let s := (jointRun (firstArrival.take 1)).sender.state
    let r := (jointRun (firstArrival.take 1)).receiver.state
    let copy := packetBytes Sys.faultless.crc32
      (pktSetTimestamp (dataPkt 0 [0x61] 0) (Sys.faultless.time (s.timeCalls + 1))).2
    ∃ answers answer,
      (readToListR Sys.faultless r (some copy) fun _ => 0).2.sent = r.sent ++ answers ++ [answer] ∧
        (checkAck Sys.faultless (checkTimeout Sys.faultless s).2 (some answer.2) fun _ => 0).2.list =
          [] := by
  have nodes : (jointRun (firstArrival.take 1)).sender.state.list = [dataPkt 0 [0x61] 0] := rfl
  obtain ⟨_, copied⟩ := head_acknowledged firstRead_reachable nodes (by decide +kernel)
  obtain ⟨answered, shorter⟩ := copied fun _ => 0
  obtain ⟨answers, answer, sent⟩ := answered fun count => Option.some_ne_none count
  have removed := shorter answers answer sent fun _ => 0
  rw [nodes] at removed
  exact ⟨answers, answer, sent, List.eq_nil_of_length_eq_zero (Nat.lt_one_iff.mp removed)⟩

end SelectiveRepeat
