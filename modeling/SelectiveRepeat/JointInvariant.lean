import SelectiveRepeat.Network

/-! The invariant of the two programs together: the receiver tracks nothing but what the
sender has sent, under its number, and the sender forgets nothing that the receiver has
not written. -/

namespace SelectiveRepeat

open Bytes Circle Reassembly

def TracksTransfers (sys : Sys) (joint : Joint) : Prop :=
  ∃ out entries, Tracks joint.receiver.state out entries ∧
    (∀ number pkt, Has out entries number pkt →
      joint.sender.transfers[number]? = some (pktGetPayload pkt)) ∧
    (sys.WritesAll → joint.receiver.state.written = out.map pktGetPayload)

structure JointValid (sys : Sys) (input : List Byte) (joint : Joint) : Prop where
  sender : joint.sender.Valid sys input
  receiver : TracksTransfers sys joint
  acknowledged : joint.sender.state.reads.length ≤
    joint.receiver.state.written.length + joint.sender.state.list.length
  window : 1 ≤ joint.sender.state.windowSize
  answers : ∀ entry ∈ joint.receiver.state.sent,
    Answer sys joint.receiver.state.written.length 31 entry

theorem init_jointValid (sys : Sys) (input : List Byte) : JointValid sys input (Joint.init input) where
  sender := (init_senderValid sys input).process (by decide)
  receiver := ⟨[], [], init_tracks, fun number pkt has => by
    rcases has with delivered | held
    · simp at delivered
    · exact absurd held List.not_mem_nil, fun _ => rfl⟩
  acknowledged := Nat.zero_le _
  window := Int.le_refl 1
  answers := List.forall_mem_nil _

theorem transfers_length (process : SenderProcess) :
    process.state.reads.length ≤ process.transfers.length ∧
      process.transfers.length ≤ process.state.reads.length + 1 := by
  rw [SenderProcess.transfers]
  split
  · rw [List.length_append, List.length_singleton]
    omega
  · omega

section

variable {sys : Sys} {input : List Byte} {joint : Joint}

theorem SenderProcess.Valid.list_length {process : SenderProcess} (valid : process.Valid sys input) :
    process.state.list.length ≤ 31 := by
  by_cases finished : process.stage = .returned 0
  · rw [SenderProcess.Valid, if_pos finished] at valid
    rw [valid.list]
    exact Nat.zero_le _
  · exact (valid.running finished).size

theorem JointValid.arc (valid : JointValid sys input joint) :
    joint.sender.state.reads.length ≤ joint.receiver.state.written.length + 31 ∧
      joint.receiver.state.written.length ≤ joint.sender.transfers.length := by
  obtain ⟨out, entries, tracks, transfers, _⟩ := valid.receiver
  have size := valid.sender.list_length
  have acknowledged := valid.acknowledged
  refine ⟨by omega, ?_⟩
  rw [tracks.written_length]
  cases out using List.reverseRecOn with
  | nil => exact Nat.zero_le _
  | append_singleton before last =>
      have found := transfers before.length last (Or.inl (by simp))
      have bound := (List.getElem?_eq_some_iff.mp found).1
      rw [List.length_append, List.length_singleton]
      omega

/-! Steps of the sender. -/

theorem JointValid.sender_step (valid : JointValid sys input joint) {process : SenderProcess}
    (kept : process.Valid sys input)
    (grows : ∀ (number : Nat) chunk, joint.sender.transfers[number]? = some chunk →
      process.transfers[number]? = some chunk)
    (acknowledged : process.state.reads.length ≤
      joint.receiver.state.written.length + process.state.list.length)
    (window : 1 ≤ process.state.windowSize) :
    JointValid sys input { joint with sender := process } := by
  obtain ⟨out, entries, tracks, transfers, payloads⟩ := valid.receiver
  exact
    { sender := kept
      receiver := ⟨out, entries, tracks, fun number pkt has =>
        grows number _ (transfers number pkt has), payloads⟩
      acknowledged
      window
      answers := valid.answers }

/-- What a step of the sender does to its window, unless an ACK arrives: at most one chunk more is
read and outstanding, and never more than the window allows. -/
structure Advances (s after : Sender) : Prop where
  windowSize : after.windowSize = s.windowSize
  chunks : ∃ more, after.reads = s.reads ++ more ∧
    after.list.length = s.list.length + more.length ∧
    (more = [] ∨ (after.list.length : Int) ≤ s.windowSize)

theorem Advances.refl (s : Sender) : Advances s s :=
  ⟨rfl, [], (List.append_nil _).symm, rfl, Or.inl rfl⟩

theorem SenderOutcome.advances {s after : Sender} {base : Nat} {stage stage' : SenderStage}
    {event : SenderEvent} (outcome : SenderOutcome sys s base stage event stage' after) :
    Advances s after ∨ ∃ datagram stale code, event = .socketReadable datagram stale ∧
      AckOutcome sys s base datagram stale code after := by
  have nothing : s.reads = s.reads ++ [] := (List.append_nil _).symm
  cases outcome with
  | rests _ _ => exact Or.inl (Advances.refl s)
  | answered outcome => exact Or.inr ⟨_, _, _, rfl, outcome⟩
  | readFailed => exact Or.inl ⟨rfl, [], nothing, rfl, Or.inl rfl⟩
  | endRead _ => exact Or.inl ⟨rfl, [], nothing, rfl, Or.inl rfl⟩
  | @chunkRead chunk rest _ room _ _ =>
      refine Or.inl ⟨rfl, [chunk], rfl, List.length_append, Or.inr ?_⟩
      show ((s.list ++ [_]).length : Int) ≤ s.windowSize
      rw [List.length_append, List.length_singleton]
      omega
  | finFailed _ _ _ => exact Or.inl ⟨rfl, [], nothing, rfl, Or.inl rfl⟩
  | finSent _ _ _ => exact Or.inl ⟨rfl, [], nothing, rfl, Or.inl rfl⟩
  | retransmits retransmits =>
      have same := retransmits.same
      refine Or.inl ⟨?_, [], ?_, retransmits.length, Or.inl rfl⟩
      · rw [same]
        rfl
      · rw [same]
        exact nothing

theorem processSender_cases {process : SenderProcess} (valid : process.Valid sys input)
    (event : SenderEvent) :
    Advances process.state (processSender sys process event).state ∨
      ∃ datagram stale base code, event = .socketReadable datagram stale ∧
        Outstanding process.state.reads base process.state.list ∧
        AckOutcome sys process.state base datagram stale code
          (processSender sys process event).state := by
  obtain ⟨base, outstanding, outcome⟩ := processSender_outcome sys valid event
  rcases outcome.advances with advances | ⟨datagram, stale, code, same, answered⟩
  · exact Or.inl advances
  · exact Or.inr ⟨datagram, stale, base, code, same, outstanding, answered⟩

theorem transfers_grow {process after : SenderProcess} (running : process.stage ≠ .returned 0)
    {more : List (List Byte)} (reads : after.state.reads = process.state.reads ++ more)
    {number : Nat} {chunk : List Byte} (found : process.transfers[number]? = some chunk) :
    after.transfers[number]? = some chunk := by
  rw [transfers_of_running running] at found
  have bound := (List.getElem?_eq_some_iff.mp found).1
  rw [SenderProcess.transfers, reads]
  split
  · rw [List.append_assoc, List.getElem?_append_left bound, found]
  · rw [List.getElem?_append_left bound, found]

/-! Answers that arrive. -/

structure Answered (pkt : Pkt) (written : Nat) (limit : Int) (entry : Nat × Datagram) : Prop where
  type : pktGetType pkt = datagramType entry.2
  whole : pktGetTr pkt ≠ 1
  window : 1 ≤ (pktGetWindow pkt : Int) ∧ (pktGetWindow pkt : Int) ≤ limit
  old : entry.1 ≤ written
  seqnum : pktGetType pkt = ptypeAck → pktGetSeqnum pkt = entry.1 % 256

theorem Answer.decodes {written : Nat} {limit : Int} {entry : Nat × Datagram}
    (answer : Answer sys written limit entry) (small : limit ≤ 31) {stale : Memory} {pkt : Pkt}
    (decodes : Decodes sys entry.2 stale pkt) : Answered pkt written limit entry := by
  obtain ⟨type, seqnum, window, timestamp, bytes, typed, ⟨low, high⟩, old, counted⟩ := answer
  rw [bytes] at decodes
  obtain rfl := (decodes_packetBytes sys (controlPkt_valid typed.1 typed.2 seqnum window timestamp)
    stale).unique decodes
  have getType := controlPkt_getType typed.2 seqnum window timestamp
  have getWindow := controlPkt_getWindow (show window ≤ 31 by omega) type seqnum timestamp
  refine ⟨?_, Nat.zero_ne_one, ?_, old, ?_⟩
  · rw [bytes, (packetBytes_fields _ _).1]
    rfl
  · show 1 ≤ (pktGetWindow (controlPkt type seqnum window timestamp) : Int) ∧
      (pktGetWindow (controlPkt type seqnum window timestamp) : Int) ≤ limit
    rw [getWindow]
    exact ⟨by exact_mod_cast low, high⟩
  · intro isAck
    have same : type = ptypeAck := getType.symm.trans isAck
    show pktGetSeqnum (controlPkt type seqnum window timestamp) = entry.1 % 256
    rw [controlPkt_getSeqnum, counted same]

/-- An ACK that is not too old removes the chunks written before it was sent, and no other. -/
theorem acks_exactly {base base' ack top : Nat} {seqnumAck : Nat} (seqnum : seqnumAck = ack % 256)
    (le : base ≤ base') (bound : base' ≤ top) (near : top ≤ base + 31) (counted : ack ≤ top)
    (recent : top < ack + 224)
    (removed : ∀ number, base ≤ number → number < base' → Acks seqnumAck number)
    (stopped : base' < top → ¬Acks seqnumAck base') : base' = max base ack := by
  have compares : ∀ number, base ≤ number → number < top → (Acks seqnumAck number ↔ number < ack) := by
    intro number low high
    rw [seqnum]
    exact acks_iff (by omega) (by omega)
  have upper : base' ≤ max base ack := by
    by_cases moved : base < base'
    · have last := (compares (base' - 1) (by omega) (by omega)).mp
        (removed (base' - 1) (by omega) (by omega))
      omega
    · omega
  have lower : max base ack ≤ base' := by
    by_cases more : base' < top
    · have notLess := mt (compares base' le more).mpr (stopped more)
      omega
    · omega
  omega

theorem JointValid.takes_answer (valid : JointValid sys input joint)
    (running : joint.sender.stage ≠ .returned 0) {base : Nat}
    (outstanding : Outstanding joint.sender.state.reads base joint.sender.state.list)
    {arrived : Option Datagram} {stale : Memory} {code : Int} {after : Sender}
    (outcome : AckOutcome sys joint.sender.state base arrived stale code after)
    (permitted : ∀ datagram, arrived = some datagram →
      (∃ entry ∈ joint.receiver.state.sent, AnswerInTime joint entry ∧ datagram = entry.2) ∨
        ∀ pkt, ¬Decodes sys datagram stale pkt) :
    after.reads.length ≤ joint.receiver.state.written.length + after.list.length ∧
      1 ≤ after.windowSize := by
  have length := outstanding.length
  have acknowledged := valid.acknowledged
  obtain ⟨near, ahead⟩ := valid.arc
  rw [transfers_of_running running] at ahead
  have size := valid.sender.list_length
  cases outcome with
  | dropped => exact ⟨acknowledged, valid.window⟩
  | @removed datagram pkt base' rest arrival decodes isAck kept le removed stopped _ =>
      rcases permitted datagram arrival with ⟨entry, sent, inTime, rfl⟩ | rejected
      · have answered := (valid.answers entry sent).decodes (Int.le_refl 31) decodes
        have old := answered.old
        have recent := inTime (answered.type.symm.trans isAck)
        have keptLength := kept.length
        have exact_ := acks_exactly (answered.seqnum isAck) le (by omega) (by omega)
          (show entry.1 ≤ joint.sender.state.reads.length by omega) (by omega) removed stopped
        refine ⟨?_, answered.window.1⟩
        show joint.sender.state.reads.length ≤ joint.receiver.state.written.length + rest.length
        omega
      · exact absurd decodes (rejected pkt)
  | @windowOnly datagram pkt code arrival decodes notAck dead =>
      refine ⟨acknowledged, ?_⟩
      rcases permitted datagram arrival with ⟨entry, sent, inTime, rfl⟩ | rejected
      · have answered := (valid.answers entry sent).decodes (Int.le_refl 31) decodes
        exact answered.window.1
      · exact absurd decodes (rejected pkt)

theorem processSender_finished {process : SenderProcess} (finished : process.stage = .returned 0)
    (event : SenderEvent) : processSender sys process event = process := by
  obtain ⟨s, stage⟩ := process
  obtain rfl : stage = .returned 0 := finished
  rfl

theorem AckOutcome.reads {s after : Sender} {base : Nat} {arrived : Option Datagram} {stale : Memory}
    {code : Int} (outcome : AckOutcome sys s base arrived stale code after) :
    after.reads = s.reads := by
  cases outcome <;> rfl

theorem JointValid.step_sender (valid : JointValid sys input joint) {event : SenderEvent}
    (permitted : Permitted sys joint (.sender event)) :
    JointValid sys input (jointStep sys joint (.sender event)) := by
  have kept := (processSender_valid sys valid.sender event).1
  by_cases finished : joint.sender.stage = .returned 0
  · rw [jointStep, processSender_finished finished]
    exact valid
  have acknowledged := valid.acknowledged
  rcases processSender_cases valid.sender event with
    ⟨windowSize, more, reads, length, _⟩ | ⟨arrived, stale, base, code, rfl, outstanding, outcome⟩
  · refine valid.sender_step kept (fun number chunk => transfers_grow finished reads) ?_ ?_
    · rw [reads, List.length_append]
      omega
    · rw [windowSize]
      exact valid.window
  · have reads := outcome.reads.trans (List.append_nil _).symm
    have arrives : ∀ datagram, arrived = some datagram →
        (∃ entry ∈ joint.receiver.state.sent, AnswerInTime joint entry ∧ datagram = entry.2) ∨
          ∀ pkt, ¬Decodes sys datagram stale pkt := by
      rintro datagram rfl
      exact permitted
    obtain ⟨still, window⟩ := valid.takes_answer finished outstanding outcome arrives
    exact valid.sender_step kept (fun number chunk => transfers_grow finished reads) still window

/-! Steps of the receiver. -/

theorem JointValid.receiver_step (valid : JointValid sys input joint) {process : ReceiverProcess}
    (tracks : TracksTransfers sys { joint with receiver := process })
    (more : joint.receiver.state.written.length ≤ process.state.written.length)
    (answers : ∀ entry ∈ process.state.sent, Answer sys process.state.written.length 31 entry) :
    JointValid sys input { joint with receiver := process } where
  sender := valid.sender
  receiver := tracks
  acknowledged := valid.acknowledged.trans (Nat.add_le_add_right more _)
  window := valid.window
  answers

structure Carries (process : SenderProcess) (number : Nat) (pkt : Pkt) : Prop where
  type : pktGetType pkt = ptypeData
  whole : pktGetTr pkt ≠ 1
  seqnum : pktGetSeqnum pkt = number % 256
  payload : process.transfers[number]? = some (pktGetPayload pkt)

theorem carries_dataPkt {process : SenderProcess} {number : Nat} {chunk : List Byte}
    (found : process.transfers[number]? = some chunk) (short : chunk.length ≤ 512)
    (timestamp : BitVec 32) :
    Carries process number (decodedPkt sys.crc32 (dataPkt number chunk timestamp)) where
  type := rfl
  whole := Nat.zero_ne_one
  seqnum := dataPkt_getSeqnum number chunk timestamp
  payload := by rw [decodedPkt_getPayload, dataPkt_getPayload short, found]

theorem Transfers.decodes {process : SenderProcess} {entry : Nat × Datagram}
    (transfers : Transfers sys process entry) (stale : Memory) :
    ∃ pkt, Decodes sys entry.2 stale pkt ∧ Carries process (chunkNumber entry) pkt := by
  obtain ⟨number, chunk, timestamp, found, short, bytes, le, near, _⟩ := transfers
  rw [chunkNumber_eq sys bytes le near, bytes]
  exact ⟨_, decodes_packetBytes sys (dataPkt_valid short number timestamp) stale,
    carries_dataPkt found short timestamp⟩

theorem Transfers.number_le {process : SenderProcess} {entry : Nat × Datagram}
    (transfers : Transfers sys process entry) : chunkNumber entry ≤ process.state.reads.length := by
  obtain ⟨number, chunk, timestamp, _, _, bytes, le, near, bound⟩ := transfers
  rw [chunkNumber_eq sys bytes le near]
  omega

/-- Within the lifetime of a datagram, `check_in_window` admits its packet only under its own
number. -/
theorem JointValid.accepted_number (valid : JointValid sys input joint) {number : Nat} {pkt : Pkt}
    (seqnum : pktGetSeqnum pkt = number % 256) (bound : number ≤ joint.sender.state.reads.length)
    (inTime : joint.sender.state.reads.length - (number + 1) < 128)
    (inWindow : joint.receiver.state.checkInWindow (pktGetSeqnum pkt) = true) :
    absoluteNumber joint.receiver.state.written.length pkt = number := by
  obtain ⟨out, entries, tracks, _⟩ := valid.receiver
  obtain ⟨near, ahead⟩ := valid.arc
  have transfers := (transfers_length joint.sender).2
  by_cases due : joint.receiver.state.written.length ≤ number
  · exact absoluteNumber_of_le due (by omega) seqnum
  · obtain ⟨low, high⟩ := absoluteNumber_bounds joint.receiver.state.written.length pkt
    have residue := absoluteNumber_mod joint.receiver.state.written.length pkt
    rw [← residue] at inWindow
    have close := (Receiver.checkInWindow_iff tracks.waited_written low high).mp inWindow
    have window := tracks.window.high
    omega

theorem JointValid.takes_packet (valid : JointValid sys input joint) {out : List Pkt}
    {entries : List (Nat × Pkt)} (tracks : Tracks joint.receiver.state out entries)
    (transfers : ∀ number pkt, Has out entries number pkt →
      joint.sender.transfers[number]? = some (pktGetPayload pkt))
    (payloads : sys.WritesAll → joint.receiver.state.written = out.map pktGetPayload) {pkt : Pkt}
    {code : Int} {process : ReceiverProcess}
    (outcome : Outcome sys joint.receiver.state out entries pkt code process.state)
    (lands : pktGetTr pkt ≠ 1 → joint.receiver.state.checkInWindow (pktGetSeqnum pkt) = true →
      joint.sender.transfers[absoluteNumber out.length pkt]? = some (pktGetPayload pkt)) :
    JointValid sys input { joint with receiver := process } := by
  have old := valid.answers
  obtain ⟨after, returned⟩ := process
  dsimp only at outcome
  cases outcome with
  | notData _ =>
      exact valid.receiver_step ⟨out, entries, tracks, transfers, payloads⟩ (Nat.le_refl _) old
  | truncated _ _ =>
      refine valid.receiver_step ⟨out, entries, tracks.nacked sys pkt, transfers, payloads⟩
        (Nat.le_refl _) ?_
      intro entry sent
      rcases List.mem_append.mp sent with before | new
      · exact old entry before
      · obtain rfl := List.mem_singleton.mp new
        have half := windowDivide_valid tracks.window
        exact (control_answer sys (by decide) (by decide) (r := nacked sys joint.receiver.state pkt)
          ⟨half.low, half.high⟩ _ _).mono (Nat.le_refl _) half.high
  | @accepted _ _ out' rest _ whole inWindow accepted =>
      refine valid.receiver_step ⟨out', rest, accepted.tracks, ?_, fun writesAll =>
        accepted.payloads writesAll (payloads writesAll)⟩ accepted.grows.written ?_
      · intro number found has
        rw [accepted.drains.has_iff] at has
        rcases has with delivered | held
        · exact transfers number found (Or.inl delivered)
        · rcases insertAt_number_mem _ _ _ _ held with new | before
          · obtain ⟨rfl, rfl⟩ := Prod.mk.inj new
            exact lands whole inWindow
          · exact transfers number found (Or.inr before)
      · exact accepted.grows.answers old (Int.le_refl 31) accepted.tracks.window.high
  | closed _ _ _ _ =>
      exact valid.receiver_step ⟨out, entries, tracks.closed sys pkt, transfers, payloads⟩
        (Nat.le_refl _) ((grows_closed sys tracks.window pkt).answers old (Int.le_refl 31)
          tracks.window.high)
  | outOfWindow _ _ _ _ =>
      exact valid.receiver_step ⟨out, entries, tracks.reacknowledged sys pkt, transfers, payloads⟩
        (Nat.le_refl _) ((grows_reacknowledged sys tracks.window pkt).answers old (Int.le_refl 31)
          tracks.window.high)

theorem JointValid.lands (valid : JointValid sys input joint) {datagram : Datagram} {stale : Memory}
    (permitted : Permitted sys joint (.receiver (.readable (some datagram) stale))) {pkt : Pkt}
    (decodes : Decodes sys datagram stale pkt) (whole : pktGetTr pkt ≠ 1)
    (inWindow : joint.receiver.state.checkInWindow (pktGetSeqnum pkt) = true) :
    joint.sender.transfers[absoluteNumber joint.receiver.state.written.length pkt]? =
      some (pktGetPayload pkt) := by
  rcases permitted with ⟨entry, sent, inTime, intact | cut⟩ | rejected
  · subst intact
    have transfers := valid.sender.transfers sent
    obtain ⟨other, arrives, carries⟩ := transfers.decodes stale
    obtain rfl := decodes.unique arrives
    rw [valid.accepted_number carries.seqnum transfers.number_le inTime inWindow]
    exact carries.payload
  · subst cut
    have transfers := valid.sender.transfers sent
    obtain ⟨_, _, _, _, _, bytes, _⟩ := transfers
    have nonempty : entry.2 ≠ [] := by
      rw [bytes, packetBytes]
      exact List.cons_ne_nil _ _
    exact absurd (decodes.cut_getTr nonempty) whole
  · exact absurd decodes (rejected pkt)

theorem JointValid.step_receiver (valid : JointValid sys input joint) {event : ReceiverEvent}
    (permitted : Permitted sys joint (.receiver event)) :
    JointValid sys input (jointStep sys joint (.receiver event)) := by
  obtain ⟨out, entries, tracks, transfers, payloads⟩ := valid.receiver
  rw [jointStep]
  rcases processReceiver_cases sys joint.receiver event with
    same | freed | ⟨_, datagram, stale, pkt, rfl, decodes, state⟩
  · apply valid.receiver_step
    · rw [TracksTransfers, same]
      exact ⟨out, entries, tracks, transfers, payloads⟩
    · rw [same]
    · rw [same]
      exact valid.answers
  · apply valid.receiver_step
    · rw [TracksTransfers, freed]
      refine ⟨out, [], tracks.freed, ?_, payloads⟩
      rintro number pkt (delivered | held)
      · exact transfers number pkt (Or.inl delivered)
      · exact absurd held List.not_mem_nil
    · rw [freed]
      exact Nat.le_refl _
    · rw [freed]
      exact valid.answers
  · have outcome := readPacketR_outcome sys tracks decodes.valid
    rw [← state] at outcome
    refine valid.takes_packet tracks transfers payloads outcome fun whole inWindow => ?_
    rw [← tracks.written_length]
    exact valid.lands permitted decodes whole inWindow

end

theorem jointStep_valid {sys : Sys} {input : List Byte} (joint : Joint) (event : JointEvent)
    (valid : JointValid sys input joint) (permitted : Permitted sys joint event) :
    JointValid sys input (jointStep sys joint event) := by
  cases event with
  | sender event => exact valid.step_sender permitted
  | receiver event => exact valid.step_receiver permitted

theorem jointReachable_valid {sys : Sys} {input : List Byte} {joint : Joint}
    (reached : JointReachable sys input joint) : JointValid sys input joint :=
  reached.invariant (JointValid sys input) (init_jointValid sys input) jointStep_valid

end SelectiveRepeat
