import SelectiveRepeat.JointSafety

/-! Flow control: as long as no NACK shrinks the receiver's window, the sender never sends
a chunk that the receiver would find out of its window. -/

namespace SelectiveRepeat

open Bytes Circle Reassembly

/-- A truncated DATA packet reaches the NACK branch of `read_to_list_r`. -/
def ReachesNack (sys : Sys) (joint : Joint) : JointEvent → Prop
  | .receiver (.readable (some datagram) stale) => joint.receiver.returned = none ∧
      ∃ pkt, Decodes sys datagram stale pkt ∧ pktGetType pkt = ptypeData ∧ pktGetTr pkt = 1
  | _ => False

def PermittedWhole (sys : Sys) (joint : Joint) (event : JointEvent) : Prop :=
  Permitted sys joint event ∧ ¬ReachesNack sys joint event

abbrev WholeReachable (sys : Sys) (input : List Byte) : Joint → Prop :=
  Runs.Reachable (jointStep sys) (PermittedWhole sys) (Joint.init input)

/-- No window that the sender knows of, or will hear of, is wider than the receiver's, and all that
was read fits in that. -/
structure FlowValid (sys : Sys) (input : List Byte) (joint : Joint) : Prop where
  valid : JointValid sys input joint
  window : joint.sender.state.windowSize ≤ joint.receiver.state.windowSize
  answers : ∀ entry ∈ joint.receiver.state.sent,
    Answer sys joint.receiver.state.written.length joint.receiver.state.windowSize entry
  span : (joint.sender.state.reads.length : Int) ≤
    joint.receiver.state.written.length + joint.receiver.state.windowSize

theorem init_flowValid (sys : Sys) (input : List Byte) :
    FlowValid sys input (Joint.init input) where
  valid := init_jointValid sys input
  window := Int.le_refl 1
  answers := List.forall_mem_nil _
  span := Int.zero_le_ofNat 1

section

variable {sys : Sys} {input : List Byte} {joint : Joint}

theorem FlowValid.step_sender (valid : FlowValid sys input joint) {event : SenderEvent}
    (permitted : Permitted sys joint (.sender event)) :
    FlowValid sys input (jointStep sys joint (.sender event)) := by
  have next := valid.valid.step_sender permitted
  have acknowledged := next.acknowledged
  have narrow := valid.window
  have span := valid.span
  obtain ⟨out, entries, tracks, _⟩ := valid.valid.receiver
  rw [jointStep] at next acknowledged ⊢
  rcases processSender_cases valid.valid.sender event with
    ⟨windowSize, more, reads, length, within⟩ | ⟨arrived, stale, base, code, rfl, _, outcome⟩
  · refine ⟨next, by rw [windowSize]; exact narrow, valid.answers, ?_⟩
    rcases within with rfl | within
    · rw [reads, List.append_nil]
      exact span
    · have bound : ((processSender sys joint.sender event).state.reads.length : Int) ≤
          joint.receiver.state.written.length +
            (processSender sys joint.sender event).state.list.length := by exact_mod_cast acknowledged
      show ((processSender sys joint.sender event).state.reads.length : Int) ≤
        joint.receiver.state.written.length + joint.receiver.state.windowSize
      omega
  · have reads := outcome.reads
    have heard : ∀ {datagram : Datagram} {pkt : Pkt}, arrived = some datagram →
        Decodes sys datagram stale pkt →
          (pktGetWindow pkt : Int) ≤ joint.receiver.state.windowSize := by
      rintro datagram pkt rfl decodes
      rcases permitted with ⟨entry, sent, _, rfl⟩ | rejected
      · exact ((valid.answers entry sent).decodes tracks.window.high decodes).window.2
      · exact absurd decodes (rejected pkt)
    refine ⟨next, ?_, valid.answers, by rw [reads]; exact span⟩
    show (processSender sys joint.sender _).state.windowSize ≤ joint.receiver.state.windowSize
    generalize (processSender sys joint.sender _).state = after at outcome
    cases outcome with
    | dropped => exact narrow
    | removed arrival decodes _ _ _ _ _ _ => exact heard arrival decodes
    | windowOnly arrival decodes _ _ => exact heard arrival decodes

theorem FlowValid.grows (valid : FlowValid sys input joint) {process : ReceiverProcess}
    (next : JointValid sys input { joint with receiver := process })
    (grows : Grows sys joint.receiver.state process.state) :
    FlowValid sys input { joint with receiver := process } := by
  have window := grows.window
  have written := grows.written
  have span := valid.span
  refine ⟨next, valid.window.trans window,
    grows.answers valid.answers window (Int.le_refl _), ?_⟩
  show (joint.sender.state.reads.length : Int) ≤
    process.state.written.length + process.state.windowSize
  omega

theorem FlowValid.step_receiver (valid : FlowValid sys input joint) {event : ReceiverEvent}
    (permitted : Permitted sys joint (.receiver event))
    (whole : ¬ReachesNack sys joint (.receiver event)) :
    FlowValid sys input (jointStep sys joint (.receiver event)) := by
  have next := valid.valid.step_receiver permitted
  obtain ⟨out, entries, tracks, _⟩ := valid.valid.receiver
  rw [jointStep] at next ⊢
  apply valid.grows next
  rcases processReceiver_cases sys joint.receiver event with
    same | freed | ⟨running, datagram, stale, pkt, rfl, decodes, state⟩
  · rw [same]
    exact Grows.refl sys _
  · rw [freed]
    exact ⟨Int.le_refl _, Nat.le_refl _, [], by simp [freeTimeout]⟩
  · have outcome := readPacketR_outcome sys tracks decodes.valid
    rw [state]
    generalize readPacketR sys joint.receiver.state pkt = result at outcome
    obtain ⟨code, after⟩ := result
    cases outcome with
    | notData _ => exact Grows.refl sys _
    | truncated isData cut => exact absurd ⟨running, pkt, decodes, isData, cut⟩ whole
    | accepted _ _ _ accepted => exact accepted.grows
    | closed _ _ _ _ => exact grows_closed sys tracks.window pkt
    | outOfWindow _ _ _ _ => exact grows_reacknowledged sys tracks.window pkt

end

theorem wholeReachable_valid {sys : Sys} {input : List Byte} {joint : Joint}
    (reached : WholeReachable sys input joint) : FlowValid sys input joint := by
  refine reached.invariant (FlowValid sys input) (init_flowValid sys input) ?_
  rintro joint (event | event) valid ⟨permitted, whole⟩
  · exact valid.step_sender permitted
  · exact valid.step_receiver permitted whole

/-- In every run without a NACK, `check_in_window` of the receiver admits every datagram of the
sender whose chunk is not written yet. -/
theorem fresh_in_window {sys : Sys} {input : List Byte} {joint : Joint}
    (reached : WholeReachable sys input joint) {entry : Nat × Datagram}
    (sent : entry ∈ joint.sender.state.sent)
    (fresh : joint.receiver.state.written.length ≤ chunkNumber entry) (stale : Memory) :
    ∃ pkt, Decodes sys entry.2 stale pkt ∧ pktGetType pkt = ptypeData ∧
      pktGetSeqnum pkt = chunkNumber entry % 256 ∧
      joint.receiver.state.checkInWindow (pktGetSeqnum pkt) = true := by
  have valid := wholeReachable_valid reached
  have transfers := valid.valid.sender.transfers sent
  obtain ⟨pkt, decodes, carries⟩ := transfers.decodes stale
  obtain ⟨out, entries, tracks, _⟩ := valid.valid.receiver
  have bound := transfers.number_le
  have near := valid.valid.arc.1
  have span := valid.span
  refine ⟨pkt, decodes, carries.type, carries.seqnum, ?_⟩
  rw [carries.seqnum, Receiver.checkInWindow_iff tracks.waited_written fresh (by omega)]
  left
  omega

theorem firstSent_reachable :
    WholeReachable Sys.faultless [0x61] (jointRun (firstArrival.take 3)) :=
  Runs.reachable_along ⟨⟨trivial, id⟩, ⟨trivial, id⟩, ⟨trivial, id⟩, trivial⟩

theorem fresh_in_window_first : ∃ pkt, Decodes Sys.faultless firstCopy (fun _ => 0) pkt ∧
    pktGetType pkt = ptypeData ∧ pktGetSeqnum pkt = chunkNumber (1, firstCopy) % 256 ∧
    (jointRun (firstArrival.take 3)).receiver.state.checkInWindow (pktGetSeqnum pkt) = true :=
  fresh_in_window firstSent_reachable
    (show (1, firstCopy) ∈ (jointRun (firstArrival.take 3)).sender.state.sent by decide +kernel)
    (by decide +kernel) fun _ => 0

end SelectiveRepeat
