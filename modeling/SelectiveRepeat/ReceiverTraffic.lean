import SelectiveRepeat.QueueRefinement
import SelectiveRepeat.ReceiverControl

/-! How much the receiver sends: an answer when a packet arrives and one when it leaves the
list, never more, and each is a bare header. -/

namespace SelectiveRepeat

open Bytes

/-- A packet that the list holds is worth the answer that it may still cause. -/
structure Frugal (r : Receiver) (budget : Nat) : Prop where
  answers : r.sent.length + r.list.length ≤ budget
  small : ∀ entry ∈ r.sent, entry.2.length = 12

def dataArrives (sys : Sys) : ReceiverEvent → Bool
  | .readable (some datagram) stale =>
    match pktDecode sys.crc32 (some (recvBuffer datagram stale)) (received datagram).length pktNew with
    | (err, pkt) => err = .pktOk ∧ pktGetType pkt = ptypeData
  | _ => false

section

variable {sys : Sys} {r after : Receiver} {budget : Nat}

theorem controlPkt_size (sys : Sys) (type seqnum window : Nat) (timestamp : BitVec 32) :
    (packetBytes sys.crc32 (controlPkt type seqnum window timestamp)).length = 12 :=
  packetBytes_empty_length sys.crc32 rfl

theorem init_frugal : Frugal Receiver.init 0 := ⟨Nat.le_refl 0, List.forall_mem_nil _⟩

theorem Frugal.mono (frugal : Frugal r budget) {more : Nat} (le : budget ≤ more) : Frugal r more :=
  ⟨frugal.answers.trans le, frugal.small⟩

theorem Frugal.answer (frugal : Frugal r budget) {number type seqnum window more : Nat}
    {timestamp : BitVec 32}
    (sent : after.sent =
      r.sent ++ [(number, packetBytes sys.crc32 (controlPkt type seqnum window timestamp))])
    (paid : budget + 1 + after.list.length ≤ more + r.list.length) : Frugal after more := by
  obtain ⟨answers, small⟩ := frugal
  constructor
  · rw [sent, List.length_append, List.length_singleton]
    omega
  · rw [sent]
    refine List.forall_mem_append.mpr ⟨small, List.forall_mem_singleton.mpr ?_⟩
    exact controlPkt_size ..

theorem addSpecificQueue_length_le (list : List Pkt) (packet : Pkt) :
    (addSpecificQueue list packet).length ≤ list.length + 1 := by
  rcases addSpecificQueue_cases list packet with ⟨before, behind, rfl, same⟩ | ⟨_, same⟩
  · rw [same]
    simp only [List.length_append, List.length_cons]
    omega
  · rw [same]
    omega

theorem Frugal.taken (frugal : Frugal r budget) (pkt : Pkt) : Frugal (taken r pkt) (budget + 1) := by
  have grown := addSpecificQueue_length_le r.list pkt
  obtain ⟨answers, small⟩ := frugal
  refine ⟨?_, small⟩
  show r.sent.length + (addSpecificQueue r.list pkt).length ≤ budget + 1
  omega

/-- A turn of the loop takes a packet off the list for the ACK it sends. -/
theorem writeInSequenceLoop_frugal (sys : Sys) {entries : List (Nat × Pkt)} {out : List Pkt}
    (tracks : Tracks r out entries) (frugal : Frugal r budget) :
    Frugal (writeInSequenceLoop sys (entries.map Prod.snd) r).2 budget := by
  induction entries generalizing r out with
  | nil => exact frugal
  | cons entry rest ih =>
      rw [List.map_cons, writeInSequenceLoop_cons]
      by_cases inTurn : (pktGetSeqnum entry.2 : Int) = r.waitedSeqnum
      swap
      · rw [if_neg inTurn]
        exact frugal
      rw [if_pos inTurn]
      cases wrote : sys.write r.writeCalls (pktGetLength entry.2) with
      | none => exact ⟨frugal.answers, frugal.small⟩
      | some writed =>
          have held : r.list.length = r.list.tail.length + 1 := by
            rw [tracks.list, List.map_cons, List.tail_cons, List.length_cons]
          have popped := tracks.pop (tracks.head_due_iff.mp inTurn)
            ((pktGetPayload entry.2).take writed)
          dsimp only
          split_ifs with ended
          · refine ⟨?_, frugal.small⟩
            have answers := frugal.answers
            show r.sent.length + r.list.tail.length ≤ budget
            omega
          · refine ih (popped.acknowledge sys) (frugal.answer
              (acknowledged_sent sys popped.window popped.waited_written) ?_)
            rw [acknowledged_eq sys popped.window popped.waited_written]
            show budget + 1 + r.list.tail.length ≤ budget + r.list.length
            omega

theorem afterSequence_frugal {head : Nat × Pkt} {rest : List (Nat × Pkt)} {out : List Pkt}
    (tracks : Tracks r out (head :: rest)) (frugal : Frugal r budget) :
    Frugal (afterSequence sys (writeInSequence sys r)).2 (budget + 1) := by
  by_cases ahead : (pktGetSeqnum head.2 : Int) > r.waitedSeqnum
  · rw [tracks.afterSequence_ahead sys ahead]
    exact frugal.answer rfl (Nat.le_refl _)
  · have spent := writeInSequenceLoop_frugal sys tracks frugal
    obtain ⟨_, _, drained⟩ := writeInSequenceLoop_drains sys tracks
    rw [tracks.writeInSequence_eq, if_neg ahead]
    generalize writeInSequenceLoop sys ((head :: rest).map Prod.snd) r = result at *
    obtain ⟨code, after⟩ := result
    have same : (afterSequence sys (code, after)).2 = after := by
      rcases drained.ended with rfl | rfl | ⟨rfl, _⟩
      all_goals rfl
    rw [same]
    exact spent.mono (Nat.le_succ budget)

theorem readPacketR_frugal {out : List Pkt} {entries : List (Nat × Pkt)}
    (tracks : Tracks r out entries) {pkt : Pkt} (valid : pkt.Valid) (frugal : Frugal r budget) :
    Frugal (readPacketR sys r pkt).2
      (if pktGetType pkt = ptypeData then budget + 2 else budget) := by
  have window := tracks.window
  by_cases data : pktGetType pkt = ptypeData
  swap
  · rw [readPacketR_notData sys valid data, if_neg data]
    exact frugal
  rw [if_pos data]
  have room {after : Receiver} (same : after.list = r.list) :
      budget + 1 + after.list.length ≤ budget + 2 + r.list.length := by
    rw [same]
    omega
  by_cases truncated : pktGetTr pkt = 1
  · rw [readPacketR_truncated sys valid data truncated window]
    exact frugal.answer rfl (room rfl)
  by_cases inWindow : r.checkInWindow (pktGetSeqnum pkt) = true
  · obtain ⟨head, rest, _, listed⟩ := tracks.insertHead valid inWindow
    rw [readPacketR_accepted sys valid data truncated inWindow]
    exact afterSequence_frugal listed (frugal.taken pkt)
  have outside := Bool.eq_false_iff.mpr inWindow
  by_cases last : pktGetLength pkt = 0 ∧ (pktGetSeqnum pkt : Int) = r.waitedSeqnum - 1
  · rw [readPacketR_closed sys valid data truncated outside last.2 last.1 window]
    exact frugal.answer rfl (room rfl)
  · have notLast : (pktGetSeqnum pkt : Int) = r.waitedSeqnum - 1 → pktGetLength pkt ≠ 0 :=
      fun seqnum empty => last ⟨empty, seqnum⟩
    rw [readPacketR_outOfWindow sys valid data truncated outside notLast window
      tracks.waited_written]
    exact frugal.answer rfl (room rfl)

end

theorem dataArrives_decodes {sys : Sys} {datagram : Datagram} {stale : Memory} {pkt : Pkt}
    (decodes : Decodes sys datagram stale pkt) :
    dataArrives sys (.readable (some datagram) stale) = decide (pktGetType pkt = ptypeData) := by
  rw [Decodes] at decodes
  simp [dataArrives, decodes]

theorem processReceiver_frugal (sys : Sys) {process : ReceiverProcess} {out : List Pkt}
    {entries : List (Nat × Pkt)} (tracks : Tracks process.state out entries) {arrived : Nat}
    (frugal : Frugal process.state (2 * arrived)) (event : ReceiverEvent) :
    Frugal (processReceiver sys process event).state
      (2 * (arrived + if dataArrives sys event then 1 else 0)) := by
  have more : 2 * arrived ≤ 2 * (arrived + if dataArrives sys event then 1 else 0) := by omega
  rcases processReceiver_cases sys process event with
    same | freed | ⟨_, datagram, stale, pkt, rfl, decodes, state⟩
  · rw [same]
    exact frugal.mono more
  · rw [freed]
    have answers := frugal.answers
    refine ⟨?_, frugal.small⟩
    show process.state.sent.length + 0 ≤ 2 * (arrived + if dataArrives sys event then 1 else 0)
    omega
  · rw [state, dataArrives_decodes decodes]
    refine (readPacketR_frugal tracks decodes.valid frugal).mono ?_
    by_cases data : pktGetType pkt = ptypeData
    · rw [if_pos data, if_pos (decide_eq_true data)]
      exact Nat.le_refl _
    · rw [if_neg data, if_neg (by simpa using data)]
      exact Nat.le_refl _

/-- The receiver never answers more than twice as often as DATA packets arrive. -/
theorem answers_bounded (sys : Sys) (events : List ReceiverEvent) :
    (receiverRun sys events).state.sent.length + (receiverRun sys events).state.list.length ≤
        2 * events.countP (dataArrives sys) ∧
      ∀ entry ∈ (receiverRun sys events).state.sent, entry.2.length = 12 := by
  suffices frugal : Frugal (receiverRun sys events).state (2 * events.countP (dataArrives sys)) from
    ⟨frugal.answers, frugal.small⟩
  induction events using List.reverseRecOn with
  | nil => exact init_frugal
  | append_singleton events event ih =>
      obtain ⟨out, entries, tracks⟩ := receiverRun_tracks sys events
      rw [receiverRun_concat, List.countP_append, List.countP_singleton]
      exact processReceiver_frugal sys tracks ih event

end SelectiveRepeat
