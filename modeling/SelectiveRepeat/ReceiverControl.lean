import SelectiveRepeat.ReceiverAnswers
import SelectiveRepeat.SenderAcks

/-! The control packets of the receiver, seen from the sender: what each of them says
about the state that sent it, and that `check_ack` takes it. -/

namespace SelectiveRepeat

open Bytes Circle Reassembly

/-- The states of a step that have just sent something: the last one, and those between the turns
of the loop of `write_in_sequence`. -/
def During (sys : Sys) (r : Receiver) (arrival : Arrival) (now : Receiver) : Prop :=
  now = receive sys r arrival ∨
    ∃ pkt turns, Brings sys arrival pkt ∧ r.checkInWindow (pktGetSeqnum pkt) = true ∧
      now = (writeInSequenceLoop sys ((taken r pkt).list.take turns) (taken r pkt)).2

/-- What an answer to `pkt` has to be, `now` being the state that has just sent it. -/
structure GoodControl (sys : Sys) (now : Receiver) (pkt : Pkt) (entry : Nat × Datagram) : Prop where
  sentNow : now.sent.getLast? = some entry
  decodes : ∀ stale, ∃ control, Decodes sys entry.2 stale control ∧
    (pktGetType control = ptypeAck ∧ pktGetSeqnum control = now.written.length % 256 ∨
      pktGetType control = ptypeNack ∧ pktGetTr pkt = 1 ∧
        pktGetSeqnum control = pktGetSeqnum pkt) ∧
    pktGetLength control = 0 ∧ (1 ≤ pktGetWindow control ∧ pktGetWindow control ≤ 31) ∧
    (pktGetWindow control : Int) = now.windowSize ∧ pktGetTimestamp control = pktGetTimestamp pkt
  taken : ∀ s stale, (checkAck sys s (some entry.2) stale).1 ≠ -1

/-- Every datagram that the step sends is a good answer to the DATA packet it received. -/
def AnswersWell (sys : Sys) (r : Receiver) (arrival : Arrival) : Prop :=
  ∀ entry ∈ (receive sys r arrival).sent.drop r.sent.length, ∃ pkt now, Brings sys arrival pkt ∧
    pktGetType pkt = ptypeData ∧ During sys r arrival now ∧ GoodControl sys now pkt entry

/-- An empty packet arrives with the seqnum written last, as when the end of the file is sent once
more. -/
def RepeatsEnd (sys : Sys) (r : Receiver) (arrival : Arrival) : Prop :=
  ∃ pkt, Brings sys arrival pkt ∧ pktGetType pkt = ptypeData ∧ pktGetTr pkt ≠ 1 ∧
    r.checkInWindow (pktGetSeqnum pkt) = false ∧ pktGetLength pkt = 0 ∧
    (pktGetSeqnum pkt : Int) = r.waitedSeqnum - 1

section

variable (sys : Sys)

theorem checkAck_control {type window : Nat} (isControl : type = ptypeAck ∨ type = ptypeNack)
    (fits : window ≤ 31) (seqnum : Nat) (timestamp : BitVec 32) (s : Sender) (stale : Memory) :
    (checkAck sys s (some (packetBytes sys.crc32 (controlPkt type seqnum window timestamp)))
      stale).1 ≠ -1 := by
  rcases isControl with rfl | rfl
  · obtain ⟨ack, decodes, whole, isAck, _⟩ :=
      decodes_controlPkt sys (show 1 ≤ ptypeAck by decide) (by decide) fits seqnum timestamp stale
    exact checkAck_ack_code decodes whole isAck s
  · obtain ⟨nack, decodes, whole, isNack, _⟩ :=
      decodes_controlPkt sys (show 1 ≤ ptypeNack by decide) (by decide) fits seqnum timestamp stale
    rw [checkAck_notAck decodes whole (isNack.trans_ne (by decide)), if_pos isNack]
    simp

theorem goodControl_ack {now : Receiver} (valid : now.WindowValid) {pkt : Pkt}
    (timestamp : now.lastTimestamp = pktGetTimestamp pkt) (lastAck : LastAck sys now)
    {entry : Nat × Datagram} (last : now.sent.getLast? = some entry) :
    GoodControl sys now pkt entry := by
  rw [LastAck, last] at lastAck
  obtain rfl := Option.some.inj lastAck
  obtain ⟨low, high⟩ := valid
  have fits : now.windowSize.toNat ≤ 31 := by omega
  refine ⟨last, ?_, checkAck_control sys (Or.inl rfl) fits _ _⟩
  intro stale
  obtain ⟨ack, decodes, _, type, seqnum, length, window, stamp⟩ :=
    decodes_controlPkt sys (show 1 ≤ ptypeAck by decide) (by decide) fits now.written.length
      now.lastTimestamp stale
  refine ⟨ack, decodes, Or.inl ⟨type, seqnum⟩, length, ?_, ?_, stamp.trans timestamp⟩
  all_goals
    rw [window]
    omega

theorem goodControl_last {r : Receiver} (valid : r.WindowValid) {pkt : Pkt}
    (timestamp : r.lastTimestamp = pktGetTimestamp pkt) {before : List (Nat × Datagram)}
    (sent : r.sent =
      before ++ [ackEntry sys r.written.length r.windowSize.toNat r.lastTimestamp]) :
    GoodControl sys r pkt (ackEntry sys r.written.length r.windowSize.toNat r.lastTimestamp) := by
  have last : LastAck sys r := by rw [LastAck, sent, List.getLast?_concat]
  exact goodControl_ack sys valid timestamp last last

theorem goodControl_nack {r : Receiver} (valid : r.WindowValid) {pkt : Pkt}
    (truncated : pktGetTr pkt = 1) :
    GoodControl sys (nacked sys r pkt) pkt (r.written.length, packetBytes sys.crc32
      (controlPkt ptypeNack (pktGetSeqnum pkt) (windowDivide r).windowSize.toNat
        (pktGetTimestamp pkt))) := by
  obtain ⟨low, high⟩ := windowDivide_valid valid
  have fits : (windowDivide r).windowSize.toNat ≤ 31 := by omega
  have current : (nacked sys r pkt).windowSize = (windowDivide r).windowSize := rfl
  refine ⟨List.getLast?_concat .., ?_, checkAck_control sys (Or.inr rfl) fits _ _⟩
  intro stale
  obtain ⟨nack, decodes, _, type, seqnum, length, window, stamp⟩ :=
    decodes_controlPkt sys (show 1 ≤ ptypeNack by decide) (by decide) fits (pktGetSeqnum pkt)
      (pktGetTimestamp pkt) stale
  rw [Nat.mod_eq_of_lt (pktGetSeqnum_lt pkt)] at seqnum
  refine ⟨nack, decodes, Or.inr ⟨type, truncated, seqnum⟩, length, ?_, ?_, stamp⟩
  · rw [window]
    omega
  · rw [window, current]
    omega

theorem writeInSequenceLoop_answers {entries : List (Nat × Pkt)} {r : Receiver} {out : List Pkt}
    (tracks : Tracks r out entries) :
    ∃ answers, (writeInSequenceLoop sys (entries.map Prod.snd) r).2.sent = r.sent ++ answers ∧
      ∀ entry ∈ answers, ∃ turns now, now =
          (writeInSequenceLoop sys ((entries.map Prod.snd).take turns) r).2 ∧
        now.WindowValid ∧ now.lastTimestamp = r.lastTimestamp ∧ LastAck sys now ∧
          now.sent.getLast? = some entry := by
  induction entries generalizing r out with
  | nil => exact ⟨[], (List.append_nil _).symm, List.forall_mem_nil _⟩
  | cons entry rest ih =>
      rw [List.map_cons, writeInSequenceLoop_cons]
      by_cases inTurn : (pktGetSeqnum entry.2 : Int) = r.waitedSeqnum
      swap
      · rw [if_neg inTurn]
        exact ⟨[], (List.append_nil _).symm, List.forall_mem_nil _⟩
      rw [if_pos inTurn]
      cases wrote : sys.write r.writeCalls (pktGetLength entry.2) with
      | none => exact ⟨[], (List.append_nil _).symm, List.forall_mem_nil _⟩
      | some writed =>
          dsimp only
          split_ifs with ended
          · exact ⟨[], (List.append_nil _).symm, List.forall_mem_nil _⟩
          have popped := tracks.pop (tracks.head_due_iff.mp inTurn)
            ((pktGetPayload entry.2).take writed)
          have next := popped.acknowledge sys
          obtain ⟨_, lastAck⟩ := popped.grows_acknowledged sys
          have acked := acknowledged_sent sys popped.window popped.waited_written
          have stamp : (acknowledged sys
              (delivered r ((pktGetPayload entry.2).take writed))).lastTimestamp =
              r.lastTimestamp := by
            rw [acknowledged_eq sys popped.window popped.waited_written]
            rfl
          have turn (turns : Nat) : writeInSequenceLoop sys
              ((entry.2 :: rest.map Prod.snd).take (turns + 1)) r =
              writeInSequenceLoop sys ((rest.map Prod.snd).take turns)
                (acknowledged sys (delivered r ((pktGetPayload entry.2).take writed))) := by
            rw [List.take_succ_cons, writeInSequenceLoop_cons, if_pos inTurn, wrote]
            exact if_neg ended
          obtain ⟨later, sent, good⟩ := ih next
          rw [acked, List.append_assoc] at sent
          refine ⟨_, sent, ?_⟩
          intro answer member
          rcases List.mem_append.mp member with first | other
          · obtain rfl := List.mem_singleton.mp first
            refine ⟨1, _, rfl, ?_⟩
            rw [turn]
            refine ⟨next.window, stamp, lastAck, ?_⟩
            show (acknowledged sys _).sent.getLast? = _
            rw [acked, List.getLast?_concat]
          · obtain ⟨turns, now, same, valid, timestamp, last⟩ := good answer other
            exact ⟨turns + 1, now, same.trans (by rw [turn]), valid, timestamp.trans stamp, last⟩

end

section

variable {sys : Sys} {r : Receiver} {out : List Pkt} {entries : List (Nat × Pkt)} {arrival : Arrival}
  {pkt : Pkt}

/-! One step. -/

theorem answersWell_of_sent {answers : List (Nat × Datagram)}
    (sent : (receive sys r arrival).sent = r.sent ++ answers) (brings : Brings sys arrival pkt)
    (data : pktGetType pkt = ptypeData)
    (good : ∀ entry ∈ answers, ∃ now, During sys r arrival now ∧ GoodControl sys now pkt entry) :
    AnswersWell sys r arrival := by
  intro entry member
  rw [sent, List.drop_left] at member
  obtain ⟨now, during, control⟩ := good entry member
  exact ⟨pkt, now, brings, data, during, control⟩

theorem answersWell_silent (silent : (receive sys r arrival).sent = r.sent) :
    AnswersWell sys r arrival := by
  intro entry member
  rw [silent, List.drop_length] at member
  exact absurd member List.not_mem_nil

theorem answersWell_accepted (tracks : Tracks r out entries) (brings : Brings sys arrival pkt)
    (accepts : r.Accepts pkt) : AnswersWell sys r arrival := by
  have data := accepts.data
  have inWindow := accepts.inWindow
  obtain ⟨head, rest, _, listed⟩ := tracks.insertHead brings.valid inWindow
  have result := congrArg Prod.snd (brings.read_accepted accepts)
  by_cases ahead : (pktGetSeqnum head.2 : Int) > (taken r pkt).waitedSeqnum
  · rw [listed.afterSequence_ahead sys ahead] at result
    refine answersWell_of_sent (congrArg Receiver.sent result) brings data ?_
    intro entry member
    obtain rfl := List.mem_singleton.mp member
    exact ⟨_, Or.inl result.symm, goodControl_last sys (r := reacknowledged sys (taken r pkt) pkt)
      ⟨listed.window.low, listed.window.high⟩ rfl rfl⟩
  · obtain ⟨answers, sent, good⟩ := writeInSequenceLoop_answers sys listed
    obtain ⟨_, _, drained⟩ := writeInSequenceLoop_drains sys listed
    rw [listed.writeInSequence_eq, if_neg ahead] at result
    have same : (receive sys r arrival).sent = r.sent ++ answers := by
      rw [receive, result]
      generalize writeInSequenceLoop sys ((head :: rest).map Prod.snd) (taken r pkt) = stopped at *
      obtain ⟨code, after⟩ := stopped
      rcases drained.ended with rfl | rfl | ⟨rfl, _⟩
      all_goals exact sent
    refine answersWell_of_sent same brings data ?_
    intro entry member
    obtain ⟨turns, now, state, valid, timestamp, lastAck, last⟩ := good entry member
    rw [← listed.list] at state
    exact ⟨now, Or.inr ⟨pkt, turns, brings, inWindow, state⟩,
      goodControl_ack sys valid timestamp lastAck last⟩

theorem not_answersWell_closed (window : r.WindowValid)
    (after : receive sys r arrival = closed sys r pkt) : ¬AnswersWell sys r arrival := by
  obtain ⟨low, high⟩ := window
  have sent := congrArg Receiver.sent after
  intro well
  rw [AnswersWell, sent, closed, List.drop_left, List.forall_mem_singleton] at well
  obtain ⟨_, now, _, _, _, good⟩ := well
  obtain ⟨control, decodes, type, _⟩ := good.decodes fun _ => 0
  obtain ⟨other, again, _, otherType, _⟩ := decodes_controlPkt sys (show 1 ≤ ptypeData by decide)
    (by decide) (show r.windowSize.toNat ≤ 31 by omega) (pktGetSeqnum pkt) (pktGetTimestamp pkt)
    fun _ => 0
  obtain rfl := decodes.unique again
  rw [otherType] at type
  rcases type with ⟨isAck, _⟩ | ⟨isNack, _⟩
  · exact absurd isAck (by decide)
  · exact absurd isNack (by decide)

theorem answersWell_iff (tracks : Tracks r out entries) :
    AnswersWell sys r arrival ↔ ¬RepeatsEnd sys r arrival := by
  have window := tracks.window
  by_cases brought : ∃ pkt, Brings sys arrival pkt
  swap
  · refine iff_of_true (answersWell_silent ?_) fun repeats => brought ⟨_, repeats.choose_spec.1⟩
    rw [receive_nothing (not_exists.mp brought)]
  obtain ⟨pkt, brings⟩ := brought
  have valid := brings.valid
  have repeats : RepeatsEnd sys r arrival ↔ pktGetType pkt = ptypeData ∧ pktGetTr pkt ≠ 1 ∧
      r.checkInWindow (pktGetSeqnum pkt) = false ∧ pktGetLength pkt = 0 ∧
      (pktGetSeqnum pkt : Int) = r.waitedSeqnum - 1 := by
    constructor
    · rintro ⟨other, again, facts⟩
      obtain rfl := brings.unique again
      exact facts
    · intro facts
      exact ⟨pkt, brings, facts⟩
  rw [repeats]
  by_cases data : pktGetType pkt = ptypeData
  swap
  · refine iff_of_true (answersWell_silent ?_) fun facts => data facts.1
    rw [brings.receive, readPacketR_notData sys valid data]
  by_cases truncated : pktGetTr pkt = 1
  · refine iff_of_true ?_ fun facts => facts.2.1 truncated
    have after : receive sys r arrival = nacked sys r pkt := by
      rw [brings.receive, readPacketR_truncated sys valid data truncated window]
    refine answersWell_of_sent (congrArg Receiver.sent after) brings data ?_
    intro entry member
    obtain rfl := List.mem_singleton.mp member
    exact ⟨_, Or.inl after.symm, goodControl_nack sys window truncated⟩
  by_cases inWindow : r.checkInWindow (pktGetSeqnum pkt) = true
  · refine iff_of_true (answersWell_accepted tracks brings ⟨data, truncated, inWindow⟩) fun facts => ?_
    exact Bool.false_ne_true (facts.2.2.1.symm.trans inWindow)
  have outside := Bool.eq_false_iff.mpr inWindow
  by_cases last : pktGetLength pkt = 0 ∧ (pktGetSeqnum pkt : Int) = r.waitedSeqnum - 1
  · have after : receive sys r arrival = closed sys r pkt := by
      rw [brings.receive, readPacketR_closed sys valid data truncated outside last.2 last.1 window]
    exact iff_of_false (not_answersWell_closed window after) (not_not.mpr
      ⟨data, truncated, outside, last⟩)
  · refine iff_of_true ?_ fun facts => last facts.2.2.2
    have notLast : (pktGetSeqnum pkt : Int) = r.waitedSeqnum - 1 → pktGetLength pkt ≠ 0 :=
      fun seqnum empty => last ⟨empty, seqnum⟩
    have after : receive sys r arrival = reacknowledged sys r pkt := by
      rw [brings.receive,
        readPacketR_outOfWindow sys valid data truncated outside notLast window tracks.waited_written]
    refine answersWell_of_sent (congrArg Receiver.sent after) brings data ?_
    intro entry member
    obtain rfl := List.mem_singleton.mp member
    exact ⟨_, Or.inl after.symm,
      goodControl_last sys (r := reacknowledged sys r pkt) ⟨window.low, window.high⟩ rfl rfl⟩

end

/-- Over a whole sequence of arrivals every datagram sent is a good answer exactly if no
end of the file arrives for the seqnum that was written last. -/
theorem answersWell_run_iff (sys : Sys) (arrivals : List Arrival) :
    (∀ before arrival, before ++ [arrival] <+: arrivals → AnswersWell sys (fed sys before) arrival) ↔
      ∀ before arrival, before ++ [arrival] <+: arrivals → ¬RepeatsEnd sys (fed sys before) arrival := by
  have step : ∀ before arrival,
      AnswersWell sys (fed sys before) arrival ↔ ¬RepeatsEnd sys (fed sys before) arrival := by
    intro before arrival
    obtain ⟨out, entries, tracks⟩ := fed_tracks sys before
    exact answersWell_iff tracks
  simp only [step]

def repeatedEnd : List Arrival :=
  [intact Sys.faultless onePkt, intact Sys.faultless (endPkt 0)]

theorem repeatedEnd_answersBadly :
    ¬∀ before arrival, before ++ [arrival] <+: repeatedEnd →
      AnswersWell Sys.faultless (fed Sys.faultless before) arrival := by
  intro well
  have second := well [intact Sys.faultless onePkt] (intact Sys.faultless (endPkt 0)) List.prefix_rfl
  obtain ⟨out, entries, tracks⟩ := fed_tracks Sys.faultless [intact Sys.faultless onePkt]
  apply (answersWell_iff tracks).mp second
  refine ⟨_, brings_intact Sys.faultless (endPkt_valid 0), rfl, Nat.zero_ne_one, ?_, rfl, ?_⟩
  · decide +kernel
  · decide +kernel

end SelectiveRepeat
