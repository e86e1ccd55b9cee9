import SelectiveRepeat.Completion
import SelectiveRepeat.Library.Channel
import SelectiveRepeat.Logs

/-! What the two programs are for: a channel of at most 31 chunks, in which the sender puts what it
reads and from which the receiver gets what it writes, the end of the file last. -/

namespace SelectiveRepeat

open Bytes Runs Channels

section

variable {sys : Sys} {input : List Byte} {joint : Joint}

theorem SenderProcess.Valid.transfers_step {process : SenderProcess} (valid : process.Valid sys input)
    (event : SenderEvent) : process.transfers <+: (processSender sys process event).transfers := by
  by_cases finished : process.stage = .returned 0
  · rw [processSender_finished finished]
  · have grown : ∃ more, (processSender sys process event).state.reads = process.state.reads ++ more := by
      rcases processSender_cases valid event with ⟨_, more, reads, _⟩ | ⟨_, _, _, _, _, _, outcome⟩
      · exact ⟨more, reads⟩
      · exact ⟨[], by rw [outcome.reads, List.append_nil]⟩
    obtain ⟨more, reads⟩ := grown
    exact List.prefix_iff_getElem?.mpr fun number bound =>
      transfers_grow finished reads (List.getElem?_eq_getElem bound)

theorem JointValid.unwritten (valid : JointValid sys input joint) :
    joint.sender.transfers.length ≤ joint.receiver.state.written.length + 31 := by
  by_cases finished : joint.sender.stage = .returned 0
  · have acknowledged := valid.acknowledged
    have ended : SenderFinished sys input joint.sender.state := by
      have sender := valid.sender
      rwa [SenderProcess.Valid, if_pos finished] at sender
    have longer := (transfers_length joint.sender).2
    rw [ended.list, List.length_nil] at acknowledged
    omega
  · rw [transfers_of_running finished]
    exact valid.arc.1

theorem JointValid.written_step (valid : JointValid sys input joint) (writesAll : sys.WritesAll)
    {event : ReceiverEvent} (permitted : Permitted sys joint (.receiver event)) :
    joint.receiver.state.written <+: (processReceiver sys joint.receiver event).state.written := by
  have before := valid.written_transfers writesAll
  have after := (valid.step_receiver permitted).written_transfers writesAll
  exact List.prefix_of_prefix_length_le before after (processReceiver_logs sys joint.receiver event).counts

end

theorem joint_relays {sys : Sys} (writesAll : sys.WritesAll) (input : List Byte) :
    Relays (jointStep sys) (Permitted sys) (Joint.init input) (fun joint => joint.sender.transfers)
      (fun joint => joint.receiver.state.written) 31 where
  initially := rfl
  order := fun reached => (jointReachable_valid reached).written_transfers writesAll
  bound := fun reached => (jointReachable_valid reached).unwritten
  grows := by
    intro joint event reached permitted
    have valid := jointReachable_valid reached
    cases event with
    | sender event => exact Or.inl ⟨valid.sender.transfers_step event, rfl⟩
    | receiver event => exact Or.inr ⟨rfl, valid.written_step writesAll permitted⟩

/-- Every run, event by event, is a run of a channel of 31 chunks that starts empty. -/
theorem jointRun_moves {sys : Sys} (writesAll : sys.WritesAll) {input : List Byte}
    {events : List JointEvent} (along : Along (jointStep sys) (Permitted sys) (Joint.init input) events) :
    ∃ channel : Channel (List Byte) 31,
      Moves Channel.empty
        (trace (jointStep sys) (fun joint => joint.sender.transfers)
          (fun joint => joint.receiver.state.written) (Joint.init input) events) channel ∧
      (events.foldl (jointStep sys) (Joint.init input)).sender.transfers =
        (events.foldl (jointStep sys) (Joint.init input)).receiver.state.written ++ channel.held :=
  (joint_relays writesAll input).moves along

theorem jointRun_moves_first :
    ∃ channel : Channel (List Byte) 31,
      Moves Channel.empty
        (trace (jointStep Sys.faultless) (fun joint => joint.sender.transfers)
          (fun joint => joint.receiver.state.written) (Joint.init [0x61]) firstArrival) channel ∧
      (firstArrival.foldl (jointStep Sys.faultless) (Joint.init [0x61])).sender.transfers =
        (firstArrival.foldl (jointStep Sys.faultless) (Joint.init [0x61])).receiver.state.written ++
          channel.held := by
  refine jointRun_moves Sys.faultless_writesAll ⟨trivial, trivial, trivial,
    Or.inl ⟨(1, firstCopy), ?_, ?_, Or.inl rfl⟩, trivial⟩
  · decide +kernel
  · unfold ChunkInTime
    decide +kernel

end SelectiveRepeat
