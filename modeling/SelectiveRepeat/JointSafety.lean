import SelectiveRepeat.JointInvariant
import Mathlib.Data.List.Infix

/-! What the joint invariant says about the bytes: the output is always a prefix of what
was read, and it is the whole input when the sender has returned. -/

namespace SelectiveRepeat

open Bytes Reassembly

section

variable {sys : Sys} {input : List Byte} {joint : Joint}

theorem JointValid.written_transfers (valid : JointValid sys input joint) (writesAll : sys.WritesAll) :
    joint.receiver.state.written <+: joint.sender.transfers := by
  obtain ⟨out, entries, _, transfers, payloads⟩ := valid.receiver
  rw [payloads writesAll]
  apply List.prefix_iff_getElem?.mpr
  intro number bound
  rw [List.length_map] at bound
  rw [List.getElem_map]
  exact transfers number out[number] (Or.inl (List.getElem?_eq_getElem bound))

theorem transfers_flatten (process : SenderProcess) :
    process.transfers.flatten = process.state.reads.flatten := by
  rw [SenderProcess.transfers]
  split
  · rw [List.flatten_append]
    exact List.append_nil _
  · rfl

theorem JointValid.written_within (valid : JointValid sys input joint) (writesAll : sys.WritesAll) :
    joint.receiver.state.written.flatten <+: joint.sender.state.reads.flatten := by
  have whole := (valid.written_transfers writesAll).flatten
  rwa [transfers_flatten] at whole

theorem JointValid.written_all (valid : JointValid sys input joint) (writesAll : sys.WritesAll)
    (returned : joint.sender.stage = .returned 0) :
    joint.sender.state.fileIn = [] ∧ joint.sender.state.reads.flatten = input ∧
      joint.receiver.state.written.flatten = input := by
  have finished : SenderFinished sys input joint.sender.state := by
    have sender := valid.sender
    rwa [SenderProcess.Valid, if_pos returned] at sender
  have written := valid.written_transfers writesAll
  have sent := transfers_of_finished returned
  have enough : joint.sender.state.reads.length ≤ joint.receiver.state.written.length := by
    have acknowledged := valid.acknowledged
    rwa [finished.list] at acknowledged
  have read : joint.sender.state.reads <+: joint.receiver.state.written := by
    apply List.prefix_of_prefix_length_le _ written enough
    rw [sent]
    exact List.prefix_append _ _
  have upper := valid.written_within writesAll
  rw [finished.input] at upper
  have lower := read.flatten
  rw [finished.input] at lower
  exact ⟨finished.fileIn, finished.input, upper.eq_of_length_le lower.length_le⟩

end

/-- At every moment of every run, the bytes written are a prefix of the bytes read. -/
theorem written_prefix_read {sys : Sys} (writesAll : sys.WritesAll) {input : List Byte}
    {joint : Joint} (reached : JointReachable sys input joint) :
    joint.receiver.state.written.flatten <+: joint.sender.state.reads.flatten :=
  (jointReachable_valid reached).written_within writesAll

/-- When the sender has returned 0, it has read the whole input and the receiver has written it. -/
theorem written_all_returned {sys : Sys} (writesAll : sys.WritesAll) {input : List Byte}
    {joint : Joint} (reached : JointReachable sys input joint)
    (returned : joint.sender.stage = .returned 0) :
    joint.sender.state.fileIn = [] ∧ joint.sender.state.reads.flatten = input ∧
      joint.receiver.state.written.flatten = input :=
  (jointReachable_valid reached).written_all writesAll returned

/-! A transfer of one byte, with a needless retransmission. -/

def firstCopy : Datagram := packetBytes Sys.faultless.crc32 (dataPkt 0 [0x61] 0)

def firstAck : Datagram := packetBytes Sys.faultless.crc32 (controlPkt ptypeAck 1 2 0)

def firstArrival : List JointEvent :=
  [.sender .fileReadable, .sender .selectTimeout, .sender .selectTimeout,
    .receiver (.readable (some firstCopy) fun _ => 0)]

def lastSteps : List JointEvent :=
  [.sender (.socketReadable (some firstAck) fun _ => 0), .sender .selectTimeout,
    .sender .selectTimeout, .sender .fileReadable, .sender .selectTimeout]

def jointRun (events : List JointEvent) : Joint :=
  events.foldl (jointStep Sys.faultless) (Joint.init [0x61])

theorem firstArrival_reachable :
    JointReachable Sys.faultless [0x61] (jointRun firstArrival) := by
  refine Runs.reachable_along ⟨trivial, trivial, trivial,
    Or.inl ⟨(1, firstCopy), ?_, ?_, Or.inl rfl⟩, trivial⟩
  · decide +kernel
  · unfold ChunkInTime
    decide +kernel

theorem lastSteps_reachable :
    JointReachable Sys.faultless [0x61] (jointRun (firstArrival ++ lastSteps)) := by
  refine Runs.reachable_along ⟨trivial, trivial, trivial,
    Or.inl ⟨(1, firstCopy), ?_, ?_, Or.inl rfl⟩,
    Or.inl ⟨(1, firstAck), ?_, fun _ => ?_, rfl⟩, trivial, trivial, trivial, trivial, trivial⟩
  · decide +kernel
  · unfold ChunkInTime
    decide +kernel
  · decide +kernel
  · decide +kernel

theorem written_prefix_read_first :
    (jointRun firstArrival).receiver.state.written.flatten <+:
      (jointRun firstArrival).sender.state.reads.flatten :=
  written_prefix_read Sys.faultless_writesAll firstArrival_reachable

theorem written_all_returned_last :
    (jointRun (firstArrival ++ lastSteps)).sender.state.fileIn = [] ∧
      (jointRun (firstArrival ++ lastSteps)).sender.state.reads.flatten = [0x61] ∧
      (jointRun (firstArrival ++ lastSteps)).receiver.state.written.flatten = [0x61] :=
  written_all_returned Sys.faultless_writesAll lastSteps_reachable (by decide +kernel)

end SelectiveRepeat
