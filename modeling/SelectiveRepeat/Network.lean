import SelectiveRepeat.Library.Runs
import SelectiveRepeat.ReceiverRuns
import SelectiveRepeat.SenderInvariant

/-! The sender and the receiver over a network that loses, repeats and reorders
datagrams and may cut one to its header. Whatever was sent can arrive, any number of
times, as long as it is not older than half a turn of the seqnums. -/

namespace SelectiveRepeat

open Bytes Circle

structure Joint where
  sender : SenderProcess
  receiver : ReceiverProcess

def Joint.init (input : List Byte) : Joint := ⟨SenderProcess.init input, ReceiverProcess.init⟩

inductive JointEvent
  | sender (event : SenderEvent)
  | receiver (event : ReceiverEvent)

def jointStep (sys : Sys) (joint : Joint) : JointEvent → Joint
  | .sender event => { joint with sender := processSender sys joint.sender event }
  | .receiver event => { joint with receiver := processReceiver sys joint.receiver event }

/-! A datagram in the log of its sender stands for every copy of it in the network. -/

def datagramType (datagram : Datagram) : Nat := ((datagram.getD 0 0).extractLsb' 6 2).toNat

def datagramSeqnum (datagram : Datagram) : Nat := (datagram.getD 1 0).toNat

/-- The number of the chunk in a datagram of the sender: the last one up to the chunks read
before it that has its seqnum. -/
def chunkNumber (entry : Nat × Datagram) : Nat := numberUpTo 256 entry.1 (datagramSeqnum entry.2)

/-- Less than 128 later chunks were read, each of which is first sent as it is read: where `send`
fails, that copy is one that the network loses. -/
def ChunkInTime (joint : Joint) (entry : Nat × Datagram) : Prop :=
  joint.sender.state.reads.length - (chunkNumber entry + 1) < 128

/-- The receiver has advanced by less than 128 since it sent this ACK; other answers may be of
any age. -/
def AnswerInTime (joint : Joint) (entry : Nat × Datagram) : Prop :=
  datagramType entry.2 = ptypeAck → joint.receiver.state.written.length - entry.1 < 128

/-- What the network may do: deliver a datagram that was sent, whole or cut to its header, or
deliver one whose corruption the checksums reveal. Time and the file are free. -/
def Permitted (sys : Sys) (joint : Joint) : JointEvent → Prop
  | .receiver (.readable (some datagram) stale) =>
      (∃ entry ∈ joint.sender.state.sent, ChunkInTime joint entry ∧
        (datagram = entry.2 ∨ datagram = cutToHeader entry.2)) ∨
      ∀ pkt, ¬Decodes sys datagram stale pkt
  | .sender (.socketReadable (some datagram) stale) =>
      (∃ entry ∈ joint.receiver.state.sent, AnswerInTime joint entry ∧ datagram = entry.2) ∨
      ∀ pkt, ¬Decodes sys datagram stale pkt
  | _ => True

abbrev JointReachable (sys : Sys) (input : List Byte) : Joint → Prop :=
  Runs.Reachable (jointStep sys) (Permitted sys) (Joint.init input)

/-! What a datagram in a log is. -/

theorem packetBytes_fields (crc32 : List Byte → BitVec 32) (pkt : Pkt) :
    datagramType (packetBytes crc32 pkt) = pktGetType pkt ∧
      datagramSeqnum (packetBytes crc32 pkt) = pktGetSeqnum pkt := by
  refine ⟨?_, rfl⟩
  show ((flagsByte pkt).extractLsb' 6 2).toNat = _
  rw [(flagsByte_fields pkt).2.2]
  rfl

/-- The payloads that the sender has sent so far, the empty one for the end of the file last. -/
def SenderProcess.transfers (process : SenderProcess) : List (List Byte) :=
  if process.stage = .returned 0 then process.state.reads ++ [[]] else process.state.reads

def Transfers (sys : Sys) (process : SenderProcess) (entry : Nat × Datagram) : Prop :=
  ∃ number chunk timestamp, process.transfers[number]? = some chunk ∧ chunk.length ≤ 512 ∧
    entry.2 = packetBytes sys.crc32 (dataPkt number chunk timestamp) ∧
      number ≤ entry.1 ∧ entry.1 ≤ number + 31 ∧ entry.1 ≤ process.state.reads.length

theorem chunkNumber_eq (sys : Sys) {entry : Nat × Datagram} {number : Nat} {chunk : List Byte}
    {timestamp : BitVec 32} (bytes : entry.2 = packetBytes sys.crc32 (dataPkt number chunk timestamp))
    (le : number ≤ entry.1) (near : entry.1 ≤ number + 31) : chunkNumber entry = number := by
  rw [chunkNumber, bytes, (packetBytes_fields _ _).2, dataPkt_getSeqnum]
  exact numberUpTo_of_le le (by omega)

theorem transfers_of_running {process : SenderProcess} (running : process.stage ≠ .returned 0) :
    process.transfers = process.state.reads := if_neg running

theorem transfers_of_finished {process : SenderProcess} (finished : process.stage = .returned 0) :
    process.transfers = process.state.reads ++ [[]] := if_pos finished

theorem SenderProcess.Valid.transfers {sys : Sys} {input : List Byte} {process : SenderProcess}
    (valid : process.Valid sys input) {entry : Nat × Datagram} (sent : entry ∈ process.state.sent) :
    Transfers sys process entry := by
  by_cases finished : process.stage = .returned 0
  · have ended : SenderFinished sys input process.state := by
      rwa [SenderProcess.Valid, if_pos finished] at valid
    obtain ⟨before, timestamp, chunks, whole⟩ := ended.sent
    rw [Transfers, transfers_of_finished finished]
    rw [whole] at sent
    rcases List.mem_append.mp sent with old | last
    · obtain ⟨number, chunk, stamp, found, bytes, lt, near, bound⟩ := chunks entry old
      refine ⟨number, chunk, stamp, ?_, (ended.chunks.get found).2, bytes, Nat.le_of_lt lt, near,
        bound⟩
      rw [List.getElem?_append_left (by omega), found]
    · obtain rfl := List.mem_singleton.mp last
      exact ⟨process.state.reads.length, [], timestamp, by simp, by decide, rfl, Nat.le_refl _,
        Nat.le_add_right _ _, Nat.le_refl _⟩
  · have running := valid.running finished
    rw [Transfers, transfers_of_running finished]
    obtain ⟨number, chunk, stamp, found, bytes, lt, near, bound⟩ := running.sent entry sent
    exact ⟨number, chunk, stamp, found, (running.chunks.get found).2, bytes, Nat.le_of_lt lt, near,
      bound⟩

end SelectiveRepeat
