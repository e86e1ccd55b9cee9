import SelectiveRepeat.JointInvariant
import SelectiveRepeat.Library.StampedLog

/-! How the logs of the two programs grow: every step of the sender stamps what it sends with the
number of chunks read, and every step of the receiver with the number of payloads written. -/

namespace SelectiveRepeat

open Bytes StampedLog

def SenderLogs (s after : Sender) : Prop :=
  Extends s.reads.length s.sent after.reads.length after.sent

def ReceiverLogs (r after : Receiver) : Prop :=
  Extends r.written.length r.sent after.written.length after.sent

section

variable {sys : Sys} {s after : Sender} {base : Nat}

theorem transmitted_logs (sys : Sys) (s : Sender) (pkt : Pkt) :
    SenderLogs s (transmitted sys s pkt) := by
  simp only [SenderLogs, transmitted]
  split
  · exact Extends.single _ _ _
  · exact Extends.refl _ _

theorem Retransmits.logs {aLo : BitVec 32} {nodes nodes' : List Pkt}
    (retransmits : Retransmits sys aLo base nodes s nodes' after) : SenderLogs s after := by
  induction retransmits with
  | stops => exact Extends.refl _ _
  | passes _ ih => exact ih
  | again _ _ _ ih => exact (transmitted_logs sys _ _).trans ih

theorem AckOutcome.logs {datagram : Option Datagram} {stale : Memory} {code : Int}
    (outcome : AckOutcome sys s base datagram stale code after) : SenderLogs s after := by
  cases outcome <;> exact Extends.refl _ _

theorem SenderOutcome.logs {stage stage' : SenderStage} {event : SenderEvent}
    (outcome : SenderOutcome sys s base stage event stage' after) : SenderLogs s after := by
  cases outcome with
  | rests _ _ => exact Extends.refl _ _
  | answered outcome => exact outcome.logs
  | readFailed => exact Extends.refl _ _
  | endRead _ => exact Extends.refl _ _
  | @chunkRead chunk rest _ _ _ _ =>
      have taken : SenderLogs s (chunkTaken s chunk rest) := Extends.count (by simp [chunkTaken]) _
      exact taken.trans (transmitted_logs sys (chunkTaken s chunk rest) _)
  | finFailed _ _ _ => exact transmitted_logs sys s _
  | finSent _ _ _ => exact transmitted_logs sys s _
  | retransmits retransmits => exact retransmits.logs

theorem processSender_logs (sys : Sys) {process : SenderProcess} {input : List Byte}
    (valid : process.Valid sys input) (event : SenderEvent) :
    SenderLogs process.state (processSender sys process event).state := by
  obtain ⟨base, _, outcome⟩ := processSender_outcome sys valid event
  exact outcome.logs

end

section

variable (sys : Sys)

theorem sendAck_logs (r : Receiver) (pkt : Pkt) (timestamp : BitVec 32) :
    ReceiverLogs r (sendAck sys r pkt timestamp) := by
  simp only [sendAck]
  split
  · exact Extends.refl _ _
  · split
    · exact Extends.single _ _ _
    · exact Extends.refl _ _

theorem windowAdd_logs (r : Receiver) : ReceiverLogs r (windowAdd r) := by
  rw [windowAdd]
  split <;> exact Extends.refl _ _

theorem writeInSequenceLoop_logs (runner : List Pkt) (r : Receiver) :
    ReceiverLogs r (writeInSequenceLoop sys runner r).2 := by
  induction runner generalizing r with
  | nil => exact Extends.refl _ _
  | cons packet runner ih =>
      simp only [writeInSequenceLoop]
      split
      · split
        · exact Extends.refl _ _
        · next writed _ =>
            have wrote : ReceiverLogs r { r with
                writeCalls := r.writeCalls + 1
                written := r.written ++ [(pktGetPayload packet).take writed]
                waitedSeqnum := (r.waitedSeqnum + 1) % 256
                list := (popElementQueue r.list).2 } := Extends.count (by simp) _
            split
            · exact wrote
            · exact ((wrote.trans (windowAdd_logs _)).trans (sendAck_logs sys _ _ _)).trans (ih _)
      · exact Extends.refl _ _

theorem writeInSequence_logs (r : Receiver) : ReceiverLogs r (writeInSequence sys r).2 := by
  simp only [writeInSequence]
  split
  · exact Extends.refl _ _
  · split
    · exact Extends.refl _ _
    · exact writeInSequenceLoop_logs sys _ r

theorem windowDivide_logs (r : Receiver) : ReceiverLogs r (windowDivide r) := by
  rw [windowDivide]
  split <;> exact Extends.refl _ _

theorem readPacketR_logs (r : Receiver) (pkt : Pkt) : ReceiverLogs r (readPacketR sys r pkt).2 := by
  simp only [readPacketR]
  split
  · exact Extends.refl _ _
  split
  · exact Extends.refl _ _
  split
  · exact (windowDivide_logs { r with lastTimestamp := pktGetTimestamp pkt }).trans
      (sendAck_logs sys _ _ _)
  split
  · have wrote := writeInSequence_logs sys
      { r with lastTimestamp := pktGetTimestamp pkt, list := addSpecificQueue r.list pkt }
    split
    · exact wrote
    split
    · exact wrote
    split
    · exact wrote.trans (sendAck_logs sys _ _ _)
    · exact wrote
  split
  · exact sendAck_logs sys { r with lastTimestamp := pktGetTimestamp pkt } _ _
  · exact sendAck_logs sys { r with lastTimestamp := pktGetTimestamp pkt } _ _

theorem processReceiver_logs (process : ReceiverProcess) (event : ReceiverEvent) :
    ReceiverLogs process.state (processReceiver sys process event).state := by
  simp only [processReceiver]
  split
  · exact Extends.refl _ _
  · cases event with
    | selectTimeout => exact Extends.refl _ _
    | selectError => exact Extends.refl _ _
    | readable datagram stale =>
        simp only [readToListR]
        split
        · exact Extends.refl _ _
        · split
          · exact Extends.refl _ _
          · exact readPacketR_logs sys _ _

end

end SelectiveRepeat
