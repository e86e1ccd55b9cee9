import SelectiveRepeat.Queue
import SelectiveRepeat.System

/-! The receiver, `receiver.c`: the window, the acknowledgments, `write_in_sequence`,
`read_to_list_r` and the loop of `process_receiver`. -/

namespace SelectiveRepeat

open Bytes

/-- The globals of `receiver.c`, the list of `process_receiver`, and what the program has
done so far through its system calls. -/
structure Receiver where
  waitedSeqnum : Int
  windowSize : Int
  lastTimestamp : BitVec 32
  list : List Pkt
  /-- The payloads written to `fd`, oldest first. -/
  written : List (List Byte)
  writeCalls : Nat
  /-- The datagrams sent, oldest first, each with the number of payloads written before it. -/
  sent : List (Nat × Datagram)

def Receiver.init : Receiver := ⟨0, 1, 0, [], [], 0, []⟩

def windowAdd (r : Receiver) : Receiver :=
  if r.windowSize < maxWindowSize then { r with windowSize := r.windowSize + 1 } else r

def windowDivide (r : Receiver) : Receiver :=
  if r.windowSize > 1 then { r with windowSize := r.windowSize / 2 } else r

/-- `send_ack`; no caller looks at its result. A datagram that `send` refuses is one that the
network loses. -/
def sendAck (sys : Sys) (r : Receiver) (pkt : Pkt) (timestamp : BitVec 32) : Receiver :=
  match pktSetTimestamp pkt timestamp with
  | (err1, pkt) =>
    if err1 ≠ .pktOk then r
    else
      let length := if pktGetLength pkt ≠ 0 then 12 + pktGetLength pkt + 4 else 12
      match pktEncode sys.crc32 (some pkt) (some fun _ => 0) length with
      | (.pktOk, some buff, length) =>
        { r with sent := r.sent ++ [(r.written.length, buff.slice 0 length)] }
      | _ => r

def createAck (r : Receiver) (seqnum : Int) (type : Nat) : Pkt :=
  let new := pktNew
  let new := (pktSetType new type).2
  let new := (pktSetSeqnum new (BitVec.ofInt 8 seqnum)).2
  let new := (pktSetPayload new none 0).2
  (pktSetWindow new (BitVec.ofInt 8 r.windowSize)).2

namespace Receiver

def checkInWindow (r : Receiver) (seqnum : Int) : Bool :=
  if seqnum ≥ r.waitedSeqnum then -- no 255 -> 0
    seqnum - r.waitedSeqnum ≤ r.windowSize
  else -- 255 -> 0
    255 + seqnum - r.waitedSeqnum ≤ r.windowSize

end Receiver

def writeInSequenceLoop (sys : Sys) : List Pkt → Receiver → Int × Receiver
  | [], r => (0, r)
  | packet :: runner, r =>
      if (pktGetSeqnum packet : Int) = r.waitedSeqnum then
        match sys.write r.writeCalls (pktGetLength packet) with
        | none => (-1, { r with writeCalls := r.writeCalls + 1 })
        | some writed =>
          let r := { r with
            writeCalls := r.writeCalls + 1
            written := r.written ++ [(pktGetPayload packet).take writed]
            waitedSeqnum := (r.waitedSeqnum + 1) % 256
            list := (popElementQueue r.list).2 }
          if r.list.length = 0 ∧ pktGetLength packet = 0 ∧
              (pktGetSeqnum packet : Int) = r.waitedSeqnum - 1 then (-10, r)
          else
            let r := windowAdd r
            let ack := createAck r r.waitedSeqnum ptypeAck
            writeInSequenceLoop sys runner (sendAck sys r ack r.lastTimestamp)
      else (0, r)

/-- `write_in_sequence`. Its callers have just inserted a packet; on an empty list the source
dereferences a null head. -/
def writeInSequence (sys : Sys) (r : Receiver) : Int × Receiver :=
  match r.list with
  | [] => (0, r)
  | head :: next =>
      if (pktGetSeqnum head : Int) > r.waitedSeqnum then (1, r)
      else writeInSequenceLoop sys (head :: next) r

/-- `read_to_list_r` from the packet checks on, when decoding has succeeded. -/
def readPacketR (sys : Sys) (r : Receiver) (pkt : Pkt) : Int × Receiver :=
  if pktGetLength pkt > maxPayloadSize then (-1, r)
  else if pktGetType pkt ≠ ptypeData then (-1, r)
  else
    let r := { r with lastTimestamp := pktGetTimestamp pkt }
    if pktGetTr pkt = 1 then
      let r := windowDivide r
      let nack := createAck r (pktGetSeqnum pkt) ptypeNack
      (0, sendAck sys r nack r.lastTimestamp)
    else if r.checkInWindow (pktGetSeqnum pkt) then
      match writeInSequence sys { r with list := addSpecificQueue r.list pkt } with
      | (notInSequence, r) =>
        if notInSequence = -1 then (-1, r)
        else if notInSequence = -10 then (-2, r)
        else if notInSequence = 1 then
          let ack := createAck r r.waitedSeqnum ptypeAck
          (0, sendAck sys r ack r.lastTimestamp)
        else (0, r)
    else if (pktGetSeqnum pkt : Int) = r.waitedSeqnum - 1 ∧ pktGetLength pkt = 0 ∧
        pktGetType pkt = ptypeData then
      let ack := createAck r (r.waitedSeqnum - 1) ptypeData
      (-2, sendAck sys r ack r.lastTimestamp)
    else
      let ack := createAck r r.waitedSeqnum ptypeAck
      (0, sendAck sys r ack r.lastTimestamp)

/-- `read_to_list_r`: `datagram` is what `recv` delivers, `none` when it fails. -/
def readToListR (sys : Sys) (r : Receiver) (datagram : Option Datagram) (stale : Memory) :
    Int × Receiver :=
  match datagram with
  | none => (0, r)
  | some datagram =>
    match pktDecode sys.crc32 (some (recvBuffer datagram stale)) (received datagram).length pktNew with
    | (err, pkt) => if err ≠ .pktOk then (-1, r) else readPacketR sys r pkt

inductive ReceiverEvent
  | selectTimeout
  | selectError
  | readable (datagram : Option Datagram) (stale : Memory)

structure ReceiverProcess where
  state : Receiver
  returned : Option Int

def ReceiverProcess.init : ReceiverProcess := ⟨Receiver.init, none⟩

def freeTimeout (r : Receiver) : Receiver := { r with list := [] }

def processReceiver (sys : Sys) (process : ReceiverProcess) (event : ReceiverEvent) :
    ReceiverProcess :=
  match process.returned with
  | some _ => process
  | none =>
    match event with
    | .selectTimeout => ⟨freeTimeout process.state, some 0⟩
    | .selectError => ⟨process.state, some (-1)⟩
    | .readable datagram stale =>
      match readToListR sys process.state datagram stale with
      | (err, state) => ⟨state, if err = -2 then some 0 else none⟩

end SelectiveRepeat
