import SelectiveRepeat.Queue
import SelectiveRepeat.System

/-! The sender, `sender.c`: `send_packet`, the acknowledgments, the retransmission
timeout, reading the input, and the loop of `process_sender`. -/

namespace SelectiveRepeat

open Bytes

abbrev retransmissionTimer : Nat := 2

/-- The globals of `sender.c`, the list of `process_sender`, and what the program has done so
far through its system calls. -/
structure Sender where
  seqnum : Int
  windowSize : Int
  seqnumEOF : Int
  pktFin : Option Pkt
  list : List Pkt
  /-- The input that is not read yet. -/
  fileIn : List Byte
  /-- The chunks that `read` returned, oldest first. -/
  reads : List (List Byte)
  readCalls : Nat
  timeCalls : Nat
  sendCalls : Nat
  /-- The datagrams sent, oldest first, each with the number of chunks read before it. -/
  sent : List (Nat × Datagram)

def Sender.init (input : List Byte) : Sender := ⟨0, 1, 0, none, [], input, [], 0, 0, 0, []⟩

def sendPacket (sys : Sys) (s : Sender) (pkt : Pkt) : Int × Pkt × Sender :=
  let aLo := sys.time s.timeCalls
  let s := { s with timeCalls := s.timeCalls + 1 }
  match pktSetTimestamp pkt aLo with
  | (err1, pkt) =>
    if err1 ≠ .pktOk then (-1, pkt, s)
    else
      let length := if pktGetLength pkt ≠ 0 then 12 + pktGetLength pkt + 4 else 12
      match pktEncode sys.crc32 (some pkt) (some fun _ => 0) length with
      | (.pktOk, some buff, length) =>
        let call := s.sendCalls
        let s := { s with sendCalls := call + 1 }
        if sys.send call then
          (0, pkt, { s with sent := s.sent ++ [(s.reads.length, buff.slice 0 length)] })
        else (-1, pkt, s)
      | _ => (-1, pkt, s)

/-- The loop of `packet_checked`: `runner` walks over the nodes that are popped off `list`. -/
def packetCheckedLoop (seqnumEOF seqnumAck : Int) : List Pkt → List Pkt → Int × List Pkt
  | [], list => (0, list)
  | packet :: runner, list =>
      let seqn : Int := pktGetSeqnum packet
      if ¬(255 + seqnumAck - seqn ≤ maxWindowSize ∨
          (seqnumAck - seqn > 0 ∧ seqnumAck - seqn ≤ maxWindowSize)) then (0, list)
      else if list.length = 1 ∧ pktGetLength packet = 0 ∧ seqnumEOF = 1 then (1, list)
      else
        match popElementQueue list with
        | (none, list) => (-1, list)
        | (some _, list) => packetCheckedLoop seqnumEOF seqnumAck runner list

def packetChecked (s : Sender) (seqnumAck : Int) : Int × Sender :=
  match packetCheckedLoop s.seqnumEOF seqnumAck s.list s.list with
  | (err, list) => (err, { s with list })

def checkAck (sys : Sys) (s : Sender) (datagram : Option Datagram) (stale : Memory) : Int × Sender :=
  match datagram with
  | none => (-1, s)
  | some datagram =>
    match pktDecode sys.crc32 (some (recvBuffer datagram stale)) (received datagram).length pktNew with
    | (err, pkt) =>
      if err ≠ .pktOk then (-1, s)
      else if pktGetTr pkt = 1 then (-1, s)
      else
        let s := { s with windowSize := pktGetWindow pkt }
        let seqnumAck : Int := pktGetSeqnum pkt
        if pktGetType pkt = ptypeAck then
          match packetChecked s seqnumAck with
          | (err, s) => if err = -1 then (0, s) else if err = 1 then (1, s) else (0, s)
        else if pktGetType pkt = ptypeNack then (0, s)
        else (-1, s)

namespace Sender

def checkInWindow (s : Sender) (seqnumCheck first : Int) : Bool :=
  if seqnumCheck ≥ first then -- no 255 -> 0
    seqnumCheck - first ≤ s.windowSize - 1
  else -- 255 -> 0
    255 + seqnumCheck - first ≤ s.windowSize - 1

end Sender

/-- The loop of `check_timeout` on the nodes from `runner` on: the result, these nodes with the
timestamps of the packets sent again, and the sender. -/
def checkTimeoutLoop (sys : Sys) (aLo : BitVec 32) (first : Int) (size : Nat) :
    List Pkt → Sender → Int × List Pkt × Sender
  | [], s => (0, [], s)
  | packet :: runner, s =>
      if ¬s.checkInWindow (pktGetSeqnum packet) first then (0, packet :: runner, s)
      else if (aLo - pktGetTimestamp packet).toNat ≥ retransmissionTimer then
        if pktGetLength packet = 0 ∧ s.seqnumEOF = 1 ∧ size = 1 then
          (1, packet :: runner, { s with pktFin := none })
        else
          match sendPacket sys s packet with
          | (_, packet, s) =>
            match checkTimeoutLoop sys aLo first size runner s with
            | (result, runner, s) => (result, packet :: runner, s)
      else
        match checkTimeoutLoop sys aLo first size runner s with
        | (result, runner, s) => (result, packet :: runner, s)

def checkTimeout (sys : Sys) (s : Sender) : Int × Sender :=
  let aLo := sys.time s.timeCalls
  let s := { s with timeCalls := s.timeCalls + 1 }
  match s.list with
  | [] => (0, s)
  | head :: next =>
    match checkTimeoutLoop sys aLo (pktGetSeqnum head) s.list.length (head :: next) s with
    | (result, list, s) => (result, { s with list })

/-- `read(fd, payload, MAX_PAYLOAD_SIZE)`: `none` is -1, the empty list the end of the file. -/
def readFile (sys : Sys) (s : Sender) : Option (List Byte) × Sender :=
  let call := s.readCalls
  let s := { s with readCalls := call + 1 }
  match sys.read call with
  | none => (none, s)
  | some most =>
    let chunk := s.fileIn.take (max 1 (min most maxPayloadSize))
    (some chunk,
      { s with
        fileIn := s.fileIn.drop chunk.length
        reads := if chunk = [] then s.reads else s.reads ++ [chunk] })

def readToList (sys : Sys) (s : Sender) : Sender :=
  if (s.list.length : Int) ≥ s.windowSize then s
  else
    match readFile sys s with
    | (none, s) => s
    | (some payload, s) =>
      let readed := payload.length
      match pktSetType pktNew ptypeData with
      | (err2, pkt) =>
      match pktSetTr pkt 0 with
      | (err3, pkt) =>
      match pktSetWindow pkt 0 with
      | (err4, pkt) =>
      match pktSetSeqnum pkt (BitVec.ofInt 8 s.seqnum) with
      | (err1, pkt) =>
      match pktSetPayload pkt (some payload) (BitVec.ofNat 16 readed) with
      | (err5, pkt) =>
        -- the packet of the end of the file is kept aside, not sent
        let s := if readed = 0 then { s with seqnumEOF := 1, pktFin := some pkt } else s
        if err1 ≠ .pktOk ∨ err2 ≠ .pktOk ∨ err3 ≠ .pktOk ∨ err4 ≠ .pktOk ∨ err5 ≠ .pktOk then s
        else if readed ≠ 0 then
          match sendPacket sys s pkt with
          | (_, pkt, s) =>
            { s with list := addElementQueue s.list pkt, seqnum := (s.seqnum + 1) % 256 }
        else s

/-- `final_send`. It is called only after the end of the file was read, which sets `pktFin`. -/
def finalSend (sys : Sys) (s : Sender) : Int × Sender :=
  if s.list.length = 0 then
    match s.pktFin with
    | none => (-1, s)
    | some pktFin =>
      match sendPacket sys s pktFin with
      | (err, pktFin, s) =>
        if err ≠ 0 then (-1, { s with pktFin := some pktFin }) else (0, { s with pktFin := none })
  else (1, s)

/-- Where `process_sender` stands: before `select`, before the test for the end of the file,
before the timeouts, or returned. -/
inductive SenderStage
  | select
  | endOfFile
  | timeouts
  | returned (code : Int)
deriving DecidableEq, Repr

/-- What `select` reports to `process_sender`, which looks at the socket first. -/
inductive SenderEvent
  | selectError
  | socketReadable (datagram : Option Datagram) (stale : Memory)
  | fileReadable
  | selectTimeout

structure SenderProcess where
  state : Sender
  stage : SenderStage

def SenderProcess.init (input : List Byte) : SenderProcess := ⟨Sender.init input, .select⟩

/-- One stage of a turn of the loop of `process_sender`; only `select` looks at the event. -/
def processSender (sys : Sys) (process : SenderProcess) (event : SenderEvent) : SenderProcess :=
  let s := process.state
  match process.stage with
  | .select =>
    match event with
    | .selectError => ⟨s, .returned (-1)⟩
    | .socketReadable datagram stale =>
      match checkAck sys s datagram stale with
      | (retour, s) => ⟨s, if retour = 1 then .returned 0 else .endOfFile⟩
    | .fileReadable => ⟨if s.seqnumEOF = 0 then readToList sys s else s, .endOfFile⟩
    | .selectTimeout => ⟨s, .endOfFile⟩
  | .endOfFile =>
    if s.seqnumEOF = 1 then
      match finalSend sys s with
      | (fin, s) => ⟨s, if fin = 0 then .returned 0 else .timeouts⟩
    else ⟨s, .timeouts⟩
  | .timeouts =>
    match checkTimeout sys s with
    | (timeOut, s) => ⟨s, if timeOut = 1 then .returned 0 else .select⟩
  | .returned code => ⟨s, .returned code⟩

end SelectiveRepeat
