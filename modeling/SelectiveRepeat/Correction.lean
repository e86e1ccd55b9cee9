import SelectiveRepeat.Packet

/-! The other codec of the same packets, `format_segment/correction.c`: it goes by the number of bytes
received, rejects TR, and looks at a null payload pointer. The host and `malloc` are those of
`packet_implement.c`. -/

namespace SelectiveRepeat.Correction

open Bytes

structure Pkt where
  window : BitVec 5
  trFlag : BitVec 1
  type : BitVec 2
  seqNum : BitVec 8
  length : BitVec 16
  timestamp : BitVec 32
  crc1 : BitVec 32
  payload : Option (List Byte)
  crc2 : BitVec 32
deriving DecidableEq, Repr

def pktNew : Pkt := ⟨0, 0, 0, 0, 0, 0, 0, none, 0⟩

def pktGetTr (pkt : Pkt) : Nat := pkt.trFlag.toNat

def pktGetLength (pkt : Pkt) : BitVec 16 := pkt.length

def pktGetTimestamp (pkt : Pkt) : BitVec 32 := pkt.timestamp

def pktGetCrc1 (pkt : Pkt) : BitVec 32 := pkt.crc1

def pktGetPayload (pkt : Pkt) : Option (List Byte) :=
  if pktGetLength pkt = 0 then none else pkt.payload

def pktSetTr (pkt : Pkt) (tr : BitVec 8) : PktStatusCode × Pkt :=
  if tr ≠ 0 ∧ tr ≠ 1 then (.eTr, pkt) else (.pktOk, { pkt with trFlag := tr.setWidth 1 })

def pktSetLength (pkt : Pkt) (length : BitVec 16) : PktStatusCode × Pkt :=
  if length.toNat > 512 then (.eLength, pkt) else (.pktOk, { pkt with length })

def pktSetCrc1 (pkt : Pkt) (crc1 : BitVec 32) : PktStatusCode × Pkt := (.pktOk, { pkt with crc1 })

def pktSetCrc2 (pkt : Pkt) (crc2 : BitVec 32) : PktStatusCode × Pkt :=
  if pkt.payload ≠ none ∧ pkt.trFlag = 0 then (.pktOk, { pkt with crc2 }) else (.eUnconsistent, pkt)

def pktSetPayload (pkt : Pkt) (data : Option (List Byte)) (length : BitVec 16) :
    PktStatusCode × Pkt :=
  let pkt := if pkt.payload ≠ none then (pktSetLength { pkt with payload := none } 0).2 else pkt
  match data with
  | none =>
    if length = 0 then pktSetLength { pkt with payload := none } 0 else (.eUnconsistent, pkt)
  | some bytes =>
    if length = 0 then (.eUnconsistent, pkt)
    else if length.toNat ≤ 512 then
      pktSetLength { pkt with payload := some (bytes.take length.toNat) } length
    else (.eUnconsistent, pkt)

/-- First eight bytes of `struct pkt` as they lie in memory. -/
def headerImage (pkt : Pkt) : List Byte :=
  [pkt.type ++ pkt.trFlag ++ pkt.window, pkt.seqNum] ++ bytes16 pkt.length ++ bytes32 pkt.timestamp

/-- `memcpy(pkt, data, 12)` -/
def copyHeader (pkt : Pkt) (data : Memory) : Pkt :=
  { pkt with
    window := (data 0).extractLsb' 0 5
    trFlag := (data 0).extractLsb' 5 1
    type := (data 0).extractLsb' 6 2
    seqNum := data 1
    length := data.load16 2
    timestamp := data.load32 4
    crc1 := data.load32 8 }

/-- `int temp = len-16;` -/
def tempLength (len : BitVec 64) : Int := ((len - 16).setWidth 32).toInt

section

variable (crc32 : List Byte → BitVec 32)

/-- The end of `pkt_decode`: the payload and its checksum. -/
def decodePayload (data : Memory) (taillePayl : Nat) (pkt : Pkt) : PktStatusCode × Pkt :=
  if taillePayl ≠ 0 then
    let payload := data.slice 12 taillePayl
    let crc2 := ntohl (data.load32 (12 + taillePayl))
    if crc32 payload ≠ crc2 then (.eCrc, pkt)
    else
      match pktSetPayload pkt (some payload) (BitVec.ofNat 16 taillePayl) with
      | (err, pkt) =>
        if err ≠ .pktOk then (err, pkt)
        else
          match pktSetCrc2 pkt crc2 with
          | (err, pkt) => if err ≠ .pktOk then (err, pkt) else (.pktOk, pkt)
  else (.pktOk, pkt)

def pktDecode (data : Option Memory) (len : BitVec 64) (pkt : Option Pkt) :
    PktStatusCode × Option Pkt :=
  match data, pkt with
  | some data, some pkt =>
    if len.toNat < 12 then (.eUnconsistent, some pkt)
    else if len.toNat > 12 ∧ ¬tempLength len > 0 then (.eUnconsistent, some pkt)
    else
      let taillePayl := if len.toNat > 12 then (tempLength len).toNat else 0
      let pkt := copyHeader pkt data
      if pktGetTr pkt = 1 then (.eTr, some pkt)
      else
        match pktSetLength pkt (ntohs (pktGetLength pkt)) with
        | (status, pkt) =>
          -- `return err;`, where `err` is still 0
          if status ≠ .pktOk then (.pktOk, some pkt)
          else
            match pktSetCrc1 pkt (ntohl (pktGetCrc1 pkt)) with
            | (status, pkt) =>
              if status ≠ .pktOk then (.pktOk, some pkt)
              else if crc32 (data.slice 0 8) ≠ pktGetCrc1 pkt then (.eCrc, some pkt)
              else if taillePayl ≠ (pktGetLength pkt).toNat then (.eLength, some pkt)
              else if pkt.type ≠ 1 ∧ pkt.type ≠ 2 ∧ pkt.type ≠ 3 then (.eType, some pkt)
              else
                match decodePayload crc32 data taillePayl pkt with
                | (status, pkt) => (status, some pkt)
  | _, pkt => (.eUnconsistent, pkt)

/-- `pkt_encode`. It reads the seqnum of `pkt` before it tests for null, so `pkt` is a packet. -/
def pktEncode (pkt : Pkt) (buf : Option Memory) (len : Nat) : PktStatusCode × Option Memory × Nat :=
  match buf with
  | none => (.eNomem, none, len)
  | some buf =>
    if len = 0 then (.eNomem, some buf, len)
    else if len < 12 then (.eNomem, some buf, len)
    else if pktGetLength pkt ≠ 0 ∧ len < (pktGetLength pkt).toNat + 4 + 12 then
      (.eNomem, some buf, len)
    else
      let buf := buf.store 0 [pkt.type ++ pkt.trFlag ++ pkt.window, pkt.seqNum]
      let buf := buf.store 2 (bytes16 (htons (pktGetLength pkt)))
      let buf := buf.store 4 (bytes32 (pktGetTimestamp pkt))
      let temp := copyHeader pktNew buf
      match pktSetTr temp 0 with
      | (status, temp) =>
        if status ≠ .pktOk then (.eTr, some buf, len)
        else
          let crc1 := htonl (crc32 (headerImage temp))
          let buf := buf.store 8 (bytes32 crc1)
          if pktGetLength pkt ≠ 0 then
            let payload := ((pktGetPayload pkt).getD []).take (pktGetLength pkt).toNat
            let buf := buf.store 12 payload
            let crc2 := htonl (crc32 payload)
            let buf := buf.store (12 + (pktGetLength pkt).toNat) (bytes32 crc2)
            (.pktOk, some buf, 12 + (pktGetLength pkt).toNat + 4)
          else (.pktOk, some buf, 12)

end

end SelectiveRepeat.Correction
