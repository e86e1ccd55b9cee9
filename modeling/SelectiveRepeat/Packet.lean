import SelectiveRepeat.Library.Bytes

/-! The packet structure of `packet_implement.c`, its accessors, `pkt_decode` and
`pkt_encode`. The host is little-endian and lays bit-fields out from the low bit,
as the x86 build of the source does. `malloc` succeeds. A null payload pointer is
the empty list; the `crc32` of zlib is a parameter. -/

namespace SelectiveRepeat

open Bytes

abbrev Datagram := List Byte

abbrev maxPayloadSize : Nat := 512

abbrev maxWindowSize : Nat := 31

inductive PktStatusCode
  | pktOk | eType | eTr | eLength | eCrc | eWindow | eSeqnum | eNomem | eNoheader | eUnconsistent
deriving DecidableEq, Repr

/-! `ptypes_t` -/

abbrev ptypeData : Nat := 1

abbrev ptypeAck : Nat := 2

abbrev ptypeNack : Nat := 3

structure Pkt where
  window : BitVec 5
  truncated : BitVec 1
  type : BitVec 2
  seqnum : BitVec 8
  length : BitVec 16
  timestamp : BitVec 32
  crc1 : BitVec 32
  payload : List Byte
  crc2 : BitVec 32
deriving DecidableEq, Repr

def pktNew : Pkt := ⟨0, 0, 0, 0, 0, 0, 0, [], 0⟩

def pktGetType (pkt : Pkt) : Nat := pkt.type.toNat

def pktGetTr (pkt : Pkt) : Nat := pkt.truncated.toNat

def pktGetWindow (pkt : Pkt) : Nat := pkt.window.toNat

def pktGetSeqnum (pkt : Pkt) : Nat := pkt.seqnum.toNat

def pktGetLength (pkt : Pkt) : Nat := pkt.length.toNat

def pktGetTimestamp (pkt : Pkt) : BitVec 32 := pkt.timestamp

def pktGetPayload (pkt : Pkt) : List Byte := if pkt.length ≠ 0 then pkt.payload else []

def pktSetType (pkt : Pkt) (type : Nat) : PktStatusCode × Pkt :=
  if type > 3 then (.eType, pkt) else (.pktOk, { pkt with type := BitVec.ofNat 2 type })

def pktSetTr (pkt : Pkt) (tr : BitVec 8) : PktStatusCode × Pkt :=
  if tr.toNat > 1 then (.eTr, pkt) else (.pktOk, { pkt with truncated := tr.setWidth 1 })

def pktSetWindow (pkt : Pkt) (window : BitVec 8) : PktStatusCode × Pkt :=
  if window.toNat > maxWindowSize then (.eWindow, pkt)
  else (.pktOk, { pkt with window := window.setWidth 5 })

def pktSetSeqnum (pkt : Pkt) (seqnum : BitVec 8) : PktStatusCode × Pkt :=
  (.pktOk, { pkt with seqnum })

def pktSetLength (pkt : Pkt) (length : BitVec 16) : PktStatusCode × Pkt :=
  if length.toNat > maxPayloadSize then (.eLength, pkt) else (.pktOk, { pkt with length })

def pktSetTimestamp (pkt : Pkt) (timestamp : BitVec 32) : PktStatusCode × Pkt :=
  (.pktOk, { pkt with timestamp })

/-- `data` is the memory behind the pointer, `none` a null pointer. -/
def pktSetPayload (pkt : Pkt) (data : Option (List Byte)) (length : BitVec 16) :
    PktStatusCode × Pkt :=
  if length.toNat > maxPayloadSize then (.eLength, pkt)
  else
    let pkt := if pkt.length.toNat > 0 then { pkt with length := 0 } else pkt
    match data with
    | none => (.pktOk, { pkt with length := 0, payload := [] })
    | some bytes => (.pktOk, { pkt with payload := bytes.take length.toNat, length })

/-! Network byte order -/

def htons (word : BitVec 16) : BitVec 16 := swap16 word

def ntohs (word : BitVec 16) : BitVec 16 := swap16 word

def htonl (word : BitVec 32) : BitVec 32 := swap32 word

def ntohl (word : BitVec 32) : BitVec 32 := swap32 word

def flagsByte (pkt : Pkt) : Byte := pkt.type ++ pkt.truncated ++ pkt.window

/-- First eight bytes of `struct pkt` as they lie in memory. -/
def headerImage (pkt : Pkt) : List Byte :=
  [flagsByte pkt, pkt.seqnum] ++ bytes16 pkt.length ++ bytes32 pkt.timestamp

/-- `memcpy(pkt, data, sizeof(uint32_t))` -/
def copyFirstWord (pkt : Pkt) (data : Memory) : Pkt :=
  { pkt with
    window := (data 0).extractLsb' 0 5
    truncated := (data 0).extractLsb' 5 1
    type := (data 0).extractLsb' 6 2
    seqnum := data 1
    length := data.load16 2 }

section

variable (crc32 : List Byte → BitVec 32)

/-- `pkt_decode`: the status and the structure behind `pkt` after the call. The
number of received bytes `len` is an argument that the body never uses. -/
def pktDecode (data : Option Memory) (_len : Nat) (pkt : Pkt) : PktStatusCode × Pkt :=
  match data with
  | none => (.eUnconsistent, pkt)
  | some data =>
    let pkt := copyFirstWord pkt data
    if pkt.type.toNat < 1 ∨ pkt.type.toNat > 3 then (.eType, pkt)
    else if pkt.truncated ≠ 0 ∧ pkt.type.toNat ≠ ptypeData then (.eType, pkt)
    else
      let pkt := { pkt with length := ntohs pkt.length }
      if pkt.length.toNat > maxPayloadSize then (.eLength, pkt)
      else
        let pkt := { pkt with timestamp := data.load32 4 }
        let pkt := { pkt with crc1 := ntohl (data.load32 8) }
        let crcLoad := pkt.crc1
        let flag := pkt.truncated
        match pktSetTr pkt 0 with
        | (status, pkt) =>
          if status ≠ .pktOk then (.eTr, pkt)
          else
            -- back to network order: the checksum runs over the bytes as received
            let pkt := { pkt with length := htons pkt.length }
            let crc := crc32 (headerImage pkt)
            let pkt := { pkt with truncated := flag }
            if crc ≠ crcLoad then (.eCrc, pkt)
            else
              let pkt := { pkt with length := ntohs pkt.length }
              let taille := pkt.length.toNat
              if taille ≠ 0 then
                let payload := data.slice 12 taille
                let crc2 := ntohl (data.load32 (12 + taille))
                if crc32 payload ≠ crc2 then (.eCrc, (pktSetLength pkt 0).2)
                else (.pktOk, { pkt with payload, crc2 })
              else (.pktOk, pkt)

/-- `pkt_encode`: the status, the buffer after the call and `*len`. -/
def pktEncode (pkt : Option Pkt) (buf : Option Memory) (len : Nat) :
    PktStatusCode × Option Memory × Nat :=
  match buf with
  | none => (.eNomem, none, len)
  | some buf =>
    if len = 0 then (.eNomem, some buf, len)
    else
      match pkt with
      | none => (.pktOk, some buf, len)
      | some pkt =>
        let total := 12
        let total := if pkt.crc2 ≠ 0 then total + 4 else total
        let total := if pkt.length.toNat > 0 then total + pkt.length.toNat else total
        if len < total then (.eNomem, some buf, len)
        else
          let buf := buf.store 0 [flagsByte pkt, pkt.seqnum]
          let length := htons pkt.length
          let buf := buf.store 2 (bytes16 length)
          let buf := buf.store 4 (bytes32 pkt.timestamp)
          let temp := { pkt with length := htons pkt.length }
          match pktSetTr temp 0 with
          | (status, temp) =>
            if status ≠ .pktOk then (.eTr, some buf, len)
            else
              let crc1 := htonl (crc32 (headerImage temp))
              let buf := buf.store 8 (bytes32 crc1)
              if pkt.length.toNat ≠ 0 then
                let payload := pkt.payload.take pkt.length.toNat
                let buf := buf.store 12 payload
                let crc2 := htonl (crc32 payload)
                let buf := buf.store (12 + pkt.length.toNat) (bytes32 crc2)
                (.pktOk, some buf, 12 + pkt.length.toNat + 4)
              else (.pktOk, some buf, 12)

end

end SelectiveRepeat
