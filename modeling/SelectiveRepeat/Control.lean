import SelectiveRepeat.PacketRoundTrip
import SelectiveRepeat.Receiver

/-! The packets that the two programs make: the DATA packets of the sender, and what
`create_ack` and `send_ack` of the receiver put on the wire. -/

namespace SelectiveRepeat

open Bytes

/-- The packet that the sender makes of a chunk; the empty chunk is the end of the file. -/
def dataPkt (number : Nat) (payload : List Byte) (timestamp : BitVec 32) : Pkt :=
  { pktNew with
    type := BitVec.ofNat 2 ptypeData
    seqnum := BitVec.ofNat 8 number
    length := BitVec.ofNat 16 payload.length
    timestamp
    payload }

theorem dataPkt_getLength {payload : List Byte} (short : payload.length ≤ 512) (number : Nat)
    (timestamp : BitVec 32) : pktGetLength (dataPkt number payload timestamp) = payload.length := by
  simp only [pktGetLength, dataPkt, BitVec.toNat_ofNat]
  exact Nat.mod_eq_of_lt (by omega)

theorem dataPkt_nonempty {payload : List Byte} (size : 1 ≤ payload.length ∧ payload.length ≤ 512)
    (number : Nat) (timestamp : BitVec 32) : pktGetLength (dataPkt number payload timestamp) ≠ 0 := by
  rw [dataPkt_getLength size.2]
  omega

theorem dataPkt_valid {payload : List Byte} (short : payload.length ≤ 512) (number : Nat)
    (timestamp : BitVec 32) : (dataPkt number payload timestamp).Valid := by
  have length := dataPkt_getLength short number timestamp
  rw [pktGetLength] at length
  refine ⟨show BitVec.ofNat 2 ptypeData ≠ 0 by decide, fun truncated => absurd rfl truncated, ?_,
    length.symm⟩
  rw [length]
  exact short

theorem dataPkt_getSeqnum (number : Nat) (payload : List Byte) (timestamp : BitVec 32) :
    pktGetSeqnum (dataPkt number payload timestamp) = number % 256 := by
  simp [pktGetSeqnum, dataPkt]

theorem dataPkt_getPayload {payload : List Byte} (short : payload.length ≤ 512) (number : Nat)
    (timestamp : BitVec 32) : pktGetPayload (dataPkt number payload timestamp) = payload := by
  have length := dataPkt_getLength short number timestamp
  rw [pktGetLength] at length
  rw [pktGetPayload]
  split_ifs with nonempty
  · rfl
  · rw [not_not.mp nonempty] at length
    exact (List.eq_nil_of_length_eq_zero length.symm).symm

def controlPkt (type seqnum window : Nat) (timestamp : BitVec 32) : Pkt :=
  { pktNew with
    window := BitVec.ofNat 5 window
    type := BitVec.ofNat 2 type
    seqnum := BitVec.ofNat 8 seqnum
    timestamp }

theorem controlPkt_valid {type : Nat} (positive : 1 ≤ type) (small : type ≤ 3)
    (seqnum window : Nat) (timestamp : BitVec 32) :
    (controlPkt type seqnum window timestamp).Valid := by
  refine ⟨?_, fun truncated => absurd rfl truncated, Nat.zero_le _, rfl⟩
  intro noType
  have residue := congrArg BitVec.toNat noType
  simp [controlPkt] at residue
  omega

theorem controlPkt_getSeqnum (type seqnum window : Nat) (timestamp : BitVec 32) :
    pktGetSeqnum (controlPkt type seqnum window timestamp) = seqnum % 256 := by
  simp [pktGetSeqnum, controlPkt]

theorem controlPkt_getWindow {window : Nat} (small : window ≤ 31) (type seqnum : Nat)
    (timestamp : BitVec 32) :
    pktGetWindow (controlPkt type seqnum window timestamp) = window := by
  simp only [pktGetWindow, controlPkt, BitVec.toNat_ofNat]
  exact Nat.mod_eq_of_lt (by omega)

theorem controlPkt_getType {type : Nat} (small : type ≤ 3) (seqnum window : Nat)
    (timestamp : BitVec 32) : pktGetType (controlPkt type seqnum window timestamp) = type := by
  simp only [pktGetType, controlPkt, BitVec.toNat_ofNat]
  exact Nat.mod_eq_of_lt (by omega)

structure Receiver.WindowValid (r : Receiver) : Prop where
  low : 1 ≤ r.windowSize
  high : r.windowSize ≤ 31

theorem pktSetPayload_none (pkt : Pkt) :
    pktSetPayload pkt none 0 = (.pktOk, { pkt with length := 0, payload := [] }) := by
  rw [pktSetPayload, if_neg (by decide)]
  split_ifs <;> rfl

theorem pktSetWindow_ofNat (pkt : Pkt) {window : Nat} (small : window ≤ 31) :
    pktSetWindow pkt (BitVec.ofNat 8 window) =
      (.pktOk, { pkt with window := BitVec.ofNat 5 window }) := by
  have inField : ¬(BitVec.ofNat 8 window).toNat > 31 := by
    rw [BitVec.toNat_ofNat]
    omega
  have setWidth : (BitVec.ofNat 8 window).setWidth 5 = BitVec.ofNat 5 window := by
    apply BitVec.eq_of_toNat_eq
    simp only [BitVec.toNat_setWidth, BitVec.toNat_ofNat]
    omega
  rw [pktSetWindow, if_neg inField, setWidth]

theorem createAck_eq {r : Receiver} (valid : r.WindowValid) (seqnum : Nat) {type : Nat}
    (small : type ≤ 3) :
    createAck r seqnum type = controlPkt type seqnum r.windowSize.toNat 0 := by
  obtain ⟨low, high⟩ := valid
  obtain ⟨window, same⟩ := Int.eq_ofNat_of_zero_le (show 0 ≤ r.windowSize by omega)
  simp only [createAck, same, BitVec.ofInt_natCast, pktSetPayload_none,
    pktSetWindow_ofNat _ (show window ≤ 31 by omega), pktSetSeqnum, pktSetType,
    if_neg (show ¬type > 3 by omega), Int.toNat_natCast, controlPkt]
  rfl

theorem sendAck_eq (sys : Sys) (r : Receiver) (type seqnum window : Nat) (old timestamp : BitVec 32) :
    sendAck sys r (controlPkt type seqnum window old) timestamp =
      { r with sent := r.sent ++
          [(r.written.length, packetBytes sys.crc32 (controlPkt type seqnum window timestamp))] } := by
  have encoded := pktEncode_eq sys.crc32 (controlPkt type seqnum window timestamp) (fun _ => 0) 12 rfl
    (Nat.le_refl _) fun _ => rfl
  have wireSize : (controlPkt type seqnum window timestamp).wireSize = 12 := rfl
  have size := packetBytes_length sys.crc32 (controlPkt type seqnum window timestamp) rfl
  have restamped : { controlPkt type seqnum window old with timestamp } =
      controlPkt type seqnum window timestamp := rfl
  have noLength : ¬pktGetLength (controlPkt type seqnum window timestamp) ≠ 0 := fun some => some rfl
  simp only [sendAck, pktSetTimestamp, restamped, ne_eq, not_true_eq_false, if_false,
    if_neg noLength, encoded, wireSize]
  rw [← wireSize, ← size, slice_store_self]

/-- What the receiver sends when `number` payloads are written: an ACK that waits for the next. -/
def ackEntry (sys : Sys) (number window : Nat) (timestamp : BitVec 32) : Nat × Datagram :=
  (number, packetBytes sys.crc32 (controlPkt ptypeAck number window timestamp))

theorem ofNat_residue (number : Nat) : BitVec.ofNat 8 (number % 256) = BitVec.ofNat 8 number := by
  apply BitVec.eq_of_toNat_eq
  simp

theorem sendAck_waited (sys : Sys) {r : Receiver} (valid : r.WindowValid)
    (waited : r.waitedSeqnum = (r.written.length % 256 : Nat)) (timestamp : BitVec 32) :
    sendAck sys r (createAck r r.waitedSeqnum ptypeAck) timestamp =
      { r with sent := r.sent ++
          [ackEntry sys r.written.length r.windowSize.toNat timestamp] } := by
  have residue : controlPkt ptypeAck (r.written.length % 256) r.windowSize.toNat timestamp =
      controlPkt ptypeAck r.written.length r.windowSize.toNat timestamp := by
    simp only [controlPkt, ofNat_residue]
  have ack : createAck r r.waitedSeqnum ptypeAck =
      controlPkt ptypeAck (r.written.length % 256) r.windowSize.toNat 0 := by
    rw [waited, createAck_eq valid _ (by decide)]
  rw [ack, sendAck_eq, residue]
  rfl

end SelectiveRepeat
