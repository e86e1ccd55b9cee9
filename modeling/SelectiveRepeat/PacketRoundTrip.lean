import SelectiveRepeat.PacketChecks

/-! `pkt_encode` writes exactly the documented format, and `pkt_decode` reads it
back. Nothing here depends on which function the checksum is. -/

namespace SelectiveRepeat

open Bytes

/-- A packet of the protocol: one of the three types, TR only on DATA, and as many payload
bytes as its length field says. -/
structure Pkt.Valid (pkt : Pkt) : Prop where
  type : pkt.type ≠ 0
  truncated : pkt.truncated ≠ 0 → pkt.type.toNat = ptypeData
  length : pkt.length.toNat ≤ maxPayloadSize
  payload : pkt.payload.length = pkt.length.toNat

def Pkt.wireSize (pkt : Pkt) : Nat := if pkt.length = 0 then 12 else 16 + pkt.length.toNat

section

variable (crc32 : List Byte → BitVec 32)

def Pkt.covered (pkt : Pkt) : List Byte :=
  headerFields (clearTr (flagsByte pkt)) pkt.seqnum pkt.length pkt.timestamp

def packetBytes (pkt : Pkt) : Datagram :=
  headerBytes crc32 (flagsByte pkt) pkt.seqnum pkt.length pkt.timestamp ++
    if pkt.length = 0 then [] else pkt.payload ++ bytes32 (htonl (crc32 pkt.payload))

theorem packetBytes_length (pkt : Pkt) (size : pkt.payload.length = pkt.length.toNat) :
    (packetBytes crc32 pkt).length = pkt.wireSize := by
  rw [packetBytes, Pkt.wireSize, List.length_append, headerBytes_length]
  split
  · rfl
  · rw [List.length_append, size, bytes32_length]
    omega

theorem flagsByte_fields (pkt : Pkt) :
    (flagsByte pkt).extractLsb' 0 5 = pkt.window ∧ (flagsByte pkt).extractLsb' 5 1 = pkt.truncated ∧
      (flagsByte pkt).extractLsb' 6 2 = pkt.type := by
  refine ⟨?_, ?_, ?_⟩
  all_goals
    apply BitVec.eq_of_getLsbD_eq
    intro index bound
    simp only [flagsByte, BitVec.getLsbD_append, BitVec.getLsbD_extractLsb']
    grind

theorem flagsByte_clear (pkt : Pkt) :
    flagsByte { pkt with truncated := 0 } = clearTr (flagsByte pkt) := by
  obtain ⟨window, _, type⟩ := flagsByte_fields pkt
  rw [← clearTr_flags, window, type]
  rfl

/-- The room that `pkt_encode` asks for: it goes by the stored trailing checksum. -/
def Pkt.checkedSize (pkt : Pkt) : Nat := 12 + (if pkt.crc2 ≠ 0 then 4 else 0) + pkt.length.toNat

theorem pktEncode_checked (pkt : Pkt) (buf : Memory) (len : Nat)
    (size : pkt.payload.length = pkt.length.toNat) :
    pktEncode crc32 (some pkt) (some buf) len =
      if len < pkt.checkedSize then (.eNomem, some buf, len)
      else (.pktOk, some (buf.store 0 (packetBytes crc32 pkt)), pkt.wireSize) := by
  have whole : pkt.payload.take pkt.length.toNat = pkt.payload := by
    rw [← size, List.take_length]
  have covered : headerImage { pkt with length := htons pkt.length, truncated := 0 } = pkt.covered := by
    rw [Pkt.covered, ← flagsByte_clear]
    rfl
  have header : (((buf.store 0 [flagsByte pkt, pkt.seqnum]).store 2 (bytes16 (htons pkt.length))).store
      4 (bytes32 pkt.timestamp)).store 8 (bytes32 (htonl (crc32 pkt.covered))) = buf.store 0
        (headerBytes crc32 (flagsByte pkt) pkt.seqnum pkt.length pkt.timestamp) := by
    rw [store_store _ _ 2 _ _ rfl, store_store _ _ 4 _ _ rfl, store_store _ _ 8 _ _ rfl]
    rfl
  have total : (if pkt.length.toNat > 0 then
      (if pkt.crc2 ≠ 0 then 12 + 4 else 12) + pkt.length.toNat
      else if pkt.crc2 ≠ 0 then 12 + 4 else 12) = pkt.checkedSize := by
    rw [Pkt.checkedSize]
    split_ifs <;> omega
  simp only [ne_eq] at total
  simp only [pktEncode, pktSetTr_zero, ne_eq, not_true_eq_false, if_false, covered, whole, header,
    total]
  by_cases none : len = 0
  · have small : len < pkt.checkedSize := by
      rw [Pkt.checkedSize]
      omega
    rw [if_pos none, if_pos small]
  rw [if_neg none]
  congr 1
  by_cases empty : pkt.length = 0
  · have noLength : pkt.length.toNat = 0 := by simp [empty]
    rw [if_neg (not_not.mpr noLength), packetBytes, if_pos empty, List.append_nil, Pkt.wireSize,
      if_pos empty]
  · have someLength : pkt.length.toNat ≠ 0 := by simpa [← BitVec.toNat_inj] using empty
    have written : 12 + pkt.length.toNat + 4 = 16 + pkt.length.toNat := by omega
    rw [if_pos someLength, store_store _ _ 12 _ _ rfl, store_store _ _ _ _ _ (by simp [size]),
      packetBytes, if_neg empty, Pkt.wireSize, if_neg empty, List.append_assoc, written]

theorem pktEncode_eq (pkt : Pkt) (buf : Memory) (len : Nat)
    (size : pkt.payload.length = pkt.length.toNat)
    (room : pkt.wireSize ≤ len) (noTrailer : pkt.length = 0 → pkt.crc2 = 0) :
    pktEncode crc32 (some pkt) (some buf) len =
      (.pktOk, some (buf.store 0 (packetBytes crc32 pkt)), pkt.wireSize) := by
  have enough : ¬len < pkt.checkedSize := by
    rw [Pkt.wireSize] at room
    rw [Pkt.checkedSize]
    by_cases empty : pkt.length = 0
    · have noLength : pkt.length.toNat = 0 := by simp [empty]
      rw [if_pos empty] at room
      rw [if_neg (not_not.mpr (noTrailer empty))]
      omega
    · rw [if_neg empty] at room
      split <;> omega
  rw [pktEncode_checked crc32 pkt buf len size, if_neg enough]

def decodedPkt (pkt : Pkt) : Pkt :=
  { pkt with
    crc1 := crc32 pkt.covered
    payload := if pkt.length = 0 then [] else pkt.payload
    crc2 := if pkt.length = 0 then 0 else crc32 pkt.payload }

theorem decodedPkt_getPayload (pkt : Pkt) :
    pktGetPayload (decodedPkt crc32 pkt) = pktGetPayload pkt := by
  by_cases empty : pkt.length = 0
  · simp [pktGetPayload, decodedPkt, empty]
  · simp only [pktGetPayload, decodedPkt, if_neg empty]

theorem pktDecode_packetBytes (pkt : Pkt) (valid : pkt.Valid) (data : Memory) (len : Nat)
    (received : data.slice 0 pkt.wireSize = packetBytes crc32 pkt) :
    pktDecode crc32 (some data) len pktNew = (.pktOk, decodedPkt crc32 pkt) := by
  have parts : data.slice 0 12 =
        headerBytes crc32 (flagsByte pkt) pkt.seqnum pkt.length pkt.timestamp ∧
      (pkt.length ≠ 0 → data.slice 12 (pkt.length.toNat + 4) =
        pkt.payload ++ bytes32 (htonl (crc32 pkt.payload))) := by
    rw [packetBytes, Pkt.wireSize] at received
    by_cases empty : pkt.length = 0
    · rw [if_pos empty, if_pos empty, List.append_nil] at received
      exact ⟨received, fun nonempty => absurd empty nonempty⟩
    · rw [if_neg empty, if_neg empty,
        show 16 + pkt.length.toNat = 12 + (pkt.length.toNat + 4) by omega,
        slice_append_iff _ _ _ _ (by simp)] at received
      exact ⟨received.1, fun _ => received.2⟩
  obtain ⟨header, trailer⟩ := parts
  obtain ⟨flags, seqnum, length, timestamp, sum⟩ := (slice_headerBytes_iff ..).mp header
  obtain ⟨window, truncated, type⟩ := flagsByte_fields pkt
  have accepted : ¬FirstWordRejected data := by
    rw [← headerValid_iff, flags, length]
    exact ⟨by rw [type]; exact valid.type, by rw [truncated, type]; exact valid.truncated,
      valid.length⟩
  have goodType : ¬TypeRejected data := fun bad => accepted (Or.inl bad)
  have short : ¬maxPayloadSize < (lengthField data).toNat := fun bad => accepted (Or.inr bad)
  have decodedHeader : headerPkt data =
      { pktNew with
        window := pkt.window, truncated := pkt.truncated, type := pkt.type, seqnum := pkt.seqnum
        length := pkt.length, timestamp := pkt.timestamp, crc1 := crc32 pkt.covered } := by
    have crc1 : crc1Field data = crc32 pkt.covered := by
      rw [← sum, coveredHeader_eq, flags, seqnum, length, timestamp, Pkt.covered]
    simp only [headerPkt, copyFirstWord, flags, seqnum, length, timestamp, crc1, window, truncated,
      type]
  rw [pktDecode_fresh, if_neg goodType, if_neg short, if_neg (not_not.mpr sum), length]
  by_cases empty : pkt.length = 0
  · rw [if_pos empty, decodedHeader, decodedPkt, if_pos empty, if_pos empty]
    rfl
  · have size : pkt.payload.length = (lengthField data).toNat := by rw [length, valid.payload]
    obtain ⟨payload, payloadSum⟩ := (slice_trailer_iff crc32 data pkt.payload size).mp
      (by rw [length]; exact trailer empty)
    have crc2 : trailerField data = crc32 pkt.payload := by
      rw [← payloadSum, payload]
    rw [length] at payload
    rw [if_neg empty, if_neg (not_not.mpr payloadSum), decodedHeader, payload, crc2, decodedPkt,
      if_neg empty, if_neg empty]

theorem pktDecode_valid {data : Memory} {len : Nat} {pkt : Pkt}
    (decoded : pktDecode crc32 (some data) len pktNew = (.pktOk, pkt)) : pkt.Valid := by
  have ok : (pktDecode crc32 (some data) len pktNew).1 = .pktOk := by rw [decoded]
  obtain ⟨accepted, sum, body⟩ := (pktDecode_ok_iff crc32 data len).mp ok
  obtain ⟨type, truncated, length⟩ := (headerValid_iff data).mpr accepted
  have goodType : ¬TypeRejected data := fun bad => accepted (Or.inl bad)
  have short : ¬maxPayloadSize < (lengthField data).toNat := fun bad => accepted (Or.inr bad)
  rw [pktDecode_fresh, if_neg goodType, if_neg short, if_neg (not_not.mpr sum)] at decoded
  split_ifs at decoded with empty payloadSum
  · obtain rfl := (Prod.mk.inj decoded).2
    exact ⟨type, truncated, length, by simp [headerPkt, copyFirstWord, pktNew, empty]⟩
  · obtain rfl := (Prod.mk.inj decoded).2
    exact ⟨type, truncated, length, by simp [headerPkt]⟩
  · exact absurd (Prod.mk.inj decoded).1 (by decide)

theorem Pkt.Valid.getPayload_length {pkt : Pkt} (valid : pkt.Valid) :
    (pktGetPayload pkt).length = pktGetLength pkt := by
  rw [pktGetPayload, pktGetLength]
  split_ifs with nonempty
  · exact valid.payload
  · rw [not_not.mp nonempty]
    rfl

end

/-- Encoding into any buffer with room for the packet, then decoding any buffer that starts with
the bytes written, gives the packet back. -/
theorem pktDecode_pktEncode (crc32 : List Byte → BitVec 32) (pkt : Pkt) (buf : Memory) (len : Nat)
    (valid : pkt.Valid) (noTrailer : pkt.length = 0 → pkt.crc2 = 0) (room : pkt.wireSize ≤ len) :
    ∃ written, pktEncode crc32 (some pkt) (some buf) len = (.pktOk, some written, pkt.wireSize) ∧
      ∀ data, Agree data written pkt.wireSize →
        ∃ decoded, pktDecode crc32 (some data) pkt.wireSize pktNew = (.pktOk, decoded) ∧
          decoded.type = pkt.type ∧ decoded.truncated = pkt.truncated ∧
          decoded.window = pkt.window ∧ decoded.seqnum = pkt.seqnum ∧
          decoded.length = pkt.length ∧ decoded.timestamp = pkt.timestamp ∧
          pktGetPayload decoded = pktGetPayload pkt ∧ decoded.crc1 = crc32 pkt.covered ∧
          decoded.crc2 = if pkt.length = 0 then 0 else crc32 pkt.payload := by
  refine ⟨_, pktEncode_eq crc32 pkt buf len valid.payload room noTrailer, fun data agree => ?_⟩
  have received : data.slice 0 pkt.wireSize = packetBytes crc32 pkt := by
    rw [agree.slice_eq _ _ (by omega), ← packetBytes_length crc32 pkt valid.payload, slice_store_self]
  exact ⟨_, pktDecode_packetBytes crc32 pkt valid data _ received, rfl, rfl, rfl, rfl, rfl, rfl,
    decodedPkt_getPayload crc32 pkt, rfl, rfl⟩

def testPkt : Pkt :=
  { pktNew with
    type := 1, window := 10, seqnum := 123, length := 6, timestamp := 123456
    payload := [0x64, 0x65, 0x63, 0x6F, 0x64, 0x65] }

theorem testPkt_valid : testPkt.Valid := by
  constructor <;> decide

theorem testPkt_roundTrip : ∃ written,
    pktEncode Crc.crc32 (some testPkt) (some fun _ => 0) 50 = (.pktOk, some written, 22) ∧
      ∀ data, Agree data written 22 →
        ∃ decoded, pktDecode Crc.crc32 (some data) 22 pktNew = (.pktOk, decoded) ∧
          decoded.type = 1 ∧ decoded.truncated = 0 ∧ decoded.window = 10 ∧ decoded.seqnum = 123 ∧
          decoded.length = 6 ∧ decoded.timestamp = 123456 ∧
          pktGetPayload decoded = [0x64, 0x65, 0x63, 0x6F, 0x64, 0x65] ∧
          decoded.crc1 = Crc.crc32 testPkt.covered ∧
          decoded.crc2 = Crc.crc32 [0x64, 0x65, 0x63, 0x6F, 0x64, 0x65] :=
  pktDecode_pktEncode Crc.crc32 testPkt (fun _ => 0) 50 testPkt_valid (by decide) (by decide)

end SelectiveRepeat
