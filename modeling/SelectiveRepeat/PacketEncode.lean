import SelectiveRepeat.PacketRoundTrip

/-! `pkt_encode` and the buffer of its caller, and `pkt_encode` as the inverse of
`pkt_decode` on every packet that the decoder accepts. -/

namespace SelectiveRepeat

open Bytes

section

variable (crc32 : List Byte → BitVec 32)

/-- The documented contract of the buffer: enough room is used to the byte, too little is refused
and left alone. -/
structure RespectsBuffer (pkt : Pkt) (buf : Memory) (len : Nat) : Prop where
  fits : pkt.wireSize ≤ len → ∃ bytes, bytes.length = pkt.wireSize ∧
    pktEncode crc32 (some pkt) (some buf) len = (.pktOk, some (buf.store 0 bytes), pkt.wireSize)
  tooSmall : len < pkt.wireSize →
    (pktEncode crc32 (some pkt) (some buf) len).1 = .eNomem ∧
      (pktEncode crc32 (some pkt) (some buf) len).2.1 = some buf

theorem respectsBuffer_iff_sizes (pkt : Pkt) (buf : Memory) (len : Nat)
    (size : pkt.payload.length = pkt.length.toNat) :
    RespectsBuffer crc32 pkt buf len ↔ (pkt.wireSize ≤ len ↔ pkt.checkedSize ≤ len) := by
  have encoded := pktEncode_checked crc32 pkt buf len size
  constructor
  · rintro ⟨fits, tooSmall⟩
    constructor
    · intro room
      obtain ⟨bytes, _, result⟩ := fits room
      by_contra refused
      rw [encoded, if_pos (Nat.lt_of_not_le refused)] at result
      exact absurd (Prod.mk.inj result).1 (by decide)
    · intro checked
      by_contra small
      have result := (tooSmall (Nat.lt_of_not_le small)).1
      rw [encoded, if_neg (Nat.not_lt.mpr checked)] at result
      exact absurd (show PktStatusCode.pktOk = .eNomem from result) (by decide)
  · intro same
    constructor
    · intro room
      refine ⟨packetBytes crc32 pkt, packetBytes_length crc32 pkt size, ?_⟩
      rw [encoded, if_neg (Nat.not_lt.mpr (same.mp room))]
    · intro small
      have refused : len < pkt.checkedSize :=
        Nat.lt_of_not_le fun checked => Nat.not_lt.mpr (same.mpr checked) small
      rw [encoded, if_pos refused]
      exact ⟨rfl, rfl⟩

/-- The size check goes by the stored checksum and the writes by the length, so they differ by the
four bytes of the trailer: the contract holds when the two fields agree on it, and otherwise at
the sizes that both allow or both refuse. -/
theorem respectsBuffer_iff (pkt : Pkt) (buf : Memory) (len : Nat)
    (size : pkt.payload.length = pkt.length.toNat) :
    RespectsBuffer crc32 pkt buf len ↔
      (pkt.length = 0 → pkt.crc2 = 0 ∨ len < 12 ∨ 16 ≤ len) ∧
        (pkt.length ≠ 0 →
          pkt.crc2 ≠ 0 ∨ len < 12 + pkt.length.toNat ∨ 16 + pkt.length.toNat ≤ len) := by
  rw [respectsBuffer_iff_sizes crc32 pkt buf len size, Pkt.wireSize, Pkt.checkedSize]
  by_cases empty : pkt.length = 0
  · have noLength : pkt.length.toNat = 0 := by simp [empty]
    by_cases noTrailer : pkt.crc2 = 0
    · simp [empty, noTrailer]
    · simp only [empty, noTrailer, if_true, not_false_eq_true, ne_eq, not_true_eq_false,
        forall_const, false_implies, and_true, false_or]
      rw [show (0 : BitVec 16).toNat = 0 from rfl]
      omega
  · by_cases noTrailer : pkt.crc2 = 0
    · simp only [empty, noTrailer, if_false, not_false_eq_true, ne_eq, not_true_eq_false,
        forall_const, false_implies, true_and, false_or]
      omega
    · rw [if_neg empty, if_pos noTrailer]
      refine iff_of_true (by omega) ⟨fun zero => absurd zero empty, fun _ => Or.inl noTrailer⟩

end

theorem testPkt_respectsBuffer_iff :
    RespectsBuffer Crc.crc32 testPkt (fun _ => 0) 50 ↔
      (testPkt.length = 0 → testPkt.crc2 = 0 ∨ 50 < 12 ∨ 16 ≤ 50) ∧
        (testPkt.length ≠ 0 →
          testPkt.crc2 ≠ 0 ∨ 50 < 12 + testPkt.length.toNat ∨ 16 + testPkt.length.toNat ≤ 50) :=
  respectsBuffer_iff Crc.crc32 testPkt (fun _ => 0) 50 (by decide)

/-- Six payload bytes and no stored checksum: a buffer of 18 bytes passes the check, and 22 bytes
are written. -/
theorem testPkt_overruns : ¬RespectsBuffer Crc.crc32 testPkt (fun _ => 0) 18 := by
  intro respects
  have status := (respects.tooSmall (by decide)).1
  exact absurd status (by decide +kernel)

/-! Encoding after decoding. -/

theorem pktEncode_slice {crc32 : List Byte → BitVec 32} {pkt : Pkt} {buf written : Memory}
    {room size : Nat} (payload : pkt.payload.length = pkt.length.toNat)
    (encoded : pktEncode crc32 (some pkt) (some buf) room = (.pktOk, some written, size)) :
    written.slice 0 pkt.wireSize = packetBytes crc32 pkt := by
  rw [pktEncode_checked crc32 pkt buf room payload] at encoded
  split_ifs at encoded
  · exact absurd (Prod.mk.inj encoded).1 (by decide)
  · have stored := Option.some.inj (Prod.mk.inj (Prod.mk.inj encoded).2).1
    rw [← stored, ← packetBytes_length crc32 pkt payload, slice_store_self]

theorem flags_fields (flags : Byte) :
    (flags.extractLsb' 6 2 ++ flags.extractLsb' 5 1 ++ flags.extractLsb' 0 5 : BitVec 8) = flags := by
  revert flags
  decide

theorem headerPkt_flags (data : Memory) : flagsByte (headerPkt data) = data 0 :=
  flags_fields (data 0)

theorem pktDecode_slice {crc32 : List Byte → BitVec 32} {data : Memory} {len : Nat} {pkt : Pkt}
    (decoded : pktDecode crc32 (some data) len pktNew = (.pktOk, pkt)) :
    pkt.length = lengthField data ∧ data.slice 0 pkt.wireSize = packetBytes crc32 pkt := by
  have ok : (pktDecode crc32 (some data) len pktNew).1 = .pktOk := by rw [decoded]
  obtain ⟨accepted, sum, body⟩ := (pktDecode_ok_iff crc32 data len).mp ok
  have goodType : ¬TypeRejected data := fun bad => accepted (Or.inl bad)
  have short : ¬maxPayloadSize < (lengthField data).toNat := fun bad => accepted (Or.inr bad)
  have flags := headerPkt_flags data
  have header : data.slice 0 12 =
      headerBytes crc32 (data 0) (data 1) (lengthField data) (data.load32 4) :=
    (slice_headerBytes_iff ..).mpr ⟨rfl, rfl, rfl, rfl, sum⟩
  rw [pktDecode_fresh, if_neg goodType, if_neg short, if_neg (not_not.mpr sum)] at decoded
  by_cases empty : lengthField data = 0
  · rw [if_pos empty] at decoded
    obtain rfl := (Prod.mk.inj decoded).2
    have size : (headerPkt data).length = lengthField data := rfl
    refine ⟨rfl, ?_⟩
    rw [Pkt.wireSize, packetBytes, size, if_pos empty, if_pos empty, List.append_nil, flags, header]
    rfl
  · have payloadSum := body.resolve_left empty
    rw [if_neg empty, if_neg (not_not.mpr payloadSum)] at decoded
    obtain rfl := (Prod.mk.inj decoded).2
    have trailer := (slice_trailer_iff crc32 data _ (slice_length data 12 _)).mpr ⟨rfl, payloadSum⟩
    have total : 16 + (lengthField data).toNat = 12 + ((lengthField data).toNat + 4) := by omega
    refine ⟨rfl, ?_⟩
    rw [Pkt.wireSize, packetBytes]
    show data.slice 0 (if lengthField data = 0 then _ else 16 + (lengthField data).toNat) =
      headerBytes crc32 (flagsByte (headerPkt data)) _ _ _ ++ if lengthField data = 0 then _ else _
    rw [if_neg empty, if_neg empty, total, slice_add, trailer, header, flags]
    rfl

theorem pktDecode_noTrailer {crc32 : List Byte → BitVec 32} {data : Memory} {len : Nat} {pkt : Pkt}
    (decoded : pktDecode crc32 (some data) len pktNew = (.pktOk, pkt)) (empty : pkt.length = 0) :
    pkt.crc2 = 0 := by
  have none : lengthField data = 0 := (pktDecode_slice decoded).1.symm.trans empty
  rw [pktDecode_fresh, if_pos none] at decoded
  split_ifs at decoded
  all_goals
    obtain ⟨_, rfl⟩ := Prod.mk.inj decoded
    rfl

/-- Every packet that the decoder accepts is encoded to the bytes it was decoded from, so no two
accepted buffers give the same packet. -/
theorem pktEncode_pktDecode (crc32 : List Byte → BitVec 32) {data : Memory} {len : Nat} {pkt : Pkt}
    (decoded : pktDecode crc32 (some data) len pktNew = (.pktOk, pkt)) :
    pkt.length = lengthField data ∧
      (∀ buf room, pkt.wireSize ≤ room →
        pktEncode crc32 (some pkt) (some buf) room =
          (.pktOk, some (buf.store 0 (data.slice 0 pkt.wireSize)), pkt.wireSize)) ∧
      ∀ other otherLen, pktDecode crc32 (some other) otherLen pktNew = (.pktOk, pkt) →
        other.slice 0 pkt.wireSize = data.slice 0 pkt.wireSize := by
  obtain ⟨length, bytes⟩ := pktDecode_slice decoded
  have valid := pktDecode_valid crc32 decoded
  refine ⟨length, ?_, ?_⟩
  · intro buf room enough
    rw [bytes]
    exact pktEncode_eq crc32 pkt buf room valid.payload enough (pktDecode_noTrailer decoded)
  · intro other otherLen again
    rw [bytes, (pktDecode_slice again).2]

def testData : Memory := Memory.store (fun _ => 0) 0 (packetBytes Crc.crc32 testPkt)

theorem testData_decodes :
    pktDecode Crc.crc32 (some testData) 22 pktNew = (.pktOk, decodedPkt Crc.crc32 testPkt) := by
  apply pktDecode_packetBytes Crc.crc32 testPkt testPkt_valid
  rw [testData, ← packetBytes_length Crc.crc32 testPkt testPkt_valid.payload, slice_store_self]

theorem pktEncode_pktDecode_test :
    (decodedPkt Crc.crc32 testPkt).length = lengthField testData ∧
      (∀ buf room, 22 ≤ room →
        pktEncode Crc.crc32 (some (decodedPkt Crc.crc32 testPkt)) (some buf) room =
          (.pktOk, some (buf.store 0 (testData.slice 0 22)), 22)) ∧
      ∀ other otherLen, pktDecode Crc.crc32 (some other) otherLen pktNew =
          (.pktOk, decodedPkt Crc.crc32 testPkt) →
        other.slice 0 22 = testData.slice 0 22 :=
  pktEncode_pktDecode Crc.crc32 testData_decodes

end SelectiveRepeat
