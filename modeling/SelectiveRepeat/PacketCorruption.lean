import SelectiveRepeat.Library.Crc
import SelectiveRepeat.PacketEncode

/-! One corrupted byte. Of the checksum this uses only that it separates byte strings
that differ in one byte; the TR bit, which no checksum covers, is the exception. -/

namespace SelectiveRepeat

open Bytes Crc

/-! The bytes under the header checksum, as memory. -/

def clearedTr (data : Memory) : Memory := data.store 0 [clearTr (data 0)]

theorem clearedTr_zero (data : Memory) : clearedTr data 0 = clearTr (data 0) :=
  store_inside data 0 [clearTr (data 0)] 0 Nat.zero_lt_one

theorem clearedTr_behind (data : Memory) {address : Nat} (behind : address ≠ 0) :
    clearedTr data address = data address :=
  store_outside data 0 _ address (Or.inr (Nat.one_le_iff_ne_zero.mpr behind))

theorem coveredHeader_slice (data : Memory) : coveredHeader data = (clearedTr data).slice 0 8 := by
  have length : bytes16 (htons (lengthField data)) = data.slice 2 2 := by
    rw [lengthField, htons_ntohs, bytes16_load16]
  rw [coveredHeader_eq, headerFields, length, bytes32_load32]
  simp [Memory.slice, List.range_succ, clearedTr_zero, clearedTr_behind]

theorem clearedTr_alters {altered original : Memory} {size index : Nat}
    (alters : AltersByte altered original size index)
    (visible : index = 0 → clearTr (altered 0) ≠ clearTr (original 0)) :
    AltersByte (clearedTr altered) (clearedTr original) size index where
  inside := alters.inside
  differs := by
    by_cases first : index = 0
    · subst first
      rw [clearedTr_zero, clearedTr_zero]
      exact visible rfl
    · rw [clearedTr_behind _ first, clearedTr_behind _ first]
      exact alters.differs
  same := by
    intro other bound apart
    by_cases first : other = 0
    · subst first
      rw [clearedTr_zero, clearedTr_zero, alters.same 0 bound apart]
    · rw [clearedTr_behind _ first, clearedTr_behind _ first, alters.same other bound apart]

theorem altered_headerSum {crc32 : List Byte → BitVec 32} (separates : SeparatesBytes crc32)
    {altered original : Memory} {size index : Nat} (alters : AltersByte altered original size index)
    (whole : 12 ≤ size) (header : index < 12)
    (visible : index = 0 → clearTr (altered 0) ≠ clearTr (original 0))
    (sum : HeaderSumValid crc32 original) : ¬HeaderSumValid crc32 altered := by
  have cleared := clearedTr_alters alters visible
  rw [HeaderSumValid, coveredHeader_slice] at sum ⊢
  by_cases covered : index < 8
  · have crc1 : crc1Field altered = crc1Field original := by
      rw [crc1Field, crc1Field, (load32_eq_iff altered 8 _).mpr]
      rw [bytes32_load32, alters.slice_eq whole (Or.inl covered)]
    rw [crc1, ← sum]
    exact separates.slice_ne cleared (show 0 + 8 ≤ size by omega) (Nat.zero_le _) (by omega)
  · rw [cleared.slice_eq (show 0 + 8 ≤ size by omega) (Or.inr (by omega)), sum]
    intro same
    exact alters.load32_ne (Nat.le_of_not_lt covered) header (swap32_injective same).symm

theorem altered_payloadSum {crc32 : List Byte → BitVec 32} (separates : SeparatesBytes crc32)
    {altered original : Memory} {size index : Nat} (alters : AltersByte altered original size index)
    (length : lengthField altered = lengthField original)
    (whole : size = 16 + (lengthField original).toNat) (behind : 12 ≤ index)
    (sum : PayloadSumValid crc32 original) : ¬PayloadSumValid crc32 altered := by
  have bound := alters.inside
  rw [PayloadSumValid, trailerField] at sum ⊢
  rw [length]
  by_cases payload : index < 12 + (lengthField original).toNat
  · have crc2 : altered.load32 (12 + (lengthField original).toNat) =
        original.load32 (12 + (lengthField original).toNat) := by
      rw [load32_eq_iff, bytes32_load32, alters.slice_eq (by omega) (Or.inl payload)]
    rw [crc2, ← sum]
    exact separates.slice_ne alters (by omega) behind payload
  · rw [alters.slice_eq (by omega) (Or.inr (by omega)), sum]
    intro same
    exact alters.load32_ne (Nat.le_of_not_lt payload) (by omega) (swap32_injective same).symm

theorem altered_rejected {crc32 : List Byte → BitVec 32} (separates : SeparatesBytes crc32)
    {altered original : Memory} {index len : Nat} {pkt : Pkt}
    (decoded : pktDecode crc32 (some original) len pktNew = (.pktOk, pkt))
    (alters : AltersByte altered original pkt.wireSize index)
    (visible : index = 0 → clearTr (altered 0) ≠ clearTr (original 0)) :
    (pktDecode crc32 (some altered) len pktNew).1 ≠ .pktOk := by
  obtain ⟨_, sum, body⟩ := (pktDecode_ok_iff crc32 original len).mp (by rw [decoded])
  obtain ⟨length, _⟩ := pktDecode_slice decoded
  have bound := alters.inside
  have whole : 12 ≤ pkt.wireSize := by
    rw [Pkt.wireSize]
    split <;> omega
  rw [Ne, pktDecode_ok_iff]
  rintro ⟨_, alteredSum, alteredBody⟩
  by_cases header : index < 12
  · exact altered_headerSum separates alters whole header visible sum alteredSum
  · have sameLength : lengthField altered = lengthField original := by
      rw [lengthField, (load16_eq_iff altered 2 _).mpr]
      · rfl
      · rw [bytes16_load16, alters.slice_eq (by omega) (Or.inr (by omega))]
    have nonempty : pkt.length ≠ 0 := by
      intro empty
      rw [Pkt.wireSize, if_pos empty] at bound
      exact header bound
    have payloadSum := body.resolve_left (length ▸ nonempty)
    have size : pkt.wireSize = 16 + (lengthField original).toNat := by
      rw [Pkt.wireSize, if_neg nonempty, length]
    have rejected := altered_payloadSum separates alters sameLength size (Nat.le_of_not_lt header)
      payloadSum
    rw [sameLength, ← length] at alteredBody
    exact rejected (alteredBody.resolve_left nonempty)

/-! The TR bit. -/

theorem flipTr_fields (flags : Byte) :
    (flags ^^^ 0x20).extractLsb' 0 5 = flags.extractLsb' 0 5 ∧
      (flags ^^^ 0x20).extractLsb' 5 1 = ~~~(flags.extractLsb' 5 1) ∧
      (flags ^^^ 0x20).extractLsb' 6 2 = flags.extractLsb' 6 2 ∧
      clearTr (flags ^^^ 0x20) = clearTr flags := by
  revert flags
  decide

theorem clearTr_fields (flags : Byte) :
    (clearTr flags).extractLsb' 0 5 = flags.extractLsb' 0 5 ∧
      (clearTr flags).extractLsb' 6 2 = flags.extractLsb' 6 2 := by
  revert flags
  decide

theorem clearTr_eq_iff {other flags : Byte} (differ : other ≠ flags) :
    clearTr other = clearTr flags ↔ other = flags ^^^ 0x20 := by
  obtain ⟨flipWindow, flipTruncated, flipType, flipCleared⟩ := flipTr_fields flags
  constructor
  · intro same
    have window : other.extractLsb' 0 5 = flags.extractLsb' 0 5 := by
      rw [← (clearTr_fields other).1, same, (clearTr_fields flags).1]
    have type : other.extractLsb' 6 2 = flags.extractLsb' 6 2 := by
      rw [← (clearTr_fields other).2, same, (clearTr_fields flags).2]
    have truncated : other.extractLsb' 5 1 = ~~~(flags.extractLsb' 5 1) := by
      have inverted : ∀ first second : BitVec 1, first ≠ second → first = ~~~second := by decide
      apply inverted
      intro equal
      apply differ
      rw [← flags_fields other, window, type, equal, flags_fields]
    rw [← flags_fields other, ← flags_fields (flags ^^^ 0x20), flipWindow, flipTruncated, flipType,
      window, truncated, type]
  · rintro rfl
    exact flipCleared

def trInverted (pkt : Pkt) : Pkt := { pkt with truncated := ~~~pkt.truncated }

theorem flagsByte_trInverted (pkt : Pkt) : flagsByte (trInverted pkt) = flagsByte pkt ^^^ 0x20 := by
  obtain ⟨flipWindow, flipTruncated, flipType, _⟩ := flipTr_fields (flagsByte pkt)
  obtain ⟨window, truncated, type⟩ := flagsByte_fields pkt
  rw [← flags_fields (flagsByte pkt ^^^ 0x20), flipWindow, flipTruncated, flipType, window, truncated,
    type]
  rfl

theorem trInverted_covered (pkt : Pkt) : (trInverted pkt).covered = pkt.covered := by
  rw [Pkt.covered, Pkt.covered, flagsByte_trInverted, (flipTr_fields (flagsByte pkt)).2.2.2]
  rfl

theorem trInverted_decodedPkt (crc32 : List Byte → BitVec 32) (pkt : Pkt) :
    decodedPkt crc32 (trInverted pkt) = trInverted (decodedPkt crc32 pkt) := by
  rw [decodedPkt, trInverted_covered]
  rfl

theorem trInverted_valid {pkt : Pkt} (valid : pkt.Valid) (isData : pktGetType pkt = ptypeData) :
    (trInverted pkt).Valid where
  type := valid.type
  truncated := fun _ => isData
  length := valid.length
  payload := valid.payload

theorem packetBytes_trInverted (crc32 : List Byte → BitVec 32) (pkt : Pkt) :
    packetBytes crc32 (trInverted pkt) =
      (flagsByte pkt ^^^ 0x20) :: (packetBytes crc32 pkt).tail := by
  have cleared := (flipTr_fields (flagsByte pkt)).2.2.2
  rw [packetBytes, headerBytes, flagsByte_trInverted, cleared]
  rfl

theorem trInverted_slice {crc32 : List Byte → BitVec 32} {pkt : Pkt} {data written : Memory}
    (bytes : written.slice 0 pkt.wireSize = packetBytes crc32 pkt)
    (alters : AltersByte data written pkt.wireSize 0) (flipped : data 0 = written 0 ^^^ 0x20) :
    data.slice 0 (trInverted pkt).wireSize = packetBytes crc32 (trInverted pkt) := by
  have size : (trInverted pkt).wireSize = pkt.wireSize := rfl
  have positive := alters.inside
  rw [slice_cons _ positive] at bytes
  have first : written 0 = flagsByte pkt := (List.cons.inj bytes).1
  rw [packetBytes_trInverted, ← bytes, List.tail_cons, size, slice_cons _ positive, flipped, first,
    alters.slice_eq (by omega) (Or.inl Nat.zero_lt_one)]

theorem trInverted_rejected {crc32 : List Byte → BitVec 32} {pkt : Pkt} (valid : pkt.Valid)
    (notData : pktGetType pkt ≠ ptypeData) {data : Memory} (flags : data 0 = flagsByte pkt ^^^ 0x20)
    (len : Nat) : (pktDecode crc32 (some data) len pktNew).1 ≠ .pktOk := by
  obtain ⟨_, flipTruncated, flipType, _⟩ := flipTr_fields (flagsByte pkt)
  obtain ⟨_, truncated, type⟩ := flagsByte_fields pkt
  have whole : pkt.truncated = 0 := by
    by_contra set
    exact notData (valid.truncated set)
  have set : trField data ≠ 0 := by
    rw [trField, flags, flipTruncated, truncated, whole]
    decide
  have typed : typeField data ≠ ptypeData := by
    rw [typeField, flags, flipType, type]
    exact notData
  rw [Ne, pktDecode_ok_iff]
  rintro ⟨accepted, _⟩
  exact accepted (Or.inl (Or.inr ⟨set, typed⟩))

/-- Whatever byte of an encoded packet is altered, whatever the value and whatever follows in the
buffer, the decoder rejects it, unless TR of a DATA packet is all that changed. -/
theorem corrupted_rejected {crc32 : List Byte → BitVec 32} (separates : SeparatesBytes crc32)
    {pkt : Pkt} (valid : pkt.Valid) {buf written : Memory} {room : Nat}
    (encoded : pktEncode crc32 (some pkt) (some buf) room = (.pktOk, some written, pkt.wireSize))
    {data : Memory} {index : Nat} (alters : AltersByte data written pkt.wireSize index) (len : Nat) :
    pktDecode crc32 (some written) len pktNew = (.pktOk, decodedPkt crc32 pkt) ∧
      if index = 0 ∧ data 0 = written 0 ^^^ 0x20 ∧ pktGetType pkt = ptypeData then
        pktDecode crc32 (some data) len pktNew = (.pktOk, trInverted (decodedPkt crc32 pkt))
      else (pktDecode crc32 (some data) len pktNew).1 ≠ .pktOk := by
  have bytes := pktEncode_slice valid.payload encoded
  have decoded := pktDecode_packetBytes crc32 pkt valid written len bytes
  have first : written 0 = flagsByte pkt := by
    rw [slice_cons _ (Nat.zero_lt_of_lt alters.inside)] at bytes
    exact (List.cons.inj bytes).1
  refine ⟨decoded, ?_⟩
  by_cases hidden : index = 0 ∧ data 0 = written 0 ^^^ 0x20
  · obtain ⟨rfl, flipped⟩ := hidden
    by_cases isData : pktGetType pkt = ptypeData
    · rw [if_pos ⟨rfl, flipped, isData⟩, ← trInverted_decodedPkt]
      exact pktDecode_packetBytes crc32 _ (trInverted_valid valid isData) data len
        (trInverted_slice bytes alters flipped)
    · rw [if_neg fun exception => isData exception.2.2]
      exact trInverted_rejected valid isData (by rw [flipped, first]) len
  · rw [if_neg fun exception => hidden ⟨exception.1, exception.2.1⟩]
    refine altered_rejected separates decoded alters ?_
    rintro rfl same
    exact hidden ⟨rfl, (clearTr_eq_iff alters.differs).mp same⟩

theorem flipByte_alters (data : Memory) {size index : Nat} (inside : index < size) :
    AltersByte (flipByte data index) data size index where
  inside := inside
  differs := flipByte_ne data index
  same := by
    intro other _ apart
    exact store_outside data index _ other (by simp only [List.length_singleton]; omega)

theorem corrupted_rejected_length :
    pktDecode Crc.crc32 (some testData) 22 pktNew = (.pktOk, decodedPkt Crc.crc32 testPkt) ∧
      if 3 = 0 ∧ flipByte testData 3 0 = testData 0 ^^^ 0x20 ∧ pktGetType testPkt = ptypeData then
        pktDecode Crc.crc32 (some (flipByte testData 3)) 22 pktNew =
          (.pktOk, trInverted (decodedPkt Crc.crc32 testPkt))
      else (pktDecode Crc.crc32 (some (flipByte testData 3)) 22 pktNew).1 ≠ .pktOk :=
  corrupted_rejected crc32_separatesBytes testPkt_valid
    (pktEncode_eq Crc.crc32 testPkt (fun _ => 0) 50 rfl (by decide) (by decide))
    (flipByte_alters testData (by decide)) 22

end SelectiveRepeat
