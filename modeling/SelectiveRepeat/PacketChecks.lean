import SelectiveRepeat.Library.Crc
import SelectiveRepeat.Packet

/-! What `pkt_decode` accepts. The decoder on a fresh packet in closed form, the
packet grammar its documentation describes, and exactly when the two agree. -/

namespace SelectiveRepeat

open Bytes

section

variable (crc32 : List Byte → BitVec 32)

/-! Fields of a datagram, read where the decoder reads them. -/

def typeField (data : Memory) : Nat := ((data 0).extractLsb' 6 2).toNat

def trField (data : Memory) : BitVec 1 := (data 0).extractLsb' 5 1

def lengthField (data : Memory) : BitVec 16 := ntohs (data.load16 2)

def crc1Field (data : Memory) : BitVec 32 := ntohl (data.load32 8)

def headerPkt (data : Memory) : Pkt :=
  { copyFirstWord pktNew data with
    length := lengthField data
    timestamp := data.load32 4
    crc1 := crc1Field data }

/-- The eight bytes under the header checksum: as received, with TR cleared. -/
def coveredHeader (data : Memory) : List Byte :=
  headerImage { headerPkt data with truncated := 0, length := data.load16 2 }

def TypeRejected (data : Memory) : Prop :=
  typeField data = 0 ∨ (trField data ≠ 0 ∧ typeField data ≠ ptypeData)

def FirstWordRejected (data : Memory) : Prop :=
  TypeRejected data ∨ maxPayloadSize < (lengthField data).toNat

def HeaderSumValid (data : Memory) : Prop := crc32 (coveredHeader data) = crc1Field data

def trailerField (data : Memory) : BitVec 32 :=
  ntohl (data.load32 (12 + (lengthField data).toNat))

def PayloadSumValid (data : Memory) : Prop :=
  crc32 (data.slice 12 (lengthField data).toNat) = trailerField data

instance (data : Memory) : Decidable (TypeRejected data) := inferInstanceAs (Decidable (_ ∨ _))

instance (data : Memory) : Decidable (FirstWordRejected data) :=
  inferInstanceAs (Decidable (_ ∨ _))

instance (data : Memory) : Decidable (HeaderSumValid crc32 data) :=
  inferInstanceAs (Decidable (_ = _))

instance (data : Memory) : Decidable (PayloadSumValid crc32 data) :=
  inferInstanceAs (Decidable (_ = _))

theorem ntohs_htons (word : BitVec 16) : ntohs (htons word) = word := swap16_swap16 word

theorem htons_ntohs (word : BitVec 16) : htons (ntohs word) = word := swap16_swap16 word

theorem ntohl_htonl (word : BitVec 32) : ntohl (htonl word) = word := swap32_swap32 word

theorem htonl_ntohl (word : BitVec 32) : htonl (ntohl word) = word := swap32_swap32 word

theorem pktGetLength_eq_zero_iff (pkt : Pkt) : pktGetLength pkt = 0 ↔ pkt.length = 0 := by
  rw [pktGetLength, ← BitVec.toNat_inj]
  rfl

theorem pktSetTr_zero (pkt : Pkt) : pktSetTr pkt 0 = (.pktOk, { pkt with truncated := 0 }) := rfl

theorem pktSetLength_zero (pkt : Pkt) : pktSetLength pkt 0 = (.pktOk, { pkt with length := 0 }) :=
  rfl

theorem pktDecode_fresh (data : Memory) (len : Nat) :
    pktDecode crc32 (some data) len pktNew =
      if TypeRejected data then (.eType, copyFirstWord pktNew data)
      else if maxPayloadSize < (lengthField data).toNat then
        (.eLength, { copyFirstWord pktNew data with length := lengthField data })
      else if ¬HeaderSumValid crc32 data then
        (.eCrc, { headerPkt data with length := data.load16 2 })
      else if lengthField data = 0 then (.pktOk, headerPkt data)
      else if ¬PayloadSumValid crc32 data then (.eCrc, { headerPkt data with length := 0 })
      else (.pktOk,
        { headerPkt data with
          payload := data.slice 12 (lengthField data).toNat
          crc2 := trailerField data }) := by
  have typeBound : typeField data < 4 := BitVec.isLt _
  simp only [pktDecode, pktSetTr_zero, pktSetLength_zero, ne_eq, not_true_eq_false, if_false,
    htons_ntohs]
  change (if typeField data < 1 ∨ typeField data > 3 then _
    else if ¬trField data = 0 ∧ ¬typeField data = ptypeData then _
    else if maxPayloadSize < (lengthField data).toNat then _
    else if ¬HeaderSumValid crc32 data then _
    else if ¬(lengthField data).toNat = 0 then (if ¬PayloadSumValid crc32 data then _ else _)
    else _) = _
  by_cases noType : typeField data = 0
  · have rejected : TypeRejected data := Or.inl noType
    rw [if_pos rejected, if_pos (Or.inl (by omega))]
  rw [if_neg (c := typeField data < 1 ∨ typeField data > 3) (by omega)]
  by_cases trWrong : ¬trField data = 0 ∧ ¬typeField data = ptypeData
  · have rejected : TypeRejected data := Or.inr trWrong
    rw [if_pos rejected, if_pos trWrong]
  have accepted : ¬TypeRejected data := fun rejected => rejected.elim noType trWrong
  rw [if_neg trWrong, if_neg accepted]
  by_cases tooLong : maxPayloadSize < (lengthField data).toNat
  · rw [if_pos tooLong, if_pos tooLong]
    rfl
  rw [if_neg tooLong, if_neg tooLong]
  by_cases headerSum : HeaderSumValid crc32 data
  · rw [if_neg (not_not.mpr headerSum), if_neg (not_not.mpr headerSum)]
    by_cases empty : lengthField data = 0
    · rw [if_pos empty, if_neg (by simp [empty])]
      rfl
    · have nonzero : ¬(lengthField data).toNat = 0 := by
        simpa [← BitVec.toNat_inj] using empty
      rw [if_neg empty, if_pos nonzero]
      rfl
  · rw [if_pos headerSum, if_pos headerSum]
    rfl

/-! The documented format. -/

def headerFields (flags seqnum : Byte) (length : BitVec 16) (timestamp : BitVec 32) : List Byte :=
  [flags, seqnum] ++ bytes16 (htons length) ++ bytes32 timestamp

def clearTr (flags : Byte) : Byte := flags &&& 0xDF

def headerBytes (flags seqnum : Byte) (length : BitVec 16) (timestamp : BitVec 32) : List Byte :=
  headerFields flags seqnum length timestamp ++
    bytes32 (htonl (crc32 (headerFields (clearTr flags) seqnum length timestamp)))

@[simp] theorem headerBytes_length (flags seqnum : Byte) (length : BitVec 16)
    (timestamp : BitVec 32) : (headerBytes crc32 flags seqnum length timestamp).length = 12 := rfl

structure HeaderValid (flags : Byte) (length : BitVec 16) : Prop where
  type : flags.extractLsb' 6 2 ≠ 0
  truncated : flags.extractLsb' 5 1 ≠ 0 → (flags.extractLsb' 6 2).toNat = ptypeData
  length : length.toNat ≤ maxPayloadSize

/-- The packet grammar: a bare header, or a header with its payload and trailing checksum. -/
inductive WellFormed : List Byte → Prop
  | header {flags seqnum length timestamp} : HeaderValid flags length →
      (flags.extractLsb' 5 1 ≠ 0 ∨ length = 0) →
      WellFormed (headerBytes crc32 flags seqnum length timestamp)
  | payload {flags seqnum length timestamp payload} : HeaderValid flags length →
      flags.extractLsb' 5 1 = 0 → length ≠ 0 → payload.length = length.toNat →
      WellFormed (headerBytes crc32 flags seqnum length timestamp ++ payload ++
        bytes32 (htonl (crc32 payload)))

theorem clearTr_flags (flags : Byte) :
    (flags.extractLsb' 6 2 ++ (0 : BitVec 1) ++ flags.extractLsb' 0 5 : BitVec 8) = clearTr flags := by
  revert flags
  decide

theorem coveredHeader_eq (data : Memory) :
    coveredHeader data =
      headerFields (clearTr (data 0)) (data 1) (lengthField data) (data.load32 4) := by
  have flags : flagsByte { headerPkt data with truncated := 0, length := data.load16 2 } =
      clearTr (data 0) := clearTr_flags (data 0)
  simp only [coveredHeader, headerImage, headerFields, lengthField, htons_ntohs, flags]
  rfl

theorem slice_headerFields_iff (data : Memory) (flags seqnum : Byte) (length : BitVec 16)
    (timestamp : BitVec 32) :
    data.slice 0 8 = headerFields flags seqnum length timestamp ↔
      data 0 = flags ∧ data 1 = seqnum ∧ lengthField data = length ∧
        data.load32 4 = timestamp := by
  have firstTwo : data.slice 0 2 = [flags, seqnum] ↔ data 0 = flags ∧ data 1 = seqnum := by
    simp [Memory.slice, List.range_succ]
  have lengthWord : data.slice 2 2 = bytes16 (htons length) ↔ lengthField data = length := by
    rw [← load16_eq_iff, lengthField]
    constructor
    · intro same
      rw [same, ntohs_htons]
    · intro same
      rw [← same, htons_ntohs]
  rw [headerFields, slice_append_iff data 0 4 4 rfl,
    slice_append_iff data 0 2 2 rfl, firstTwo, Nat.zero_add, lengthWord, Nat.zero_add,
    ← load32_eq_iff]
  simp only [and_assoc]

theorem slice_headerBytes_iff (data : Memory) (flags seqnum : Byte) (length : BitVec 16)
    (timestamp : BitVec 32) :
    data.slice 0 12 = headerBytes crc32 flags seqnum length timestamp ↔
      data 0 = flags ∧ data 1 = seqnum ∧ lengthField data = length ∧ data.load32 4 = timestamp ∧
        HeaderSumValid crc32 data := by
  rw [headerBytes, slice_append_iff data 0 8 4 rfl, slice_headerFields_iff,
    Nat.zero_add, ← load32_eq_iff, HeaderSumValid, coveredHeader_eq, crc1Field]
  simp only [and_assoc]
  constructor
  · rintro ⟨rfl, rfl, rfl, rfl, sum⟩
    exact ⟨rfl, rfl, rfl, rfl, by rw [sum, ntohl_htonl]⟩
  · rintro ⟨rfl, rfl, rfl, rfl, sum⟩
    exact ⟨rfl, rfl, rfl, rfl, by rw [sum, htonl_ntohl]⟩

theorem slice_trailer_iff (data : Memory) (payload : List Byte)
    (size : payload.length = (lengthField data).toNat) :
    data.slice 12 ((lengthField data).toNat + 4) = payload ++ bytes32 (htonl (crc32 payload)) ↔
      data.slice 12 (lengthField data).toNat = payload ∧ PayloadSumValid crc32 data := by
  rw [slice_append_iff data 12 _ 4 size, ← load32_eq_iff, PayloadSumValid, trailerField]
  constructor
  · rintro ⟨same, sum⟩
    exact ⟨same, by rw [same, sum, ntohl_htonl]⟩
  · rintro ⟨same, sum⟩
    rw [same] at sum
    exact ⟨same, by rw [sum, htonl_ntohl]⟩

theorem headerValid_iff (data : Memory) :
    HeaderValid (data 0) (lengthField data) ↔ ¬FirstWordRejected data := by
  have typeZero : typeField data = 0 ↔ (data 0).extractLsb' 6 2 = 0 := by
    rw [typeField, ← BitVec.toNat_inj]
    rfl
  simp only [FirstWordRejected, TypeRejected, typeZero]
  constructor
  · rintro ⟨type, truncated, length⟩ ((noType | ⟨tr, notData⟩) | tooLong)
    · exact type noType
    · exact notData (truncated tr)
    · omega
  · intro accepted
    refine ⟨fun noType => accepted (Or.inl (Or.inl noType)), fun tr => ?_, ?_⟩
    · by_contra notData
      exact accepted (Or.inl (Or.inr ⟨tr, notData⟩))
    · by_contra tooLong
      exact accepted (Or.inr (by omega))

theorem wellFormed_slice_iff (data : Memory) (len : Nat) :
    WellFormed crc32 (data.slice 0 len) ↔
      ¬FirstWordRejected data ∧ HeaderSumValid crc32 data ∧
        ((trField data ≠ 0 ∨ lengthField data = 0) ∧ len = 12 ∨
          trField data = 0 ∧ lengthField data ≠ 0 ∧ len = 12 + ((lengthField data).toNat + 4) ∧
            PayloadSumValid crc32 data) := by
  rw [← headerValid_iff]
  constructor
  · intro formed
    generalize same : data.slice 0 len = bytes at formed
    have size := congrArg List.length same
    rw [slice_length] at size
    cases formed with
    | @header flags seqnum length timestamp valid bare =>
        change len = 12 at size
        subst size
        obtain ⟨rfl, rfl, rfl, rfl, sum⟩ := (slice_headerBytes_iff ..).mp same
        exact ⟨valid, sum, Or.inl ⟨bare, rfl⟩⟩
    | @payload flags seqnum length timestamp payload valid whole nonempty payloadSize =>
        rw [List.append_assoc] at same
        rw [List.length_append, List.length_append, payloadSize] at size
        change len = 12 + length.toNat + 4 at size
        rw [show len = 12 + (length.toNat + 4) by omega, slice_append_iff data 0 12 _ rfl,
          slice_headerBytes_iff] at same
        obtain ⟨⟨rfl, rfl, rfl, rfl, sum⟩, trailer⟩ := same
        have payloadSum := ((slice_trailer_iff crc32 data payload payloadSize).mp trailer).2
        exact ⟨valid, sum, Or.inr ⟨whole, nonempty, by omega, payloadSum⟩⟩
  · rintro ⟨valid, sum, ⟨bare, rfl⟩ | ⟨whole, nonempty, rfl, payloadSum⟩⟩
    · rw [(slice_headerBytes_iff crc32 data _ _ _ _).mpr ⟨rfl, rfl, rfl, rfl, sum⟩]
      exact WellFormed.header valid bare
    · rw [slice_add, (slice_headerBytes_iff crc32 data _ _ _ _).mpr ⟨rfl, rfl, rfl, rfl, sum⟩,
        (slice_trailer_iff crc32 data _ (by simp)).mpr ⟨rfl, payloadSum⟩, ← List.append_assoc]
      exact WellFormed.payload valid whole nonempty (by simp)

/-! What the decoder's result depends on. -/

def Agree (other data : Memory) (len : Nat) : Prop := ∀ index, index < len → other index = data index

theorem Agree.mono {other data : Memory} {len : Nat} (agree : Agree other data len) (shorter : Nat)
    (le : shorter ≤ len) : Agree other data shorter :=
  fun index bound => agree index (Nat.lt_of_lt_of_le bound le)

theorem Agree.slice_eq {other data : Memory} {len : Nat} (agree : Agree other data len)
    (start count : Nat) (le : start + count ≤ len) : other.slice start count = data.slice start count :=
  slice_congr other data start count fun index _ => agree (start + index) (by omega)

theorem Agree.load32_eq {other data : Memory} {len : Nat} (agree : Agree other data len)
    (start : Nat) (le : start + 4 ≤ len) : other.load32 start = data.load32 start :=
  load32_congr other data start fun index _ => agree (start + index) (by omega)

theorem Agree.load16_eq {other data : Memory} {len : Nat} (agree : Agree other data len)
    (start : Nat) (le : start + 2 ≤ len) : other.load16 start = data.load16 start :=
  load16_congr other data start fun index _ => agree (start + index) (by omega)

theorem Agree.lengthField_eq {other data : Memory} (agree : Agree other data 4) :
    lengthField other = lengthField data := by
  rw [lengthField, lengthField, agree.load16_eq _ (by omega)]

theorem Agree.firstWord_eq {other data : Memory} (agree : Agree other data 4) :
    copyFirstWord pktNew other = copyFirstWord pktNew data := by
  simp only [copyFirstWord, agree 0 (by omega), agree 1 (by omega), agree.load16_eq 2 (Nat.le_refl 4)]

theorem Agree.typeRejected_iff {other data : Memory} (agree : Agree other data 4) :
    TypeRejected other ↔ TypeRejected data := by
  simp only [TypeRejected, typeField, trField, agree 0 (by omega)]

theorem Agree.headerPkt_eq {other data : Memory} (agree : Agree other data 12) :
    headerPkt other = headerPkt data := by
  have first := agree.mono 4 (by omega)
  simp only [headerPkt, crc1Field, first.firstWord_eq, first.lengthField_eq,
    agree.load32_eq 4 (by omega), agree.load32_eq 8 (by omega)]

theorem Agree.headerSum_iff {other data : Memory} (agree : Agree other data 12) :
    HeaderSumValid crc32 other ↔ HeaderSumValid crc32 data := by
  simp only [HeaderSumValid, coveredHeader, crc1Field, agree.headerPkt_eq,
    agree.load16_eq 2 (by omega), agree.load32_eq 8 (by omega)]

theorem pktDecode_agree_firstWord {other data : Memory} (len : Nat) (agree : Agree other data 4)
    (rejected : FirstWordRejected data) :
    pktDecode crc32 (some other) len pktNew = pktDecode crc32 (some data) len pktNew := by
  simp only [pktDecode_fresh, agree.firstWord_eq, agree.lengthField_eq, agree.typeRejected_iff]
  rcases rejected with badType | tooLong
  · rw [if_pos badType, if_pos badType]
  · rw [if_pos tooLong, if_pos tooLong]

theorem pktDecode_agree_header {other data : Memory} (len : Nat) (agree : Agree other data 12)
    (settled : ¬HeaderSumValid crc32 data ∨ lengthField data = 0) :
    pktDecode crc32 (some other) len pktNew = pktDecode crc32 (some data) len pktNew := by
  have first := agree.mono 4 (by omega)
  simp only [pktDecode_fresh, first.firstWord_eq, first.lengthField_eq, first.typeRejected_iff,
    agree.headerPkt_eq, agree.headerSum_iff, agree.load16_eq 2 (by omega)]
  rcases settled with badSum | empty
  · simp only [badSum, not_false_eq_true, if_true]
  · simp only [empty, if_true]

theorem pktDecode_agree_badPayload {other data : Memory} (len : Nat) (agree : Agree other data 12)
    (badOther : ¬PayloadSumValid crc32 other) (badData : ¬PayloadSumValid crc32 data) :
    pktDecode crc32 (some other) len pktNew = pktDecode crc32 (some data) len pktNew := by
  have first := agree.mono 4 (by omega)
  simp only [pktDecode_fresh, first.firstWord_eq, first.lengthField_eq, first.typeRejected_iff,
    agree.headerPkt_eq, agree.headerSum_iff, agree.load16_eq 2 (by omega),
    badOther, badData, not_false_eq_true, if_true]

theorem pktDecode_agree_whole {other data : Memory} (len : Nat)
    (agree : Agree other data (16 + (lengthField data).toNat)) :
    pktDecode crc32 (some other) len pktNew = pktDecode crc32 (some data) len pktNew := by
  have header := agree.mono 12 (by omega)
  have first := agree.mono 4 (by omega)
  have payload := agree.slice_eq 12 (lengthField data).toNat (by omega)
  have trailer : trailerField other = trailerField data := by
    rw [trailerField, trailerField, first.lengthField_eq, agree.load32_eq _ (by omega)]
  have payloadSum : PayloadSumValid crc32 other ↔ PayloadSumValid crc32 data := by
    rw [PayloadSumValid, PayloadSumValid, first.lengthField_eq, payload, trailer]
  simp only [pktDecode_fresh, first.firstWord_eq, first.lengthField_eq, first.typeRejected_iff,
    header.headerPkt_eq, header.headerSum_iff, header.load16_eq 2 (by omega),
    payloadSum, payload, trailer]

theorem pktDecode_ok_iff (data : Memory) (len : Nat) :
    (pktDecode crc32 (some data) len pktNew).1 = .pktOk ↔
      ¬FirstWordRejected data ∧ HeaderSumValid crc32 data ∧
        (lengthField data = 0 ∨ PayloadSumValid crc32 data) := by
  rw [pktDecode_fresh, FirstWordRejected]
  split_ifs <;> simp_all

/-- On the datagram of `len` bytes at `data`: accepted exactly when well formed, and the
status and the packet depend on these `len` bytes only. -/
def DecodesExactly (data : Memory) (len : Nat) : Prop :=
  ((pktDecode crc32 (some data) len pktNew).1 = .pktOk ↔ WellFormed crc32 (data.slice 0 len)) ∧
    ∀ other, Agree other data len →
      pktDecode crc32 (some other) len pktNew = pktDecode crc32 (some data) len pktNew

/-- One of the trailing checksum bytes that were received is wrong. -/
def TrailerRefuted (data : Memory) (len : Nat) : Prop :=
  ∃ index, index < 4 ∧ 12 + (lengthField data).toNat + index < len ∧
    (bytes32 (htonl (crc32 (data.slice 12 (lengthField data).toNat))))[index]? ≠
      some (data (12 + (lengthField data).toNat + index))

/-- The datagram is as long as its header says, or long enough for the check that rejects it. -/
def LengthCoherent (data : Memory) (len : Nat) : Prop :=
  (4 ≤ len ∧ FirstWordRejected data) ∨
  (12 ≤ len ∧ ¬FirstWordRejected data ∧ ¬HeaderSumValid crc32 data) ∨
  (¬FirstWordRejected data ∧ HeaderSumValid crc32 data ∧
    (lengthField data = 0 ∧ len = 12 ∨
      lengthField data ≠ 0 ∧ trField data = 0 ∧ len = 16 + (lengthField data).toNat ∨
      lengthField data ≠ 0 ∧ TrailerRefuted crc32 data len))

def flipByte (data : Memory) (address : Nat) : Memory := data.store address [~~~data address]

theorem flipByte_agree (data : Memory) (address len : Nat) (beyond : len ≤ address) :
    Agree (flipByte data address) data len :=
  fun index bound => store_outside data address _ index (Or.inl (by omega))

theorem flipByte_ne (data : Memory) (address : Nat) :
    flipByte data address address ≠ data address := by
  have flipped : flipByte data address address = ~~~data address :=
    store_inside data address [~~~data address] 0 (by simp)
  rw [flipped]
  generalize data address = byte
  revert byte
  decide

theorem payloadSum_iff (data : Memory) :
    PayloadSumValid crc32 data ↔ ∀ index, index < 4 →
      (bytes32 (htonl (crc32 (data.slice 12 (lengthField data).toNat))))[index]? =
        some (data (12 + (lengthField data).toNat + index)) := by
  have words : PayloadSumValid crc32 data ↔ data.slice (12 + (lengthField data).toNat) 4 =
      bytes32 (htonl (crc32 (data.slice 12 (lengthField data).toNat))) := by
    rw [← load32_eq_iff, PayloadSumValid, trailerField]
    constructor
    · intro sum
      rw [sum, htonl_ntohl]
    · intro sum
      rw [sum, ntohl_htonl]
  rw [words]
  constructor
  · intro same index bound
    rw [← same, slice_getElem? _ _ _ _ bound]
  · intro bytes
    apply List.ext_getElem?
    intro index
    by_cases bound : index < 4
    · rw [bytes index bound, slice_getElem? _ _ _ _ bound]
    · rw [List.getElem?_eq_none (by simpa using bound), List.getElem?_eq_none (by simpa using bound)]

theorem coherent_exact (data : Memory) (len : Nat) (coherent : LengthCoherent crc32 data len) :
    DecodesExactly crc32 data len := by
  rw [DecodesExactly, pktDecode_ok_iff, wellFormed_slice_iff]
  rcases coherent with ⟨long, rejected⟩ | ⟨long, accepted, badSum⟩ | ⟨accepted, sum, body⟩
  · refine ⟨by simp [rejected], fun other agree => ?_⟩
    exact pktDecode_agree_firstWord crc32 len (agree.mono _ long) rejected
  · refine ⟨by simp [badSum], fun other agree => ?_⟩
    exact pktDecode_agree_header crc32 len (agree.mono _ long) (Or.inl badSum)
  rcases body with ⟨empty, rfl⟩ | ⟨nonempty, whole, rfl⟩ | ⟨nonempty, index, bound, received, wrong⟩
  · refine ⟨by simp [accepted, sum, empty], fun other agree => ?_⟩
    exact pktDecode_agree_header crc32 12 agree (Or.inr empty)
  · refine ⟨?_, fun other agree => pktDecode_agree_whole crc32 _ agree⟩
    have size : 16 + (lengthField data).toNat = 12 + ((lengthField data).toNat + 4) := by omega
    tauto
  · have badData : ¬PayloadSumValid crc32 data := fun payloadSum =>
      wrong ((payloadSum_iff crc32 data).mp payloadSum index bound)
    refine ⟨?_, fun other agree => ?_⟩
    · have notBare : len ≠ 12 := by omega
      tauto
    · have badOther : ¬PayloadSumValid crc32 other := by
        intro payloadSum
        have byte := (payloadSum_iff crc32 other).mp payloadSum index bound
        rw [(agree.mono 4 (by omega)).lengthField_eq, agree.slice_eq _ _ (by omega),
          agree _ received] at byte
        exact wrong byte
      exact pktDecode_agree_badPayload crc32 len (agree.mono _ (by omega)) badOther badData

theorem rejected_result_length {other data : Memory} {len : Nat} (rejected : FirstWordRejected data)
    (same : pktDecode crc32 (some other) len pktNew = pktDecode crc32 (some data) len pktNew) :
    other.load16 2 = data.load16 2 := by
  simp only [pktDecode_fresh] at same
  by_cases badType : TypeRejected data
  · rw [if_pos badType] at same
    split_ifs at same <;> simp_all [copyFirstWord]
  · have tooLong := rejected.resolve_left badType
    rw [if_neg badType, if_pos tooLong] at same
    have lengths : lengthField other = lengthField data := by
      split_ifs at same
      all_goals simp_all
    rw [← htons_ntohs (other.load16 2), ← htons_ntohs (data.load16 2)]
    exact congrArg htons lengths

theorem accepted_result_crc1 {data : Memory} (len : Nat) (accepted : ¬FirstWordRejected data) :
    (pktDecode crc32 (some data) len pktNew).2.crc1 = crc1Field data := by
  have goodType : ¬TypeRejected data := fun bad => accepted (Or.inl bad)
  have short : ¬maxPayloadSize < (lengthField data).toNat := fun bad => accepted (Or.inr bad)
  rw [pktDecode_fresh, if_neg goodType, if_neg short]
  split_ifs <;> rfl

theorem exact_firstWord_received {data : Memory} {len : Nat} (decodes : DecodesExactly crc32 data len)
    (rejected : FirstWordRejected data) : 4 ≤ len := by
  by_contra short
  have same := decodes.2 (flipByte data 3) (flipByte_agree data 3 len (by omega))
  have word := (load16_eq_iff _ _ _).mp (rejected_result_length crc32 rejected same)
  rw [bytes16_load16] at word
  have byte := congrArg (fun bytes => bytes[1]?) word
  simp only [slice_getElem? _ 2 2 1 (by omega), Option.some.injEq] at byte
  exact flipByte_ne data 3 byte

theorem exact_header_received {data : Memory} {len : Nat} (decodes : DecodesExactly crc32 data len)
    (accepted : ¬FirstWordRejected data) : 12 ≤ len := by
  by_contra short
  have agree := flipByte_agree data 11 11 (by omega)
  have acceptedOther : ¬FirstWordRejected (flipByte data 11) := by
    have first := agree.mono 4 (by omega)
    rwa [FirstWordRejected, first.typeRejected_iff, first.lengthField_eq]
  have same := decodes.2 (flipByte data 11) (agree.mono _ (by omega))
  have crc := congrArg (fun result => result.2.crc1) same
  simp only [accepted_result_crc1 crc32 len accepted, accepted_result_crc1 crc32 len acceptedOther,
    crc1Field] at crc
  have word : (flipByte data 11).load32 8 = data.load32 8 := by
    rw [← htonl_ntohl ((flipByte data 11).load32 8), crc, htonl_ntohl]
  rw [load32_eq_iff, bytes32_load32] at word
  have byte := congrArg (fun bytes => bytes[3]?) word
  simp only [slice_getElem? _ 8 4 3 (by omega), Option.some.injEq] at byte
  exact flipByte_ne data 11 byte

/-! A packet with the trailer that its payload asks for, and with the last byte of that flipped. -/

def repairTrailer (data : Memory) : Memory :=
  data.store (12 + (lengthField data).toNat)
    (bytes32 (htonl (crc32 (data.slice 12 (lengthField data).toNat))))

theorem repairTrailer_below (data : Memory) :
    Agree (repairTrailer crc32 data) data (12 + (lengthField data).toNat) :=
  fun index bound => store_outside data _ _ index (Or.inl (by omega))

theorem repairTrailer_lengthField (data : Memory) :
    lengthField (repairTrailer crc32 data) = lengthField data :=
  ((repairTrailer_below crc32 data).mono 4 (by omega)).lengthField_eq

theorem repairTrailer_agree {data : Memory} {len : Nat} (unrefuted : ¬TrailerRefuted crc32 data len)
    (short : len < 16 + (lengthField data).toNat) : Agree (repairTrailer crc32 data) data len := by
  intro index bound
  by_cases below : index < 12 + (lengthField data).toNat
  · exact repairTrailer_below crc32 data index below
  · obtain ⟨offset, rfl⟩ := Nat.exists_eq_add_of_le (Nat.le_of_not_lt below)
    have offsetBound : offset < 4 := by omega
    have stored := store_inside data (12 + (lengthField data).toNat)
      (bytes32 (htonl (crc32 (data.slice 12 (lengthField data).toNat)))) offset offsetBound
    by_contra wrong
    refine unrefuted ⟨offset, offsetBound, bound, fun right => wrong ?_⟩
    rw [repairTrailer, stored]
    exact Option.some.inj ((List.getElem?_eq_getElem offsetBound).symm.trans right)

theorem repairTrailer_payloadSum (data : Memory) :
    PayloadSumValid crc32 (repairTrailer crc32 data) := by
  rw [payloadSum_iff]
  intro index bound
  rw [repairTrailer_lengthField, (repairTrailer_below crc32 data).slice_eq _ _ (Nat.le_refl _)]
  have stored := store_inside data (12 + (lengthField data).toNat)
    (bytes32 (htonl (crc32 (data.slice 12 (lengthField data).toNat)))) index bound
  exact (List.getElem?_eq_getElem bound).trans (congrArg some stored.symm)

theorem flippedTrailer_payloadSum {data : Memory} (valid : PayloadSumValid crc32 data) :
    ¬PayloadSumValid crc32 (flipByte data (15 + (lengthField data).toNat)) := by
  intro flipped
  have below := flipByte_agree data (15 + (lengthField data).toNat) _ (Nat.le_refl _)
  have sameLength := (below.mono 4 (by omega)).lengthField_eq
  have fromFlipped := (payloadSum_iff crc32 _).mp flipped 3 (by omega)
  have fromData := (payloadSum_iff crc32 data).mp valid 3 (by omega)
  rw [sameLength, below.slice_eq _ _ (by omega), fromData] at fromFlipped
  have last : 12 + (lengthField data).toNat + 3 = 15 + (lengthField data).toNat := by omega
  rw [last] at fromFlipped
  exact flipByte_ne data _ (Option.some.inj fromFlipped).symm

theorem exact_payload_received {data : Memory} {len : Nat} (decodes : DecodesExactly crc32 data len)
    (accepted : ¬FirstWordRejected data) (sum : HeaderSumValid crc32 data)
    (nonempty : lengthField data ≠ 0) (unrefuted : ¬TrailerRefuted crc32 data len) :
    16 + (lengthField data).toNat ≤ len := by
  by_contra short
  have long := exact_header_received crc32 decodes accepted
  let good := repairTrailer crc32 data
  let bad := flipByte good (15 + (lengthField good).toNat)
  have goodLength : lengthField good = lengthField data := repairTrailer_lengthField crc32 data
  have goodAgree : Agree good data len := repairTrailer_agree crc32 unrefuted (by omega)
  have goodFirst := goodAgree.mono 4 (by omega)
  have goodHeader := goodAgree.mono 12 long
  have goodSum : PayloadSumValid crc32 good := repairTrailer_payloadSum crc32 data
  have badBelow : Agree bad good (15 + (lengthField good).toNat) :=
    flipByte_agree good _ _ (Nat.le_refl _)
  have badFirst := badBelow.mono 4 (by omega)
  have badAgree : Agree bad data len := fun index bound =>
    (badBelow index (by rw [goodLength]; omega)).trans (goodAgree index bound)
  have goodOk : (pktDecode crc32 (some good) len pktNew).1 = .pktOk := by
    rw [pktDecode_ok_iff, FirstWordRejected, goodFirst.typeRejected_iff, goodLength,
      goodHeader.headerSum_iff]
    exact ⟨accepted, sum, Or.inr goodSum⟩
  rw [decodes.2 good goodAgree, ← decodes.2 bad badAgree, pktDecode_ok_iff] at goodOk
  rcases goodOk.2.2 with empty | valid
  · rw [badFirst.lengthField_eq, goodLength] at empty
    exact nonempty empty
  · exact flippedTrailer_payloadSum crc32 goodSum valid

theorem pktDecode_exact_iff (data : Memory) (len : Nat) :
    DecodesExactly crc32 data len ↔ LengthCoherent crc32 data len := by
  refine ⟨fun decodes => ?_, coherent_exact crc32 data len⟩
  by_cases rejected : FirstWordRejected data
  · exact Or.inl ⟨exact_firstWord_received crc32 decodes rejected, rejected⟩
  have long := exact_header_received crc32 decodes rejected
  by_cases sum : HeaderSumValid crc32 data
  swap
  · exact Or.inr (Or.inl ⟨long, rejected, sum⟩)
  refine Or.inr (Or.inr ⟨rejected, sum, ?_⟩)
  have accepts := decodes.1
  rw [pktDecode_ok_iff, wellFormed_slice_iff] at accepts
  by_cases empty : lengthField data = 0
  · rcases (accepts.mp ⟨rejected, sum, Or.inl empty⟩).2.2 with bare | ⟨_, nonempty, _⟩
    · exact Or.inl ⟨empty, bare.2⟩
    · exact absurd empty nonempty
  by_cases refuted : TrailerRefuted crc32 data len
  · exact Or.inr (Or.inr ⟨empty, refuted⟩)
  have received := exact_payload_received crc32 decodes rejected sum empty refuted
  have payloadSum : PayloadSumValid crc32 data := by
    rw [payloadSum_iff]
    intro index bound
    by_contra wrong
    exact refuted ⟨index, bound, by omega, wrong⟩
  rcases (accepts.mp ⟨rejected, sum, Or.inr payloadSum⟩).2.2 with bare | ⟨whole, _, size, _⟩
  · omega
  · exact Or.inr (Or.inl ⟨empty, whole, by omega⟩)

end

/-- An intact ACK of twelve bytes with one more byte behind it, thirteen bytes received. -/
def ackThenGarbage : Memory :=
  Memory.store (fun _ => 0) 0 [0x9F, 0x05, 0, 0, 0, 0, 0, 0, 0xC1, 0xBA, 0x56, 0x93, 0x55]

theorem ackThenGarbage_not_exact : ¬DecodesExactly Crc.crc32 ackThenGarbage 13 := by
  intro decodes
  have accepted : (pktDecode Crc.crc32 (some ackThenGarbage) 13 pktNew).1 = .pktOk := by
    decide +kernel
  have empty : lengthField ackThenGarbage = 0 := by decide +kernel
  rcases ((wellFormed_slice_iff Crc.crc32 ackThenGarbage 13).mp (decodes.1.mp accepted)).2.2 with
    bare | whole
  · exact absurd bare.2 (by omega)
  · exact whole.2.1 empty

end SelectiveRepeat
