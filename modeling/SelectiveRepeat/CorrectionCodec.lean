import SelectiveRepeat.Correction
import SelectiveRepeat.Delivery
import SelectiveRepeat.PacketEncode

/-! What the codec of `correction.c` accepts, how far it reads, and how far it and the codec of
`packet_implement.c` are the same. -/

namespace SelectiveRepeat.Correction

open Bytes

/-- The size that `pkt_decode` takes a datagram of `len` bytes to have, if any: `len` is narrowed to
an `int`, and a payload has at least one byte. -/
def datagramSize (len : BitVec 64) : Option Nat :=
  if len.toNat = 12 then some 12
  else if 12 < len.toNat ∧ 0 < tempLength len then some (16 + (tempLength len).toNat)
  else none

theorem tempLength_eq (len : BitVec 64) :
    tempLength len = ((len.toNat : Int) - 16).bmod 4294967296 := by
  have bound := len.isLt
  have sixteen : (16 : BitVec 64).toNat = 16 := rfl
  rw [tempLength, BitVec.toInt_setWidth, BitVec.toNat_sub, sixteen, Int.bmod_def, Int.bmod_def]
  omega

theorem datagramSize_le {len : BitVec 64} {size : Nat} (taken : datagramSize len = some size) :
    size ≤ len.toNat := by
  rw [datagramSize, tempLength_eq, Int.bmod_def] at taken
  split_ifs at taken with bare long below
  all_goals
    obtain rfl := Option.some.inj taken
    omega

theorem datagramSize_eq {len : Nat} (small : len < 2147483648) :
    datagramSize (BitVec.ofNat 64 len) = if len = 12 ∨ 16 < len then some len else none := by
  have same : (BitVec.ofNat 64 len).toNat = len := by
    rw [BitVec.toNat_ofNat]
    omega
  have temp : tempLength (BitVec.ofNat 64 len) = (len : Int) - 16 := by
    rw [tempLength_eq, same, Int.bmod_def]
    omega
  rw [datagramSize, same, temp]
  by_cases bare : len = 12
  · rw [if_pos bare, if_pos (Or.inl bare), bare]
  · by_cases long : 16 < len
    · rw [if_neg bare, if_pos (by omega), if_pos (Or.inr long)]
      congr 1
      omega
    · rw [if_neg bare, if_neg (by omega), if_neg (by omega)]

theorem datagramSize_checks {len : BitVec 64} {size : Nat} (taken : datagramSize len = some size) :
    ¬len.toNat < 12 ∧ ¬(len.toNat > 12 ∧ ¬tempLength len > 0) ∧
      (if len.toNat > 12 then (tempLength len).toNat else 0) = size - 16 ∧
        (size = 12 ∨ 16 < size) := by
  rw [datagramSize] at taken
  split_ifs at taken with bare long
  · obtain rfl := Option.some.inj taken
    rw [if_neg (by omega)]
    omega
  · obtain rfl := Option.some.inj taken
    rw [if_pos long.1]
    omega

section

variable (crc32 : List Byte → BitVec 32)

theorem coveredHeader_whole {data : Memory} (whole : trField data = 0) :
    coveredHeader data = data.slice 0 8 := by
  have clear : ∀ flags : Byte, flags.extractLsb' 5 1 = 0 → clearTr flags = flags := by decide
  rw [coveredHeader_eq, clear _ whole]
  exact ((slice_headerFields_iff data _ _ _ _).mpr ⟨rfl, rfl, rfl, rfl⟩).symm

/-- The packet after its header is read. -/
def headerRead (pkt : Pkt) (data : Memory) : Pkt :=
  { copyHeader pkt data with length := lengthField data, crc1 := crc1Field data }

/-- How many bytes a datagram with this length field has. -/
def announcedSize (data : Memory) : Nat :=
  if lengthField data = 0 then 12 else 16 + (lengthField data).toNat

theorem sub_ne_length_iff {size : Nat} (sizes : size = 12 ∨ 16 < size) (data : Memory) :
    size - 16 ≠ (lengthField data).toNat ↔ size ≠ announcedSize data := by
  rw [announcedSize]
  by_cases empty : lengthField data = 0
  · have noLength : (lengthField data).toNat = 0 := by simp [empty]
    rw [if_pos empty]
    omega
  · have someLength : (lengthField data).toNat ≠ 0 := by simpa [← BitVec.toNat_inj] using empty
    rw [if_neg empty]
    omega

theorem pktSetPayload_slice (pkt : Pkt) (data : Memory) {length : BitVec 16} (nonempty : length ≠ 0)
    (short : length.toNat ≤ 512) :
    pktSetPayload pkt (some (data.slice 12 length.toNat)) length =
      (.pktOk, { pkt with payload := some (data.slice 12 length.toNat), length }) := by
  have whole : (data.slice 12 length.toNat).take length.toNat = data.slice 12 length.toNat :=
    List.take_of_length_le (by rw [slice_length])
  simp only [pktSetPayload, if_neg nonempty, if_pos short, whole, pktSetLength,
    if_neg (Nat.not_lt.mpr short)]
  split <;> rfl

theorem decodePayload_eq (data : Memory) {pkt : Pkt} (whole : pkt.trFlag = 0) {length : BitVec 16}
    (short : length.toNat ≤ 512) :
    decodePayload crc32 data length.toNat pkt =
      if length = 0 then (.pktOk, pkt)
      else if crc32 (data.slice 12 length.toNat) ≠ ntohl (data.load32 (12 + length.toNat)) then
        (.eCrc, pkt)
      else (.pktOk, { pkt with
        payload := some (data.slice 12 length.toNat), length
        crc2 := ntohl (data.load32 (12 + length.toNat)) }) := by
  by_cases empty : length = 0
  · subst empty
    rfl
  · have nonzero : length.toNat ≠ 0 := by simpa [← BitVec.toNat_inj] using empty
    have set := pktSetPayload_slice pkt data empty short
    have setCrc2 : pktSetCrc2 { pkt with payload := some (data.slice 12 length.toNat), length }
        (ntohl (data.load32 (12 + length.toNat))) = (.pktOk, { pkt with
          payload := some (data.slice 12 length.toNat), length
          crc2 := ntohl (data.load32 (12 + length.toNat)) }) :=
      if_pos ⟨Option.some_ne_none _, whole⟩
    simp only [decodePayload, BitVec.ofNat_toNat, BitVec.setWidth_eq, set, setCrc2, if_pos nonzero,
      if_neg empty, ne_eq, not_true_eq_false, if_false]

theorem pktDecode_taken (data : Memory) {len : BitVec 64} {size : Nat}
    (taken : datagramSize len = some size) (pkt : Pkt) :
    pktDecode crc32 (some data) len (some pkt) =
      if trField data ≠ 0 then (.eTr, some (copyHeader pkt data))
      else if maxPayloadSize < (lengthField data).toNat then (.pktOk, some (copyHeader pkt data))
      else if ¬HeaderSumValid crc32 data then (.eCrc, some (headerRead pkt data))
      else if size ≠ announcedSize data then (.eLength, some (headerRead pkt data))
      else if typeField data = 0 then (.eType, some (headerRead pkt data))
      else if lengthField data = 0 then (.pktOk, some (headerRead pkt data))
      else if ¬PayloadSumValid crc32 data then (.eCrc, some (headerRead pkt data))
      else (.pktOk, some { headerRead pkt data with
        payload := some (data.slice 12 (lengthField data).toNat), crc2 := trailerField data }) := by
  obtain ⟨notShort, notNegative, taille, sizes⟩ := datagramSize_checks taken
  have tr : pktGetTr (copyHeader pkt data) = 1 ↔ trField data ≠ 0 := by
    have bits : ∀ bit : BitVec 1, bit.toNat = 1 ↔ bit ≠ 0 := by decide
    exact bits _
  have badType : ∀ type : BitVec 2, type ≠ 1 ∧ type ≠ 2 ∧ type ≠ 3 ↔ type.toNat = 0 := by decide
  have length : pktSetLength (copyHeader pkt data) (ntohs (pktGetLength (copyHeader pkt data))) =
      if maxPayloadSize < (lengthField data).toNat then (.eLength, copyHeader pkt data)
      else (.pktOk, { copyHeader pkt data with length := lengthField data }) := rfl
  simp only [pktDecode, if_neg notShort, if_neg notNegative, taille, tr, length]
  by_cases whole : trField data = 0
  swap
  · rw [if_pos whole, if_pos whole]
  rw [if_neg (not_not.mpr whole), if_neg (not_not.mpr whole)]
  by_cases tooLong : maxPayloadSize < (lengthField data).toNat
  · rw [if_pos tooLong, if_pos tooLong]
    rfl
  rw [if_neg tooLong, if_neg tooLong]
  change (if crc32 (data.slice 0 8) ≠ crc1Field data then _
    else if size - 16 ≠ (lengthField data).toNat then _
    else if (headerRead pkt data).type ≠ 1 ∧ (headerRead pkt data).type ≠ 2 ∧
      (headerRead pkt data).type ≠ 3 then _
    else ((decodePayload crc32 data (size - 16) (headerRead pkt data)).1,
      some (decodePayload crc32 data (size - 16) (headerRead pkt data)).2)) = _
  rw [← coveredHeader_whole whole]
  change (if ¬HeaderSumValid crc32 data then _ else _) = _
  congr 1
  simp only [sub_ne_length_iff sizes data, badType]
  by_cases fits : size = announcedSize data
  swap
  · rw [if_pos fits, if_pos fits]
    rfl
  have same : size - 16 = (lengthField data).toNat :=
    not_not.mp (mt (sub_ne_length_iff sizes data).mp (not_not.mpr fits))
  rw [if_neg (not_not.mpr fits), if_neg (not_not.mpr fits), same]
  congr 1
  have tail : decodePayload crc32 data (lengthField data).toNat (headerRead pkt data) =
      if lengthField data = 0 then (.pktOk, headerRead pkt data)
      else if ¬PayloadSumValid crc32 data then (.eCrc, headerRead pkt data)
      else (.pktOk, { headerRead pkt data with
        payload := some (data.slice 12 (lengthField data).toNat), crc2 := trailerField data }) :=
    decodePayload_eq crc32 data whole (Nat.not_lt.mp tooLong)
  rw [tail]
  split_ifs <;> rfl

theorem pktDecode_refused {len : BitVec 64} (refused : datagramSize len = none) (data : Memory)
    (pkt : Pkt) : pktDecode crc32 (some data) len (some pkt) = (.eUnconsistent, some pkt) := by
  rw [datagramSize] at refused
  split_ifs at refused with bare long
  simp only [pktDecode]
  by_cases short : len.toNat < 12
  · rw [if_pos short]
  · rw [if_neg short, if_pos (by omega)]

/-! What is accepted. -/

structure Checked (data : Memory) : Prop where
  whole : trField data = 0
  short : (lengthField data).toNat ≤ maxPayloadSize
  header : HeaderSumValid crc32 data
  type : typeField data ≠ 0
  payload : lengthField data = 0 ∨ PayloadSumValid crc32 data

theorem accepted_taken_iff (data : Memory) {len : BitVec 64} {size : Nat}
    (taken : datagramSize len = some size) (pkt : Pkt) :
    (pktDecode crc32 (some data) len (some pkt)).1 = .pktOk ↔
      trField data = 0 ∧ maxPayloadSize < (lengthField data).toNat ∨
        Checked crc32 data ∧ size = announcedSize data := by
  have parts : Checked crc32 data ↔ trField data = 0 ∧ ¬maxPayloadSize < (lengthField data).toNat ∧
      HeaderSumValid crc32 data ∧ typeField data ≠ 0 ∧
        (lengthField data = 0 ∨ PayloadSumValid crc32 data) := by
    rw [Nat.not_lt]
    exact ⟨fun ⟨whole, short, header, type, payload⟩ => ⟨whole, short, header, type, payload⟩,
      fun ⟨whole, short, header, type, payload⟩ => ⟨whole, short, header, type, payload⟩⟩
  rw [pktDecode_taken crc32 data taken, parts]
  split_ifs <;> simp_all

theorem wellFormed_announced_iff {data : Memory} (whole : trField data = 0) (size : Nat) :
    WellFormed crc32 (data.slice 0 size) ↔ Checked crc32 data ∧ size = announcedSize data := by
  rw [wellFormed_slice_iff, FirstWordRejected, TypeRejected, announcedSize]
  constructor
  · rintro ⟨accepted, header, parts⟩
    have short := Nat.not_lt.mp fun long => accepted (Or.inr long)
    have type := fun none => accepted (Or.inl (Or.inl none))
    rcases parts with ⟨cut | empty, bare⟩ | ⟨_, nonempty, long, payload⟩
    · exact absurd whole cut
    · rw [if_pos empty]
      exact ⟨⟨whole, short, header, type, Or.inl empty⟩, bare⟩
    · rw [if_neg nonempty]
      exact ⟨⟨whole, short, header, type, Or.inr payload⟩, by omega⟩
  · rintro ⟨checked, fits⟩
    refine ⟨?_, checked.header, ?_⟩
    · rintro ((none | ⟨cut, _⟩) | long)
      · exact checked.type none
      · exact cut whole
      · exact Nat.not_lt.mpr checked.short long
    · by_cases empty : lengthField data = 0
      · rw [if_pos empty] at fits
        exact Or.inl ⟨Or.inr empty, fits⟩
      · rw [if_neg empty] at fits
        exact Or.inr ⟨whole, empty, by omega, checked.payload.resolve_left empty⟩

theorem copyHeader_agree {other data : Memory} (agree : Agree other data 12) (pkt : Pkt) :
    copyHeader pkt other = copyHeader pkt data := by
  simp only [copyHeader, agree 0 (by omega), agree 1 (by omega), agree.load16_eq 2 (by omega),
    agree.load32_eq 4 (by omega), agree.load32_eq 8 (by omega)]

theorem pktDecode_agree {other data : Memory} {len : BitVec 64} (agree : Agree other data len.toNat)
    (pkt : Pkt) :
    pktDecode crc32 (some other) len (some pkt) = pktDecode crc32 (some data) len (some pkt) := by
  cases taken : datagramSize len with
  | none => rw [pktDecode_refused crc32 taken, pktDecode_refused crc32 taken]
  | some size =>
      have read := datagramSize_le taken
      have sizes := (datagramSize_checks taken).2.2.2
      have header := agree.mono 12 (by omega)
      have first := header.mono 4 (by omega)
      have tr : trField other = trField data := by rw [trField, trField, first 0 (by omega)]
      have type : typeField other = typeField data := by
        rw [typeField, typeField, first 0 (by omega)]
      have read_eq : headerRead pkt other = headerRead pkt data := by
        rw [headerRead, headerRead, copyHeader_agree header, first.lengthField_eq, crc1Field,
          crc1Field, header.load32_eq 8 (by omega)]
      have announced : announcedSize other = announcedSize data := by
        rw [announcedSize, announcedSize, first.lengthField_eq]
      simp only [pktDecode_taken crc32 _ taken, tr, type, first.lengthField_eq, announced, read_eq,
        copyHeader_agree header, header.headerSum_iff]
      by_cases fits : size = announcedSize data
      swap
      · simp only [fits, ne_eq, not_false_eq_true, if_true]
      by_cases empty : lengthField data = 0
      · simp only [empty, if_true]
      rw [announcedSize, if_neg empty] at fits
      have slice := agree.slice_eq 12 (lengthField data).toNat (by omega)
      have trailer : trailerField other = trailerField data := by
        rw [trailerField, trailerField, first.lengthField_eq, agree.load32_eq _ (by omega)]
      have sum : PayloadSumValid crc32 other ↔ PayloadSumValid crc32 data := by
        rw [PayloadSumValid, PayloadSumValid, first.lengthField_eq, slice, trailer]
      simp only [sum, slice, trailer]

end

/-- The same packet in the other structure, where no payload is a null pointer. -/
def ofPkt (pkt : SelectiveRepeat.Pkt) : Pkt where
  window := pkt.window
  trFlag := pkt.truncated
  type := pkt.type
  seqNum := pkt.seqnum
  length := pkt.length
  timestamp := pkt.timestamp
  crc1 := pkt.crc1
  payload := if pkt.payload = [] then none else some pkt.payload
  crc2 := pkt.crc2

theorem ofPkt_payload (pkt : SelectiveRepeat.Pkt) : (ofPkt pkt).payload.getD [] = pkt.payload := by
  by_cases empty : pkt.payload = []
  · simp [ofPkt, empty]
  · simp [ofPkt, empty]

theorem ofPkt_injective : Function.Injective ofPkt := by
  intro first second same
  have payload := congrArg (fun pkt => pkt.payload.getD []) same
  simp only [ofPkt_payload] at payload
  simp only [ofPkt, Pkt.mk.injEq] at same
  obtain ⟨window, truncated, type, seqnum, length, timestamp, crc1, _, crc2⟩ := same
  obtain ⟨⟩ := first
  obtain ⟨⟩ := second
  simp_all

section

variable (crc32 : List Byte → BitVec 32)

def checkedPkt (data : Memory) : SelectiveRepeat.Pkt :=
  if lengthField data = 0 then headerPkt data
  else { headerPkt data with
    payload := data.slice 12 (lengthField data).toNat, crc2 := trailerField data }

theorem checkedPkt_fields (data : Memory) : (checkedPkt data).truncated = trField data ∧
    (checkedPkt data).wireSize = announcedSize data := by
  rw [checkedPkt, announcedSize]
  split_ifs with empty
  · exact ⟨rfl, if_pos empty⟩
  · exact ⟨rfl, if_neg empty⟩

theorem Checked.decodes_strictly {data : Memory} (checked : Checked crc32 data) {len : BitVec 64}
    (taken : datagramSize len = some (announcedSize data)) :
    pktDecode crc32 (some data) len (some pktNew) = (.pktOk, some (ofPkt (checkedPkt data))) := by
  obtain ⟨whole, short, header, type, payload⟩ := checked
  rw [pktDecode_taken crc32 data taken, if_neg (not_not.mpr whole), if_neg (Nat.not_lt.mpr short),
    if_neg (not_not.mpr header), if_neg (not_not.mpr rfl), if_neg type, checkedPkt]
  by_cases empty : lengthField data = 0
  · rw [if_pos empty, if_pos empty]
    rfl
  · have some : data.slice 12 (lengthField data).toNat ≠ [] := by
      have positive : (lengthField data).toNat ≠ 0 := by simpa [← BitVec.toNat_inj] using empty
      apply List.ne_nil_of_length_pos
      rw [slice_length]
      omega
    rw [if_neg empty, if_neg empty, if_neg (not_not.mpr (payload.resolve_left empty)), ofPkt,
      if_neg some]
    rfl

theorem Checked.decodes {data : Memory} (checked : Checked crc32 data) (len : Nat) :
    SelectiveRepeat.pktDecode crc32 (some data) len SelectiveRepeat.pktNew =
      (.pktOk, checkedPkt data) := by
  obtain ⟨whole, short, header, type, payload⟩ := checked
  have accepted : ¬TypeRejected data := by
    rintro (none | ⟨cut, _⟩)
    · exact type none
    · exact cut whole
  rw [pktDecode_fresh, if_neg accepted, if_neg (Nat.not_lt.mpr short), if_neg (not_not.mpr header),
    checkedPkt]
  split_ifs with empty sum
  · rfl
  · rfl
  · exact absurd (payload.resolve_left empty) sum

end

/-- But for the datagrams that announce more than 512 bytes, `correction.c` decodes what
`packet_implement.c` decodes without TR from a datagram of exactly the size it announces, and to
the same packet. -/
theorem decoders_agree (crc32 : List Byte → BitVec 32) (data : Memory) (len : BitVec 64)
    (pkt : SelectiveRepeat.Pkt) :
    (pktDecode crc32 (some data) len (some pktNew) = (.pktOk, some (ofPkt pkt)) ∧
        (lengthField data).toNat ≤ maxPayloadSize) ↔
      SelectiveRepeat.pktDecode crc32 (some data) len.toNat SelectiveRepeat.pktNew = (.pktOk, pkt) ∧
        pkt.truncated = 0 ∧ datagramSize len = some pkt.wireSize := by
  obtain ⟨truncated, size⟩ := checkedPkt_fields data
  constructor
  · rintro ⟨decoded, short⟩
    cases taken : datagramSize len with
    | none =>
        rw [pktDecode_refused crc32 taken] at decoded
        exact absurd (Prod.mk.inj decoded).1 (by decide)
    | some taken_size =>
        have ok := congrArg Prod.fst decoded
        rcases (accepted_taken_iff crc32 data taken pktNew).mp ok with ⟨_, long⟩ | ⟨checked, fits⟩
        · exact absurd short (Nat.not_le.mpr long)
        · rw [checked.decodes_strictly crc32 (by rw [taken, fits])] at decoded
          obtain rfl := ofPkt_injective (Option.some.inj (Prod.mk.inj decoded).2)
          exact ⟨checked.decodes crc32 _, truncated.trans checked.whole, by rw [size, fits]⟩
  · rintro ⟨decoded, whole, taken⟩
    have ok := congrArg Prod.fst decoded
    obtain ⟨accepted, header, payload⟩ := (pktDecode_ok_iff crc32 data len.toNat).mp ok
    have short := Nat.not_lt.mp fun long => accepted (Or.inr long)
    have type := fun none => accepted (Or.inl (Or.inl none))
    have tr : pkt.truncated = trField data := pktDecode_truncated decoded
    have checked : Checked crc32 data := ⟨tr.symm.trans whole, short, header, type, payload⟩
    rw [checked.decodes crc32] at decoded
    obtain rfl := (Prod.mk.inj decoded).2
    exact ⟨checked.decodes_strictly crc32 (by rw [taken, size]), short⟩

theorem headerImage_copied (pkt : SelectiveRepeat.Pkt) (buf : Memory) :
    headerImage (pktSetTr (copyHeader pktNew (buf.store 0
      (headerFields (flagsByte pkt) pkt.seqnum pkt.length pkt.timestamp))) 0).2 = pkt.covered := by
  have read : (buf.store 0 (headerFields (flagsByte pkt) pkt.seqnum pkt.length pkt.timestamp)).slice 0
      8 = headerFields (flagsByte pkt) pkt.seqnum pkt.length pkt.timestamp :=
    slice_store_self buf 0 (headerFields (flagsByte pkt) pkt.seqnum pkt.length pkt.timestamp)
  generalize buf.store 0 (headerFields (flagsByte pkt) pkt.seqnum pkt.length pkt.timestamp) = data
    at read ⊢
  obtain ⟨flags, seqnum, length, timestamp⟩ := (slice_headerFields_iff data _ _ _ _).mp read
  have network : data.load16 2 = htons pkt.length := by rw [← length, lengthField, htons_ntohs]
  have clear : (data 0).extractLsb' 6 2 ++ (0 : BitVec 1) ++ (data 0).extractLsb' 0 5 =
      clearTr (flagsByte pkt) := by
    rw [flags]
    exact clearTr_flags _
  show [(data 0).extractLsb' 6 2 ++ (0 : BitVec 1) ++ (data 0).extractLsb' 0 5, data 1] ++
    bytes16 (data.load16 2) ++ bytes32 (data.load32 4) = pkt.covered
  rw [clear, seqnum, network, timestamp]
  rfl

theorem pktEncode_closed (crc32 : List Byte → BitVec 32) (pkt : SelectiveRepeat.Pkt) (buf : Memory)
    (len : Nat) (size : pkt.payload.length = pkt.length.toNat) :
    pktEncode crc32 (ofPkt pkt) (some buf) len =
      if len < pkt.wireSize then (.eNomem, some buf, len)
      else (.pktOk, some (buf.store 0 (packetBytes crc32 pkt)), pkt.wireSize) := by
  have fields : ((buf.store 0 [flagsByte pkt, pkt.seqnum]).store 2 (bytes16 (htons pkt.length))).store
      4 (bytes32 pkt.timestamp) =
        buf.store 0 (headerFields (flagsByte pkt) pkt.seqnum pkt.length pkt.timestamp) := by
    rw [store_store _ _ 2 _ _ rfl, store_store _ _ 4 _ _ rfl]
    rfl
  have covered := headerImage_copied pkt buf
  have status : (pktSetTr (copyHeader pktNew (buf.store 0
      (headerFields (flagsByte pkt) pkt.seqnum pkt.length pkt.timestamp))) 0).1 = .pktOk := rfl
  have header : (buf.store 0 (headerFields (flagsByte pkt) pkt.seqnum pkt.length pkt.timestamp)).store
      8 (bytes32 (htonl (crc32 pkt.covered))) = buf.store 0
        (headerBytes crc32 (flagsByte pkt) pkt.seqnum pkt.length pkt.timestamp) := by
    rw [store_store _ _ 8 _ _ rfl]
    rfl
  have flags : (ofPkt pkt).type ++ (ofPkt pkt).trFlag ++ (ofPkt pkt).window = flagsByte pkt := rfl
  have seqnum : (ofPkt pkt).seqNum = pkt.seqnum := rfl
  have length : pktGetLength (ofPkt pkt) = pkt.length := rfl
  have timestamp : pktGetTimestamp (ofPkt pkt) = pkt.timestamp := rfl
  simp only [pktEncode, flags, seqnum, length, timestamp, fields, covered, status, header, ne_eq,
    not_true_eq_false, if_false]
  by_cases empty : pkt.length = 0
  · have wire : pkt.wireSize = 12 := if_pos empty
    have bytes : packetBytes crc32 pkt =
        headerBytes crc32 (flagsByte pkt) pkt.seqnum pkt.length pkt.timestamp := by
      rw [packetBytes, if_pos empty, List.append_nil]
    rw [wire, bytes]
    by_cases small : len < 12
    · rw [if_pos small, if_pos small, ite_self]
    · rw [if_neg (by omega), if_neg small, if_neg small, if_neg fun both => both.1 empty,
        if_neg (not_not.mpr empty)]
  · have wire : pkt.wireSize = 16 + pkt.length.toNat := if_neg empty
    have payload : ((pktGetPayload (ofPkt pkt)).getD []).take pkt.length.toNat = pkt.payload := by
      rw [pktGetPayload, length, if_neg empty, ofPkt_payload, ← size, List.take_length]
    have written : ((buf.store 0 (headerBytes crc32 (flagsByte pkt) pkt.seqnum pkt.length
        pkt.timestamp)).store 12 pkt.payload).store (12 + pkt.length.toNat)
        (bytes32 (htonl (crc32 pkt.payload))) = buf.store 0 (packetBytes crc32 pkt) := by
      rw [store_store _ _ 12 _ _ rfl, store_store _ _ _ _ _ (by simp [size]), packetBytes,
        if_neg empty, List.append_assoc]
    rw [wire, payload, written]
    by_cases small : len < 16 + pkt.length.toNat
    · rw [if_pos small, if_pos (c := ¬pkt.length = 0 ∧ _) ⟨empty, by omega⟩, ite_self, ite_self]
    · rw [if_neg (by omega), if_neg (by omega), if_neg fun both => small (by omega), if_pos empty,
        if_neg small]
      congr 2
      omega

/-- Unlike the other encoder, this one asks for exactly the room that it uses. -/
theorem encode_respects_buffer (crc32 : List Byte → BitVec 32) (pkt : SelectiveRepeat.Pkt)
    (buf : Memory) (len : Nat) (size : pkt.payload.length = pkt.length.toNat) :
    (len < pkt.wireSize →
      pktEncode crc32 (ofPkt pkt) (some buf) len = (.eNomem, some buf, len)) ∧
    (pkt.wireSize ≤ len → ∃ bytes, bytes.length = pkt.wireSize ∧
      pktEncode crc32 (ofPkt pkt) (some buf) len =
        (.pktOk, some (buf.store 0 bytes), pkt.wireSize)) := by
  rw [pktEncode_closed crc32 pkt buf len size]
  constructor
  · intro small
    rw [if_pos small]
  · intro room
    exact ⟨packetBytes crc32 pkt, packetBytes_length crc32 pkt size, if_neg (Nat.not_lt.mpr room)⟩

theorem encode_respects_buffer_test :
    pktEncode Crc.crc32 (ofPkt testPkt) (some fun _ => 0) 18 = (.eNomem, some fun _ => 0, 18) ∧
      ∃ bytes, bytes.length = 22 ∧ pktEncode Crc.crc32 (ofPkt testPkt) (some fun _ => 0) 22 =
        (.pktOk, some (Memory.store (fun _ => 0) 0 bytes), 22) := by
  have small := encode_respects_buffer Crc.crc32 testPkt (fun _ => 0) 18 testPkt_valid.payload
  have enough := encode_respects_buffer Crc.crc32 testPkt (fun _ => 0) 22 testPkt_valid.payload
  exact ⟨small.1 (by decide), enough.2 (by decide)⟩

/-- Whichever codec encodes a packet without TR, both decode it. -/
theorem codecs_interoperate (crc32 : List Byte → BitVec 32) {pkt : SelectiveRepeat.Pkt}
    (valid : pkt.Valid) (whole : pkt.truncated = 0) (noTrailer : pkt.length = 0 → pkt.crc2 = 0)
    (buf : Memory) {len : Nat} (room : pkt.wireSize ≤ len) :
    ∃ written, pktEncode crc32 (ofPkt pkt) (some buf) len = (.pktOk, some written, pkt.wireSize) ∧
      SelectiveRepeat.pktEncode crc32 (some pkt) (some buf) len =
        (.pktOk, some written, pkt.wireSize) ∧
      ∀ data, Agree data written pkt.wireSize →
        SelectiveRepeat.pktDecode crc32 (some data) pkt.wireSize SelectiveRepeat.pktNew =
          (.pktOk, decodedPkt crc32 pkt) ∧
        pktDecode crc32 (some data) (BitVec.ofNat 64 pkt.wireSize) (some pktNew) =
          (.pktOk, some (ofPkt (decodedPkt crc32 pkt))) := by
  have size := packetBytes_length crc32 pkt valid.payload
  refine ⟨buf.store 0 (packetBytes crc32 pkt), ?_,
    pktEncode_eq crc32 pkt buf len valid.payload room noTrailer, fun data agree => ?_⟩
  · rw [pktEncode_closed crc32 pkt buf len valid.payload, if_neg (Nat.not_lt.mpr room)]
  · have received : data.slice 0 pkt.wireSize = packetBytes crc32 pkt := by
      rw [agree.slice_eq _ _ (by omega), ← size, slice_store_self]
    have decoded := pktDecode_packetBytes crc32 pkt valid data pkt.wireSize received
    refine ⟨decoded, ?_⟩
    obtain ⟨accepted, header, payload⟩ :=
      (pktDecode_ok_iff crc32 data pkt.wireSize).mp (congrArg Prod.fst decoded)
    have tr : trField data = 0 := (pktDecode_truncated decoded).symm.trans whole
    have checked : Checked crc32 data := ⟨tr, Nat.not_lt.mp fun long => accepted (Or.inr long),
      header, fun none => accepted (Or.inl (Or.inl none)), payload⟩
    have same : checkedPkt data = decodedPkt crc32 pkt :=
      (Prod.mk.inj ((checked.decodes crc32 pkt.wireSize).symm.trans decoded)).2
    have announced : announcedSize data = pkt.wireSize := by
      rw [← (checkedPkt_fields data).2, same]
      rfl
    have bound := valid.wireSize_le
    have sizes : pkt.wireSize = 12 ∨ 16 < pkt.wireSize := by
      have zero := pktGetLength_eq_zero_iff pkt
      rw [SelectiveRepeat.pktGetLength] at zero
      rw [Pkt.wireSize]
      split_ifs with empty
      · exact Or.inl rfl
      · have positive := mt zero.mp empty
        omega
    rw [checked.decodes_strictly crc32, same]
    rw [datagramSize_eq (by omega), if_pos sizes, announced]

theorem codecs_interoperate_test : ∃ written,
    pktEncode Crc.crc32 (ofPkt testPkt) (some fun _ => 0) 50 = (.pktOk, some written, 22) ∧
      SelectiveRepeat.pktEncode Crc.crc32 (some testPkt) (some fun _ => 0) 50 =
        (.pktOk, some written, 22) ∧
      ∀ data, Agree data written 22 →
        SelectiveRepeat.pktDecode Crc.crc32 (some data) 22 SelectiveRepeat.pktNew =
          (.pktOk, decodedPkt Crc.crc32 testPkt) ∧
        pktDecode Crc.crc32 (some data) 22 (some pktNew) =
          (.pktOk, some (ofPkt (decodedPkt Crc.crc32 testPkt))) :=
  codecs_interoperate Crc.crc32 testPkt_valid rfl (by decide) (fun _ => 0) (by decide)

end SelectiveRepeat.Correction
