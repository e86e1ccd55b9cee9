import SelectiveRepeat.PacketRoundTrip
import SelectiveRepeat.System

/-! Datagrams on their way: what a program that receives one decodes, when it arrives
as it was sent, and when the network has cut it to its header. -/

namespace SelectiveRepeat

open Bytes

/-- The datagram decodes to this packet, with these bytes left over in the receive buffer. -/
def Decodes (sys : Sys) (datagram : Datagram) (stale : Memory) (pkt : Pkt) : Prop :=
  pktDecode sys.crc32 (some (recvBuffer datagram stale)) (received datagram).length pktNew =
    (.pktOk, pkt)

section

variable {sys : Sys} {datagram : Datagram} {stale : Memory}

theorem Decodes.valid {pkt : Pkt} (decodes : Decodes sys datagram stale pkt) : pkt.Valid :=
  pktDecode_valid sys.crc32 decodes

theorem Decodes.unique {pkt other : Pkt} (decodes : Decodes sys datagram stale pkt)
    (again : Decodes sys datagram stale other) : other = pkt :=
  (Prod.mk.inj (again.symm.trans decodes)).2

theorem pktDecode_rejected (rejected : ∀ pkt, ¬Decodes sys datagram stale pkt) :
    (pktDecode sys.crc32 (some (recvBuffer datagram stale)) (received datagram).length pktNew).1 ≠
      .pktOk :=
  fun ok => rejected _ (Prod.ext ok rfl)

end

theorem received_eq {datagram : Datagram} (short : datagram.length ≤ 528) :
    received datagram = datagram := List.take_of_length_le short

theorem Pkt.Valid.wireSize_le {pkt : Pkt} (valid : pkt.Valid) : pkt.wireSize ≤ 528 := by
  have bound : pkt.length.toNat ≤ 512 := valid.length
  rw [Pkt.wireSize]
  split <;> omega

theorem decodes_packetBytes (sys : Sys) {pkt : Pkt} (valid : pkt.Valid) (stale : Memory) :
    Decodes sys (packetBytes sys.crc32 pkt) stale (decodedPkt sys.crc32 pkt) := by
  have size := packetBytes_length sys.crc32 pkt valid.payload
  have whole : received (packetBytes sys.crc32 pkt) = packetBytes sys.crc32 pkt :=
    received_eq (by rw [size]; exact valid.wireSize_le)
  apply pktDecode_packetBytes sys.crc32 pkt valid
  rw [recvBuffer, whole, ← size, slice_store_self]

/-! Header truncation. -/

/-- What is left of a datagram that the network cuts: the header, with TR set. -/
def cutToHeader (datagram : Datagram) : Datagram := (datagram.take 12).modifyHead (· ||| 0x20)

theorem setTr_fields (flags : Byte) :
    (flags ||| 0x20).extractLsb' 0 5 = flags.extractLsb' 0 5 ∧
      (flags ||| 0x20).extractLsb' 5 1 = 1 ∧
      (flags ||| 0x20).extractLsb' 6 2 = flags.extractLsb' 6 2 ∧
      clearTr (flags ||| 0x20) = clearTr flags := by
  revert flags
  decide

theorem cutToHeader_packetBytes (crc32 : List Byte → BitVec 32) (pkt : Pkt) :
    cutToHeader (packetBytes crc32 pkt) =
      headerBytes crc32 (flagsByte pkt ||| 0x20) pkt.seqnum pkt.length pkt.timestamp := by
  obtain ⟨_, _, _, cleared⟩ := setTr_fields (flagsByte pkt)
  rw [cutToHeader, packetBytes, List.take_left' (headerBytes_length ..), headerBytes, headerBytes,
    cleared]
  rfl

theorem pktDecode_truncated {crc32 : List Byte → BitVec 32} {data : Memory} {len : Nat} {pkt : Pkt}
    (decoded : pktDecode crc32 (some data) len pktNew = (.pktOk, pkt)) :
    pkt.truncated = trField data := by
  rw [pktDecode_fresh] at decoded
  split_ifs at decoded
  all_goals
    obtain ⟨status, rfl⟩ := Prod.mk.inj decoded
    first
    | exact absurd status (by decide)
    | rfl

theorem Decodes.cut_getTr {sys : Sys} {datagram : Datagram} {stale : Memory} {pkt : Pkt}
    (some : datagram ≠ []) (decodes : Decodes sys (cutToHeader datagram) stale pkt) :
    pktGetTr pkt = 1 := by
  obtain ⟨flags, rest, rfl⟩ := List.exists_cons_of_ne_nil some
  have first : recvBuffer (cutToHeader (flags :: rest)) stale 0 = flags ||| 0x20 := rfl
  rw [pktGetTr, pktDecode_truncated decodes, trField, first, (setTr_fields flags).2.1]
  rfl

/-- The stale bytes behind the header happen to be a payload of this length and its checksum. -/
def LeftoverMatches (crc32 : List Byte → BitVec 32) (length : Nat) (stale : Memory) : Prop :=
  crc32 (stale.slice 12 length) = ntohl (stale.load32 (12 + length))

instance (crc32 : List Byte → BitVec 32) (length : Nat) (stale : Memory) :
    Decidable (LeftoverMatches crc32 length stale) := inferInstanceAs (Decidable (_ = _))

section

variable (sys : Sys) (stale : Memory) {pkt : Pkt}

def cutBuffer (pkt : Pkt) (stale : Memory) : Memory :=
  recvBuffer (cutToHeader (packetBytes sys.crc32 pkt)) stale

theorem cutBuffer_store (pkt : Pkt) : cutBuffer sys pkt stale = stale.store 0
    (headerBytes sys.crc32 (flagsByte pkt ||| 0x20) pkt.seqnum pkt.length pkt.timestamp) := by
  rw [cutBuffer, recvBuffer, cutToHeader_packetBytes, received_eq]
  rw [headerBytes_length]
  omega

theorem cutBuffer_fields (pkt : Pkt) :
    cutBuffer sys pkt stale 0 = flagsByte pkt ||| 0x20 ∧ cutBuffer sys pkt stale 1 = pkt.seqnum ∧
      lengthField (cutBuffer sys pkt stale) = pkt.length ∧
      (cutBuffer sys pkt stale).load32 4 = pkt.timestamp ∧
      HeaderSumValid sys.crc32 (cutBuffer sys pkt stale) := by
  apply (slice_headerBytes_iff ..).mp
  rw [cutBuffer_store]
  exact slice_store_self stale 0 (headerBytes sys.crc32 _ _ _ _)

theorem cutBuffer_payloadSum_iff (pkt : Pkt) :
    PayloadSumValid sys.crc32 (cutBuffer sys pkt stale) ↔
      LeftoverMatches sys.crc32 (pktGetLength pkt) stale := by
  have length := (cutBuffer_fields sys stale pkt).2.2.1
  have behind (address : Nat) (outside : 12 ≤ address) :
      cutBuffer sys pkt stale address = stale address := by
    rw [cutBuffer_store]
    exact store_outside stale 0 _ address (Or.inr (by rw [headerBytes_length]; omega))
  have payload := slice_congr (cutBuffer sys pkt stale) stale 12 (pktGetLength pkt)
    fun index _ => behind (12 + index) (by omega)
  have trailer := load32_congr (cutBuffer sys pkt stale) stale (12 + pktGetLength pkt)
    fun index _ => behind (12 + pktGetLength pkt + index) (by omega)
  rw [PayloadSumValid, trailerField, length, LeftoverMatches]
  rw [pktGetLength] at payload trailer ⊢
  rw [payload, trailer]

theorem pktDecode_cutBuffer (valid : pkt.Valid) (isData : pktGetType pkt = ptypeData) (len : Nat) :
    pktDecode sys.crc32 (some (cutBuffer sys pkt stale)) len pktNew =
      if pkt.length = 0 then (.pktOk, headerPkt (cutBuffer sys pkt stale))
      else if ¬LeftoverMatches sys.crc32 (pktGetLength pkt) stale then
        (.eCrc, { headerPkt (cutBuffer sys pkt stale) with length := 0 })
      else (.pktOk,
        { headerPkt (cutBuffer sys pkt stale) with
          payload := (cutBuffer sys pkt stale).slice 12 pkt.length.toNat
          crc2 := trailerField (cutBuffer sys pkt stale) }) := by
  obtain ⟨flags, seqnum, length, timestamp, sum⟩ := cutBuffer_fields sys stale pkt
  obtain ⟨_, tr, type, _⟩ := setTr_fields (flagsByte pkt)
  have typeField : typeField (cutBuffer sys pkt stale) = ptypeData := by
    rw [SelectiveRepeat.typeField, flags, type, (flagsByte_fields pkt).2.2]
    exact isData
  have accepted : ¬TypeRejected (cutBuffer sys pkt stale) := by
    rintro (noType | ⟨_, notData⟩)
    · rw [typeField] at noType
      exact absurd noType (by decide)
    · exact notData typeField
  have short : ¬maxPayloadSize < pkt.length.toNat := Nat.not_lt.mpr valid.length
  rw [pktDecode_fresh, if_neg accepted, length, if_neg short, if_neg (not_not.mpr sum)]
  simp only [cutBuffer_payloadSum_iff]

structure CutFrom (pkt decoded : Pkt) : Prop where
  type : decoded.type = pkt.type
  truncated : decoded.truncated = 1
  seqnum : decoded.seqnum = pkt.seqnum
  timestamp : decoded.timestamp = pkt.timestamp

theorem headerPkt_cutFrom (pkt : Pkt) : CutFrom pkt (headerPkt (cutBuffer sys pkt stale)) := by
  obtain ⟨flags, seqnum, _, timestamp, _⟩ := cutBuffer_fields sys stale pkt
  obtain ⟨_, tr, type, _⟩ := setTr_fields (flagsByte pkt)
  refine ⟨?_, ?_, seqnum, timestamp⟩
  · show (cutBuffer sys pkt stale 0).extractLsb' 6 2 = pkt.type
    rw [flags, type, (flagsByte_fields pkt).2.2]
  · show (cutBuffer sys pkt stale 0).extractLsb' 5 1 = 1
    rw [flags, tr]

theorem cutBuffer_received (pkt : Pkt) (len : Nat) (decoded : Pkt) :
    Decodes sys (cutToHeader (packetBytes sys.crc32 pkt)) stale decoded ↔
      pktDecode sys.crc32 (some (cutBuffer sys pkt stale)) len pktNew = (.pktOk, decoded) := by
  rfl

theorem decodes_cut_iff (valid : pkt.Valid) (isData : pktGetType pkt = ptypeData) :
    (∃ decoded, Decodes sys (cutToHeader (packetBytes sys.crc32 pkt)) stale decoded) ↔
      pkt.length = 0 ∨ LeftoverMatches sys.crc32 (pktGetLength pkt) stale := by
  simp only [cutBuffer_received sys stale pkt 12, pktDecode_cutBuffer sys stale valid isData]
  split_ifs with empty fits
  · exact iff_of_true ⟨_, rfl⟩ (Or.inl empty)
  · exact iff_of_true ⟨_, rfl⟩ (Or.inr fits)
  · refine iff_of_false ?_ (not_or.mpr ⟨empty, fits⟩)
    rintro ⟨decoded, same⟩
    exact absurd (Prod.mk.inj same).1 (by decide)

theorem Decodes.cutFrom (valid : pkt.Valid) (isData : pktGetType pkt = ptypeData) {decoded : Pkt}
    (decodes : Decodes sys (cutToHeader (packetBytes sys.crc32 pkt)) stale decoded) :
    CutFrom pkt decoded := by
  obtain ⟨type, truncated, seqnum, timestamp⟩ := headerPkt_cutFrom sys stale pkt
  rw [cutBuffer_received sys stale pkt 12, pktDecode_cutBuffer sys stale valid isData] at decodes
  split_ifs at decodes
  · obtain ⟨_, rfl⟩ := Prod.mk.inj decodes
    exact ⟨type, truncated, seqnum, timestamp⟩
  · obtain ⟨_, rfl⟩ := Prod.mk.inj decodes
    exact ⟨type, truncated, seqnum, timestamp⟩
  · exact absurd (Prod.mk.inj decodes).1 (by decide)

end

end SelectiveRepeat
