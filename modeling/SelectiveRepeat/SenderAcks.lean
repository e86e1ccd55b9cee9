import SelectiveRepeat.Library.Circle
import SelectiveRepeat.SenderInvariant

/-! What an acknowledgment does to the sender: how many packets a cumulative ACK
removes, and what a rejected one leaves behind. -/

namespace SelectiveRepeat

open Bytes Circle

def Consecutive : Nat → List Pkt → Prop
  | _, [] => True
  | base, pkt :: rest =>
      pktGetSeqnum pkt = base % 256 ∧ pktGetLength pkt ≠ 0 ∧ Consecutive (base + 1) rest

theorem packetCheckedLoop_drop (seqnumEOF seqnumAck : Int) (count : Nat) {base : Nat} {list : List Pkt}
    (consecutive : Consecutive base list)
    (removed : ∀ number, base ≤ number → number < base + count → Acks seqnumAck number)
    (stopped : count < list.length → ¬Acks seqnumAck (base + count)) :
    packetCheckedLoop seqnumEOF seqnumAck list list = (0, list.drop count) := by
  induction list generalizing base count with
  | nil =>
      rw [List.drop_nil]
      rfl
  | cons pkt rest ih =>
      obtain ⟨seqnum, nonempty, next⟩ := consecutive
      rw [packetCheckedLoop_cons seqnumEOF seqnumAck seqnum nonempty]
      cases count with
      | zero =>
          have stop : ¬Acks seqnumAck base := stopped (Nat.zero_lt_succ _)
          rw [if_neg stop]
          rfl
      | succ count =>
          have acks := removed base (Nat.le_refl _) (by omega)
          rw [if_pos acks, List.drop_succ_cons]
          apply ih count next
          · intro number low high
            exact removed number (by omega) (by omega)
          · intro inside
            have stop := stopped (Nat.succ_lt_succ inside)
            rwa [Nat.add_right_comm]

theorem packetCheckedLoop_zero (seqnumEOF seqnumAck : Int) {base : Nat} {list : List Pkt}
    (consecutive : Consecutive base list) :
    (packetCheckedLoop seqnumEOF seqnumAck list list).1 = 0 := by
  induction list generalizing base with
  | nil => rfl
  | cons pkt rest ih =>
      obtain ⟨seqnum, nonempty, next⟩ := consecutive
      rw [packetCheckedLoop_cons seqnumEOF seqnumAck seqnum nonempty]
      split
      · exact ih next
      · rfl

theorem packetChecked_eq (s : Sender) (seqnumAck : Int) :
    packetChecked s seqnumAck =
      ((packetCheckedLoop s.seqnumEOF seqnumAck s.list s.list).1,
        { s with list := (packetCheckedLoop s.seqnumEOF seqnumAck s.list s.list).2 }) := rfl

theorem acks_before {base ack number : Nat} (residue : ack < 256) (due : base ≤ number)
    (near : number ≤ numberFrom 256 base ack) (small : distance 256 base ack ≤ 31) :
    Acks (ack : Int) number ↔ number < numberFrom 256 base ack := by
  have same : numberFrom 256 base ack % 256 = ack := numberFrom_mod residue
  have total : numberFrom 256 base ack = base + distance 256 base ack := rfl
  have covers := @acks_iff (numberFrom 256 base ack) number (by omega) (by omega)
  rwa [same] at covers

theorem not_acks_far {base ack : Nat} (residue : ack < 256) (far : 33 ≤ distance 256 base ack) :
    ¬Acks (ack : Int) base := by
  rw [distance] at far
  rw [Acks]
  omega

theorem not_acks_next {base ack : Nat} (residue : ack < 256) (next : distance 256 base ack = 32)
    (unwrapped : base % 256 + 32 < 256) : ¬Acks (ack : Int) base := by
  rw [distance] at next
  rw [Acks]
  omega

theorem packetChecked_near {s : Sender} {base ack : Nat} (consecutive : Consecutive base s.list)
    (residue : ack < 256) (small : distance 256 base ack ≤ 31) :
    packetChecked s ack = (0, { s with list := s.list.drop (distance 256 base ack) }) := by
  have total : numberFrom 256 base ack = base + distance 256 base ack := rfl
  rw [packetChecked_eq, packetCheckedLoop_drop s.seqnumEOF ack (distance 256 base ack) consecutive]
  · intro number low high
    exact (acks_before residue low (by omega) small).mpr (by omega)
  · intro _ acks
    have below := (acks_before residue (Nat.le_add_right _ _) (Nat.le_of_eq total.symm) small).mp acks
    omega

theorem packetChecked_kept {s : Sender} {base ack : Nat} (consecutive : Consecutive base s.list)
    (outside : ¬Acks (ack : Int) base) : packetChecked s ack = (0, s) := by
  rw [packetChecked_eq, packetCheckedLoop_drop s.seqnumEOF ack 0 consecutive]
  · rfl
  · intro number low high
    omega
  · intro _
    exact outside

/-- An ACK for up to MAX_WINDOW_SIZE packets from the first outstanding one removes that many, or
all there are; one that lies farther away removes nothing, nor does the next one if the seqnum has
not wrapped on the way. -/
theorem cumulativeAck {s : Sender} {base : Nat} (consecutive : Consecutive base s.list)
    (size : s.list.length ≤ 31) {ack : Nat} (residue : ack < 256) :
    (distance 256 base ack ≤ s.list.length →
        packetChecked s ack = (0, { s with list := s.list.drop (distance 256 base ack) })) ∧
      (s.list.length < distance 256 base ack → distance 256 base ack ≤ 31 →
        packetChecked s ack = (0, { s with list := [] })) ∧
      (distance 256 base ack = 32 → base % 256 + 32 < 256 → packetChecked s ack = (0, s)) ∧
      (33 ≤ distance 256 base ack → packetChecked s ack = (0, s)) ∧ (packetChecked s ack).1 = 0 := by
  refine ⟨?_, ?_, ?_, ?_, packetCheckedLoop_zero _ _ consecutive⟩
  · intro covered
    exact packetChecked_near consecutive residue (covered.trans size)
  · intro beyond small
    rw [packetChecked_near consecutive residue small, List.drop_of_length_le (Nat.le_of_lt beyond)]
  · intro next unwrapped
    exact packetChecked_kept consecutive (not_acks_next residue next unwrapped)
  · intro far
    exact packetChecked_kept consecutive (not_acks_far residue far)

def oneOutstanding : Sender :=
  { Sender.init [] with seqnum := 1, reads := [[0x61]], list := [dataPkt 0 [0x61] 0] }

theorem oneOutstanding_consecutive : Consecutive 0 oneOutstanding.list :=
  ⟨by decide, by decide, trivial⟩

theorem cumulativeAck_one :
    packetChecked oneOutstanding 1 = (0, { oneOutstanding with list := [] }) ∧
      packetChecked oneOutstanding 31 = (0, { oneOutstanding with list := [] }) ∧
      packetChecked oneOutstanding 32 = (0, oneOutstanding) ∧
      packetChecked oneOutstanding 33 = (0, oneOutstanding) := by
  have covered := cumulativeAck oneOutstanding_consecutive (by decide) (show 1 < 256 by decide)
  have beyond := cumulativeAck oneOutstanding_consecutive (by decide) (show 31 < 256 by decide)
  have next := cumulativeAck oneOutstanding_consecutive (by decide) (show 32 < 256 by decide)
  have far := cumulativeAck oneOutstanding_consecutive (by decide) (show 33 < 256 by decide)
  refine ⟨covered.1 (by decide), beyond.2.1 (by decide) (by decide), ?_, ?_⟩
  · exact next.2.2.1 (by decide) (by decide)
  · exact far.2.2.2.1 (by decide)

/-- The ACK of a packet that was never sent removes the one that is outstanding. -/
theorem unsentAck_removes :
    Consecutive 0 oneOutstanding.list ∧ oneOutstanding.list.length < distance 256 0 2 ∧
      (packetChecked oneOutstanding 2).2.list ≠ oneOutstanding.list :=
  ⟨oneOutstanding_consecutive, by decide, by decide⟩

/-! A rejected acknowledgment. -/

/-- An intact DATA packet reaches the sender, with another window than the current one. -/
def BringsData (sys : Sys) (s : Sender) (datagram : Option Datagram) (stale : Memory) : Prop :=
  ∃ bytes pkt, datagram = some bytes ∧ Decodes sys bytes stale pkt ∧ pktGetType pkt = ptypeData ∧
    pktGetTr pkt ≠ 1 ∧ (pktGetWindow pkt : Int) ≠ s.windowSize

theorem Pkt.Valid.getType {pkt : Pkt} (valid : pkt.Valid) :
    pktGetType pkt = ptypeData ∨ pktGetType pkt = ptypeAck ∨ pktGetType pkt = ptypeNack := by
  have bound : pktGetType pkt < 4 := pkt.type.isLt
  have positive : pktGetType pkt ≠ 0 := by
    intro noType
    apply valid.type
    apply BitVec.eq_of_toNat_eq
    exact noType
  simp only [ptypeData, ptypeAck, ptypeNack]
  omega

theorem checkAck_ack_code {sys : Sys} {bytes : Datagram} {stale : Memory} {pkt : Pkt}
    (decodes : Decodes sys bytes stale pkt) (whole : pktGetTr pkt ≠ 1)
    (isAck : pktGetType pkt = ptypeAck) (s : Sender) :
    (checkAck sys s (some bytes) stale).1 ≠ -1 := by
  rw [Decodes] at decodes
  simp only [checkAck, decodes, ne_eq, not_true_eq_false, if_false, if_neg whole, if_pos isAck]
  split_ifs <;> simp

theorem bringsData_decodes {sys : Sys} {bytes : Datagram} {stale : Memory} {pkt : Pkt}
    (decodes : Decodes sys bytes stale pkt) (s : Sender) :
    BringsData sys s (some bytes) stale ↔ pktGetType pkt = ptypeData ∧ pktGetTr pkt ≠ 1 ∧
      (pktGetWindow pkt : Int) ≠ s.windowSize := by
  constructor
  · rintro ⟨other, again, same, decodesAgain, facts⟩
    obtain rfl := Option.some.inj same
    obtain rfl := decodes.unique decodesAgain
    exact facts
  · intro facts
    exact ⟨bytes, pkt, rfl, decodes, facts⟩

theorem bringsData_rejected {sys : Sys} {bytes : Datagram} {stale : Memory}
    (rejected : ∀ pkt, ¬Decodes sys bytes stale pkt) (s : Sender) :
    ¬BringsData sys s (some bytes) stale := by
  rintro ⟨other, pkt, same, decodes, _⟩
  obtain rfl := Option.some.inj same
  exact rejected pkt decodes

theorem checkAck_data_unchanged_iff {sys : Sys} {bytes : Datagram} {stale : Memory} {pkt : Pkt}
    (decodes : Decodes sys bytes stale pkt) (whole : pktGetTr pkt ≠ 1)
    (isData : pktGetType pkt = ptypeData) (s : Sender) :
    (checkAck sys s (some bytes) stale).1 = -1 ∧
      ((checkAck sys s (some bytes) stale).2 = s ↔ (pktGetWindow pkt : Int) = s.windowSize) := by
  have notAck : pktGetType pkt ≠ ptypeAck := isData.trans_ne (by decide)
  have notNack : ¬pktGetType pkt = ptypeNack := isData.trans_ne (by decide)
  rw [checkAck_notAck decodes whole notAck, if_neg notNack]
  refine ⟨rfl, ?_⟩
  constructor
  · exact congrArg Sender.windowSize
  · intro window
    rw [window]

/-- A rejected datagram changes nothing, unless it is an intact DATA packet: its window is taken
over before its type is looked at. -/
theorem rejected_unchanged_iff (sys : Sys) (s : Sender) (datagram : Option Datagram)
    (stale : Memory) :
    ((checkAck sys s datagram stale).1 = -1 → (checkAck sys s datagram stale).2 = s) ↔
      ¬BringsData sys s datagram stale := by
  cases datagram with
  | none =>
      refine iff_of_true (fun _ => rfl) ?_
      rintro ⟨bytes, pkt, arrived, _⟩
      exact absurd arrived (Option.some_ne_none bytes).symm
  | some bytes =>
      by_cases decoded : ∃ pkt, Decodes sys bytes stale pkt
      · obtain ⟨pkt, decodes⟩ := decoded
        rw [bringsData_decodes decodes]
        by_cases truncated : pktGetTr pkt = 1
        · rw [checkAck_truncated decodes truncated]
          exact iff_of_true (fun _ => rfl) fun facts => facts.2.1 truncated
        rcases decodes.valid.getType with isData | isAck | isNack
        · obtain ⟨code, unchanged⟩ := checkAck_data_unchanged_iff decodes truncated isData s
          rw [unchanged]
          tauto
        · have code := checkAck_ack_code decodes truncated isAck s
          have notData : pktGetType pkt ≠ ptypeData := isAck.trans_ne (by decide)
          tauto
        · have notAck : pktGetType pkt ≠ ptypeAck := isNack.trans_ne (by decide)
          have notData : pktGetType pkt ≠ ptypeData := isNack.trans_ne (by decide)
          rw [checkAck_notAck decodes truncated notAck, if_pos isNack]
          exact iff_of_true (fun code => absurd code (by simp)) fun facts => notData facts.1
      · have rejected := not_exists.mp decoded
        rw [checkAck_rejected rejected]
        exact iff_of_true (fun _ => rfl) (bringsData_rejected rejected s)

/-- The empty DATA packet with seqnum 0 and window 0: rejected, and the window closes. -/
theorem foreignData_sets_window :
    (checkAck Sys.faultless (Sender.init []) (some (packetBytes Crc.crc32 (dataPkt 0 [] 0)))
        fun _ => 0).1 = -1 ∧
      (checkAck Sys.faultless (Sender.init []) (some (packetBytes Crc.crc32 (dataPkt 0 [] 0)))
        fun _ => 0).2.windowSize = 0 ∧
      (Sender.init []).windowSize = 1 := by
  decide +kernel

end SelectiveRepeat
