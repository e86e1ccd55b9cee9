import SelectiveRepeat.Control
import SelectiveRepeat.Delivery
import SelectiveRepeat.Sender

/-! What the operations of the sender do to its list: the outstanding chunks, in order
and without a gap. -/

namespace SelectiveRepeat

open Bytes

/-- The list holds the chunks from number `base` to the last one read, one packet each. -/
def Outstanding (reads : List (List Byte)) : Nat → List Pkt → Prop
  | base, [] => base = reads.length
  | base, pkt :: rest =>
      (∃ chunk timestamp, reads[base]? = some chunk ∧ pkt = dataPkt base chunk timestamp) ∧
        Outstanding reads (base + 1) rest

theorem Outstanding.length {reads : List (List Byte)} {base : Nat} {list : List Pkt}
    (outstanding : Outstanding reads base list) : base + list.length = reads.length := by
  induction list generalizing base with
  | nil => exact outstanding
  | cons pkt rest ih =>
      have next := ih outstanding.2
      rw [List.length_cons]
      omega

theorem Outstanding.get {reads : List (List Byte)} {base : Nat} {list : List Pkt}
    (outstanding : Outstanding reads base list) {index : Nat} {pkt : Pkt}
    (found : list[index]? = some pkt) :
    ∃ chunk timestamp, reads[base + index]? = some chunk ∧
      pkt = dataPkt (base + index) chunk timestamp := by
  induction list generalizing base index with
  | nil => simp at found
  | cons first rest ih =>
      cases index with
      | zero =>
          obtain rfl : first = pkt := by simpa using found
          exact outstanding.1
      | succ index =>
          rw [List.getElem?_cons_succ] at found
          have next := ih outstanding.2 found
          rwa [Nat.add_right_comm, Nat.add_assoc] at next

theorem Outstanding.append {reads : List (List Byte)} {base : Nat} {list : List Pkt}
    (outstanding : Outstanding reads base list) (chunk : List Byte) (timestamp : BitVec 32) :
    Outstanding (reads ++ [chunk]) base (list ++ [dataPkt reads.length chunk timestamp]) := by
  induction list generalizing base with
  | nil =>
      obtain rfl : base = reads.length := outstanding
      exact ⟨⟨chunk, timestamp, by simp, rfl⟩, by simp [Outstanding]⟩
  | cons pkt rest ih =>
      obtain ⟨⟨old, stamp, found, same⟩, next⟩ := outstanding
      have bound := (List.getElem?_eq_some_iff.mp found).1
      refine ⟨⟨old, stamp, ?_, same⟩, ih next⟩
      rw [List.getElem?_append_left bound, found]

def ChunksValid (reads : List (List Byte)) : Prop :=
  ∀ chunk ∈ reads, 1 ≤ chunk.length ∧ chunk.length ≤ 512

theorem ChunksValid.get {reads : List (List Byte)} (valid : ChunksValid reads) {number : Nat}
    {chunk : List Byte} (found : reads[number]? = some chunk) :
    1 ≤ chunk.length ∧ chunk.length ≤ 512 := valid chunk (List.mem_of_getElem? found)

theorem ChunksValid.get_nonempty {reads : List (List Byte)} (valid : ChunksValid reads) {number : Nat}
    {chunk : List Byte} (found : reads[number]? = some chunk) (base : Nat) (timestamp : BitVec 32) :
    pktGetLength (dataPkt base chunk timestamp) ≠ 0 :=
  dataPkt_nonempty (valid.get found) base timestamp

/-- A datagram of the sender that carries a chunk, first sent or sent again while at most 31 are
outstanding. -/
def SentChunk (sys : Sys) (reads : List (List Byte)) (entry : Nat × Datagram) : Prop :=
  ∃ number chunk timestamp, reads[number]? = some chunk ∧
    entry.2 = packetBytes sys.crc32 (dataPkt number chunk timestamp) ∧
      number < entry.1 ∧ entry.1 ≤ number + 31 ∧ entry.1 ≤ reads.length

theorem SentChunk.append {sys : Sys} {reads : List (List Byte)} {entry : Nat × Datagram}
    (sent : SentChunk sys reads entry) (chunk : List Byte) :
    SentChunk sys (reads ++ [chunk]) entry := by
  obtain ⟨number, old, timestamp, found, bytes, before, near, bound⟩ := sent
  refine ⟨number, old, timestamp, ?_, bytes, before, near, ?_⟩
  · rw [List.getElem?_append_left (by omega), found]
  · rw [List.length_append]
    omega

/-! Sending. -/

def transmitted (sys : Sys) (s : Sender) (pkt : Pkt) : Sender :=
  { s with
    timeCalls := s.timeCalls + 1
    sendCalls := s.sendCalls + 1
    sent := if sys.send s.sendCalls then s.sent ++ [(s.reads.length, packetBytes sys.crc32 pkt)]
      else s.sent }

theorem bufferLength_eq (pkt : Pkt) :
    (if ¬pktGetLength pkt = 0 then 12 + pktGetLength pkt + 4 else 12) = pkt.wireSize := by
  have zero := pktGetLength_eq_zero_iff pkt
  rw [Pkt.wireSize]
  by_cases empty : pktGetLength pkt = 0
  · rw [if_neg (not_not.mpr empty), if_pos (zero.mp empty)]
  · rw [if_pos empty, if_neg (mt zero.mpr empty), pktGetLength]
    omega

theorem sendPacket_valid (sys : Sys) (s : Sender) {pkt : Pkt} (valid : pkt.Valid)
    (noTrailer : pkt.length = 0 → pkt.crc2 = 0) :
    sendPacket sys s pkt =
      (if sys.send s.sendCalls then 0 else -1, { pkt with timestamp := sys.time s.timeCalls },
        transmitted sys s { pkt with timestamp := sys.time s.timeCalls }) := by
  have set : pktSetTimestamp pkt (sys.time s.timeCalls) =
      (.pktOk, { pkt with timestamp := sys.time s.timeCalls }) := rfl
  have payload : { pkt with timestamp := sys.time s.timeCalls }.payload.length =
      { pkt with timestamp := sys.time s.timeCalls }.length.toNat := valid.payload
  have empty : { pkt with timestamp := sys.time s.timeCalls }.length = 0 →
      { pkt with timestamp := sys.time s.timeCalls }.crc2 = 0 := noTrailer
  generalize { pkt with timestamp := sys.time s.timeCalls } = stamped at set payload empty ⊢
  have encoded := pktEncode_eq sys.crc32 stamped (fun _ => 0) _ payload (Nat.le_refl _) empty
  simp only [sendPacket, set, ne_eq, not_true_eq_false, if_false, bufferLength_eq, encoded]
  rw [← packetBytes_length sys.crc32 stamped payload, slice_store_self, transmitted]
  split <;> rfl

theorem sendPacket_dataPkt (sys : Sys) (s : Sender) (number : Nat) {chunk : List Byte}
    (short : chunk.length ≤ 512) (old : BitVec 32) :
    sendPacket sys s (dataPkt number chunk old) =
      (if sys.send s.sendCalls then 0 else -1, dataPkt number chunk (sys.time s.timeCalls),
        transmitted sys s (dataPkt number chunk (sys.time s.timeCalls))) :=
  sendPacket_valid sys s (dataPkt_valid short number old) fun _ => rfl

structure Resends (sys : Sys) (s after : Sender) : Prop where
  same : after = { s with
    timeCalls := after.timeCalls, sendCalls := after.sendCalls, sent := after.sent }
  sent : ∃ new, after.sent = s.sent ++ new ∧ ∀ entry ∈ new, SentChunk sys s.reads entry

theorem Resends.refl (sys : Sys) (s : Sender) : Resends sys s s := ⟨rfl, [], by simp⟩

theorem Resends.reads {sys : Sys} {s after : Sender} (resends : Resends sys s after) :
    after.reads = s.reads := by
  rw [resends.same]

theorem Resends.trans {sys : Sys} {first second third : Sender} (one : Resends sys first second)
    (two : Resends sys second third) : Resends sys first third := by
  obtain ⟨early, sentEarly, chunksEarly⟩ := one.sent
  obtain ⟨late, sentLate, chunksLate⟩ := two.sent
  refine ⟨?_, early ++ late, by rw [sentLate, sentEarly, List.append_assoc], ?_⟩
  · rw [two.same, one.same]
  · intro entry member
    rcases List.mem_append.mp member with old | new
    · exact chunksEarly entry old
    · rw [← one.reads]
      exact chunksLate entry new

theorem resends_transmitted (sys : Sys) (s : Sender) {number : Nat} {chunk : List Byte}
    (found : s.reads[number]? = some chunk) (near : s.reads.length ≤ number + 31)
    (timestamp : BitVec 32) :
    Resends sys s (transmitted sys s (dataPkt number chunk timestamp)) := by
  have bound := (List.getElem?_eq_some_iff.mp found).1
  refine ⟨rfl, ?_⟩
  by_cases sends : sys.send s.sendCalls = true
  · refine ⟨[(s.reads.length, packetBytes sys.crc32 (dataPkt number chunk timestamp))],
      if_pos sends, ?_⟩
    intro entry member
    obtain rfl := List.mem_singleton.mp member
    exact ⟨number, chunk, timestamp, found, rfl, bound, near, Nat.le_refl _⟩
  · exact ⟨[], (if_neg sends).trans (List.append_nil _).symm, by simp⟩

/-! `packet_checked`. -/

def Acks (seqnumAck : Int) (number : Nat) : Prop :=
  255 + seqnumAck - (number % 256 : Nat) ≤ 31 ∨
    seqnumAck - (number % 256 : Nat) > 0 ∧ seqnumAck - (number % 256 : Nat) ≤ 31

instance (seqnumAck : Int) (number : Nat) : Decidable (Acks seqnumAck number) :=
  inferInstanceAs (Decidable (_ ∨ _ ∧ _))

theorem acks_iff {ack number : Nat} (near : ack ≤ number + 31) (recent : number < ack + 224) :
    Acks (ack % 256 : Nat) number ↔ number < ack := by
  rw [Acks]
  omega

theorem packetCheckedLoop_cons (seqnumEOF seqnumAck : Int) {number : Nat} {pkt : Pkt}
    (seqnum : pktGetSeqnum pkt = number % 256) (nonempty : pktGetLength pkt ≠ 0)
    (runner : List Pkt) :
    packetCheckedLoop seqnumEOF seqnumAck (pkt :: runner) (pkt :: runner) =
      if Acks seqnumAck number then packetCheckedLoop seqnumEOF seqnumAck runner runner
      else (0, pkt :: runner) := by
  rw [packetCheckedLoop, seqnum]
  change (if ¬Acks seqnumAck number then _ else _) = _
  by_cases acks : Acks seqnumAck number
  · rw [if_pos acks, if_neg (not_not.mpr acks), if_neg fun last => nonempty last.2.1]
    rfl
  · rw [if_neg acks, if_pos acks]

/-- `packet_checked` never reports the end of the file; it removes the packets from the front for
which its test holds, and those only. -/
theorem packetCheckedLoop_outstanding {reads : List (List Byte)} (chunks : ChunksValid reads)
    (seqnumEOF seqnumAck : Int) {base : Nat} {list : List Pkt}
    (outstanding : Outstanding reads base list) :
    ∃ base' rest, packetCheckedLoop seqnumEOF seqnumAck list list = (0, rest) ∧
      Outstanding reads base' rest ∧ base ≤ base' ∧
        (∀ number, base ≤ number → number < base' → Acks seqnumAck number) ∧
          (base' < reads.length → ¬Acks seqnumAck base') ∧ rest <:+ list := by
  induction list generalizing base with
  | nil =>
      obtain rfl : base = reads.length := outstanding
      exact ⟨_, [], rfl, rfl, Nat.le_refl _, fun _ low high => absurd high (Nat.not_lt.mpr low),
        fun below => absurd below (Nat.lt_irrefl _), List.suffix_refl _⟩
  | cons pkt rest ih =>
      obtain ⟨⟨chunk, timestamp, found, rfl⟩, next⟩ := outstanding
      rw [packetCheckedLoop_cons _ _ (dataPkt_getSeqnum ..) (chunks.get_nonempty found _ _)]
      by_cases acks : Acks seqnumAck base
      · obtain ⟨base', remaining, result, kept, le, removed, stopped, suffix⟩ := ih next
        refine ⟨base', remaining, by rw [if_pos acks, result], kept, by omega, ?_, stopped,
          suffix.trans (List.suffix_cons _ rest)⟩
        intro number low high
        rcases Nat.lt_or_eq_of_le low with later | rfl
        · exact removed number later high
        · exact acks
      · rw [if_neg acks]
        exact ⟨base, _, rfl, ⟨⟨chunk, timestamp, found, rfl⟩, next⟩, Nat.le_refl _,
          fun _ low high => absurd high (Nat.not_lt.mpr low), fun _ => acks, List.suffix_refl _⟩

/-! `check_timeout`. -/

/-- What `check_timeout` does to the nodes from number `base` on, at the clock `aLo`: it passes them,
or sends those again that are late, until it stops. -/
inductive Retransmits (sys : Sys) (aLo : BitVec 32) :
    Nat → List Pkt → Sender → List Pkt → Sender → Prop
  | stops {base nodes s} : Retransmits sys aLo base nodes s nodes s
  | passes {base pkt nodes s nodes' after} : Retransmits sys aLo (base + 1) nodes s nodes' after →
      Retransmits sys aLo base (pkt :: nodes) s (pkt :: nodes') after
  | again {base chunk timestamp nodes s nodes' after} : s.reads[base]? = some chunk →
      (aLo - timestamp).toNat ≥ retransmissionTimer →
      Retransmits sys aLo (base + 1) nodes
        (transmitted sys s (dataPkt base chunk (sys.time s.timeCalls))) nodes' after →
      Retransmits sys aLo base (dataPkt base chunk timestamp :: nodes) s
        (dataPkt base chunk (sys.time s.timeCalls) :: nodes') after

section

variable {sys : Sys} {aLo : BitVec 32} {base : Nat} {nodes nodes' : List Pkt} {s after : Sender}

theorem checkTimeoutLoop_retransmits (sys : Sys) (aLo : BitVec 32) (first : Int) (size : Nat)
    (chunks : ChunksValid s.reads) (outstanding : Outstanding s.reads base nodes) :
    ∃ nodes' after, checkTimeoutLoop sys aLo first size nodes s = (0, nodes', after) ∧
      Retransmits sys aLo base nodes s nodes' after := by
  induction nodes generalizing base s with
  | nil => exact ⟨[], s, rfl, Retransmits.stops⟩
  | cons pkt rest ih =>
      obtain ⟨⟨chunk, timestamp, found, rfl⟩, next⟩ := outstanding
      have valid := chunks.get found
      have nonempty : ¬pktGetLength (dataPkt base chunk timestamp) = 0 :=
        chunks.get_nonempty found base timestamp
      simp only [checkTimeoutLoop, nonempty, false_and, if_false, sendPacket_dataPkt sys s base valid.2]
      split_ifs with inside late
      · obtain ⟨rest', after, result, retransmits⟩ := ih
          (s := transmitted sys s (dataPkt base chunk (sys.time s.timeCalls))) chunks next
        rw [result]
        exact ⟨_, after, rfl, Retransmits.again found late retransmits⟩
      · obtain ⟨rest', after, result, retransmits⟩ := ih chunks next
        rw [result]
        exact ⟨_, after, rfl, Retransmits.passes retransmits⟩
      · exact ⟨_, s, rfl, Retransmits.stops⟩

theorem Retransmits.outstanding (retransmits : Retransmits sys aLo base nodes s nodes' after)
    (outstanding : Outstanding s.reads base nodes) : Outstanding s.reads base nodes' := by
  induction retransmits with
  | stops => exact outstanding
  | passes _ ih => exact ⟨outstanding.1, ih outstanding.2⟩
  | again found _ _ ih => exact ⟨⟨_, _, found, rfl⟩, ih outstanding.2⟩

theorem Retransmits.length (retransmits : Retransmits sys aLo base nodes s nodes' after) :
    nodes'.length = nodes.length := by
  induction retransmits with
  | stops => rfl
  | passes _ ih => exact congrArg Nat.succ ih
  | again _ _ _ ih => exact congrArg Nat.succ ih

theorem Retransmits.same (retransmits : Retransmits sys aLo base nodes s nodes' after) :
    after = { s with
      timeCalls := after.timeCalls, sendCalls := after.sendCalls, sent := after.sent } := by
  induction retransmits with
  | stops => rfl
  | passes _ ih => exact ih
  | again _ _ _ ih => exact ih

theorem Retransmits.resends (retransmits : Retransmits sys aLo base nodes s nodes' after)
    (near : s.reads.length ≤ base + 31) : Resends sys s after := by
  induction retransmits with
  | stops => exact Resends.refl sys _
  | passes _ ih => exact ih (Nat.le_trans near (by omega))
  | again found _ _ ih =>
      exact (resends_transmitted sys _ found near _).trans (ih (Nat.le_trans near (by omega)))

end

end SelectiveRepeat
