import SelectiveRepeat.ReceiverAdvance

/-! The receive buffer between two datagrams: how far ahead a packet that is held can
lie, and how many can be held, as long as no `write` fails. -/

namespace SelectiveRepeat

open Bytes Circle Reassembly

structure BufferBounded (r : Receiver) : Prop where
  distance : ∀ pkt ∈ r.list, 1 ≤ ((pktGetSeqnum pkt : Int) - r.waitedSeqnum) % 256 ∧
    ((pktGetSeqnum pkt : Int) - r.waitedSeqnum) % 256 ≤ maxWindowSize
  size : r.list.length ≤ maxWindowSize

/-- With the largest window a packet 32 ahead is taken in, its seqnum behind the wrap. -/
def AcceptsFar (sys : Sys) (r : Receiver) (arrival : Arrival) : Prop :=
  ∃ pkt, Brings sys arrival pkt ∧ pktGetType pkt = ptypeData ∧ pktGetTr pkt ≠ 1 ∧
    r.windowSize = maxWindowSize ∧ (pktGetSeqnum pkt : Int) = r.waitedSeqnum - 224

structure Settled (r : Receiver) (out : List Pkt) (entries : List (Nat × Pkt)) : Prop where
  tracks : Tracks r out entries
  ahead : ∀ entry ∈ entries, out.length < entry.1

section

variable {sys : Sys} {r : Receiver} {out : List Pkt} {entries : List (Nat × Pkt)} {arrival : Arrival}
  {pkt : Pkt}

theorem Settled.distance (settled : Settled r out entries) {entry : Nat × Pkt}
    (member : entry ∈ entries) :
    ((pktGetSeqnum entry.2 : Int) - r.waitedSeqnum) % 256 = entry.1 - out.length := by
  obtain ⟨due, arc⟩ := settled.tracks.arc entry member
  simp only [Comparable] at arc
  rw [settled.tracks.numbered entry member, settled.tracks.waited]
  omega

theorem Settled.bounded_iff (settled : Settled r out entries) :
    BufferBounded r ↔ ∀ entry ∈ entries, entry.1 ≤ out.length + 31 := by
  constructor
  · intro bounded entry member
    have listed : entry.2 ∈ r.list := by
      rw [settled.tracks.list]
      exact List.mem_map_of_mem member
    have high := (bounded.distance entry.2 listed).2
    rw [settled.distance member, maxWindowSize] at high
    omega
  · intro near
    constructor
    · intro pkt listed
      rw [settled.tracks.list] at listed
      obtain ⟨entry, member, rfl⟩ := List.mem_map.mp listed
      have low := settled.ahead entry member
      have high := near entry member
      rw [settled.distance member, maxWindowSize]
      omega
    · rw [settled.tracks.list, List.length_map]
      exact sorted_length_le settled.tracks.sorted fun entry member =>
        ⟨settled.ahead entry member, near entry member⟩

/-! One arrival, of a packet that is accepted or of anything else. -/

theorem receive_keeps (tracks : Tracks r out entries)
    (refused : ∀ pkt, Brings sys arrival pkt → ¬r.Accepts pkt) :
    Tracks (receive sys r arrival) out entries := by
  by_cases brought : ∃ pkt, Brings sys arrival pkt
  swap
  · rw [receive_nothing (not_exists.mp brought)]
    exact tracks
  obtain ⟨pkt, brings⟩ := brought
  have outcome := readPacketR_outcome sys tracks brings.valid
  rw [brings.receive]
  generalize readPacketR sys r pkt = result at outcome
  obtain ⟨code, after⟩ := result
  cases outcome with
  | notData _ => exact tracks
  | truncated _ _ => exact tracks.nacked sys pkt
  | accepted data whole inWindow _ => exact absurd ⟨data, whole, inWindow⟩ (refused pkt brings)
  | closed _ _ _ _ => exact tracks.closed sys pkt
  | outOfWindow _ _ _ _ => exact tracks.reacknowledged sys pkt

theorem Settled.keeps (settled : Settled r out entries)
    (refused : ∀ pkt, Brings sys arrival pkt → ¬r.Accepts pkt) :
    Settled (receive sys r arrival) out entries :=
  ⟨receive_keeps settled.tracks refused, settled.ahead⟩

theorem Settled.accepts (settled : Settled r out entries) (brings : Brings sys arrival pkt)
    (accepts : r.Accepts pkt) (writes : sys.WritesFrom r.writeCalls) :
    Settled (receive sys r arrival)
      (drain out (insertAt (absoluteNumber out.length pkt) pkt entries)).1
      (drain out (insertAt (absoluteNumber out.length pkt) pkt entries)).2 := by
  refine ⟨receive_settles settled.tracks brings accepts writes, ?_⟩
  apply drain_ahead out (insertAt_sorted _ _ settled.tracks.sorted)
  intro entry member
  rcases insertAt_number_mem _ _ _ entry member with rfl | old
  · exact (absoluteNumber_bounds out.length pkt).1
  · exact Nat.le_of_lt (settled.ahead entry old)

theorem Tracks.accepts_near_iff (tracks : Tracks r out entries) (accepts : r.Accepts pkt) :
    absoluteNumber out.length pkt ≤ out.length + 31 ↔
      ¬(r.windowSize = maxWindowSize ∧ (pktGetSeqnum pkt : Int) = r.waitedSeqnum - 224) := by
  obtain ⟨due, near⟩ := absoluteNumber_bounds out.length pkt
  have residue := absoluteNumber_mod out.length pkt
  have high := tracks.window.high
  have inWindow := accepts.inWindow
  rw [← residue, Receiver.checkInWindow_iff tracks.waited due near] at inWindow
  rw [tracks.waited, ← residue, maxWindowSize]
  omega

theorem AcceptsFar.accepts (far : AcceptsFar sys r arrival) :
    ∃ pkt, Brings sys arrival pkt ∧ r.Accepts pkt ∧
      r.windowSize = maxWindowSize ∧ (pktGetSeqnum pkt : Int) = r.waitedSeqnum - 224 := by
  obtain ⟨pkt, brings, data, whole, window, seqnum⟩ := far
  refine ⟨pkt, brings, ⟨data, whole, ?_⟩, window, seqnum⟩
  have behind : ¬(pktGetSeqnum pkt : Int) ≥ r.waitedSeqnum := by omega
  rw [Receiver.checkInWindow, if_neg behind, window, decide_eq_true_eq, maxWindowSize]
  omega

theorem Settled.receive_bounded_iff (settled : Settled r out entries) (bounded : BufferBounded r)
    (writes : sys.WritesFrom r.writeCalls) (arrival : Arrival) :
    BufferBounded (receive sys r arrival) ↔ ¬AcceptsFar sys r arrival := by
  have held := settled.bounded_iff.mp bounded
  rcases accepts_or_refuses sys r arrival with ⟨pkt, brings, accepts⟩ | refused
  swap
  · refine iff_of_true ((settled.keeps refused).bounded_iff.mpr held) fun far => ?_
    obtain ⟨pkt, brings, accepts, _⟩ := far.accepts
    exact refused pkt brings accepts
  have near := settled.tracks.accepts_near_iff accepts
  have after := settled.accepts brings accepts writes
  by_cases far : AcceptsFar sys r arrival
  · obtain ⟨other, again, _, edge⟩ := far.accepts
    obtain rfl := again.unique brings
    have distant : out.length + 31 < absoluteNumber out.length pkt :=
      Nat.lt_of_not_le fun close => near.mp close edge
    -- What is held lies nearer, so the packet is put behind all of it and nothing is due.
    have stays : drain out (insertAt (absoluteNumber out.length pkt) pkt entries) =
        (out, insertAt (absoluteNumber out.length pkt) pkt entries) := by
      apply drain_ahead_eq
      intro entry member
      rcases insertAt_number_mem _ _ _ entry member with rfl | old
      · exact Nat.lt_of_le_of_lt (Nat.le_add_right _ _) distant
      · exact settled.ahead entry old
    rw [stays] at after
    refine iff_of_false (fun bounded => ?_) (not_not.mpr far)
    obtain ⟨found, member⟩ := exists_insertAt (absoluteNumber out.length pkt) pkt entries
    have close := after.bounded_iff.mp bounded _ member
    exact Nat.not_lt.mpr close distant
  · refine iff_of_true (after.bounded_iff.mpr fun entry member => ?_) far
    have close := near.mpr fun edge => far ⟨pkt, brings, accepts.data, accepts.whole, edge⟩
    have drains := drains_drain out (insertAt (absoluteNumber out.length pkt) pkt entries)
    have grown := drains.length_le
    rcases insertAt_number_mem _ _ _ entry (drains.mem entry member) with rfl | old
    · show absoluteNumber out.length pkt ≤ _
      omega
    · have before := held entry old
      omega

end

/-! Every sequence of arrivals. -/

theorem fed_settled {sys : Sys} (writes : sys.WritesFrom 0) (arrivals : List Arrival) :
    ∃ out entries, Settled (fed sys arrivals) out entries := by
  induction arrivals using List.reverseRecOn with
  | nil => exact ⟨[], [], init_tracks, List.forall_mem_nil _⟩
  | append_singleton before arrival ih =>
      obtain ⟨out, entries, settled⟩ := ih
      rw [fed_concat]
      rcases accepts_or_refuses sys (fed sys before) arrival with ⟨pkt, brings, accepts⟩ | refused
      · exact ⟨_, _, settled.accepts brings accepts (writes.mono (Nat.zero_le _))⟩
      · exact ⟨out, entries, settled.keeps refused⟩

/-- The buffer stays bounded along a sequence of arrivals exactly if no packet 32 ahead is
accepted in it. -/
theorem bufferBounded_iff {sys : Sys} (writes : sys.WritesFrom 0) (arrivals : List Arrival) :
    (∀ before, before <+: arrivals → BufferBounded (fed sys before)) ↔
      ∀ before arrival, before ++ [arrival] <+: arrivals → ¬AcceptsFar sys (fed sys before) arrival := by
  have step : ∀ before arrival, BufferBounded (fed sys before) →
      (BufferBounded (fed sys (before ++ [arrival])) ↔ ¬AcceptsFar sys (fed sys before) arrival) := by
    intro before arrival bounded
    obtain ⟨out, entries, settled⟩ := fed_settled writes before
    rw [fed_concat]
    exact settled.receive_bounded_iff bounded (writes.mono (Nat.zero_le _)) arrival
  constructor
  · intro bounded before arrival goes
    exact (step before arrival (bounded before ((List.prefix_append before [arrival]).trans goes))).mp
      (bounded _ goes)
  · intro near before
    induction before using List.reverseRecOn with
    | nil => exact fun _ => ⟨List.forall_mem_nil _, Nat.zero_le _⟩
    | append_singleton before arrival ih =>
        intro goes
        exact (step before arrival (ih ((List.prefix_append before [arrival]).trans goes))).mpr
          (near before arrival goes)

theorem bufferBounded_overtaking :
    BufferBounded (fed Sys.faultless [intact Sys.faultless (dataPkt 1 [0x62] 0)]) := by
  refine (bufferBounded_iff (Sys.faultless_writesAll.writesFrom 0) _).mpr ?_ _ List.prefix_rfl
  rintro before arrival goes ⟨_, _, _, _, window, _⟩
  obtain rfl : before = [] := by
    have size := goes.length_le
    rw [List.length_append, List.length_singleton, List.length_singleton] at size
    exact List.eq_nil_of_length_eq_zero (by omega)
  exact absurd window (by decide)

/-- After packets 0 to 223 packet 256 is held, 32 ahead. -/
theorem bufferBounded_exceeded : ¬∀ before, before <+: inOrderFeed Sys.faultless 224 ++
    [intact Sys.faultless (dataPkt 256 [0x62] 0)] →
      BufferBounded (fed Sys.faultless before) := by
  intro bounded
  obtain ⟨window, out, size, tracks⟩ := fed_inOrder Sys.faultless_writesAll 224
  have settled : Settled (fed Sys.faultless (inOrderFeed Sys.faultless 224)) out [] :=
    ⟨tracks, List.forall_mem_nil _⟩
  have waited := tracks.waited
  have first := bounded _ (List.prefix_append _ _)
  have last := bounded _ List.prefix_rfl
  rw [size] at waited
  rw [fed_concat, settled.receive_bounded_iff first (Sys.faultless_writesAll.writesFrom _)] at last
  refine last ⟨_, brings_intact Sys.faultless (dataPkt_valid (by decide) 256 0), rfl, Nat.zero_ne_one,
    ?_, ?_⟩
  · rw [window]
    rfl
  · rw [waited]
    rfl

end SelectiveRepeat
