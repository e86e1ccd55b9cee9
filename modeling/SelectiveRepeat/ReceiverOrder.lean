import SelectiveRepeat.ReceiverBuffer
import SelectiveRepeat.Truncation

/-! The packets of one window in any order, each any number of times: as long as no
`write` fails, the receiver ends in the same state. -/

namespace SelectiveRepeat

open Bytes Circle Reassembly

def NoneEmpty (sys : Sys) (arrivals : List Arrival) : Prop :=
  ∀ arrival ∈ arrivals, ∀ pkt, Brings sys arrival pkt → pktGetType pkt = ptypeData →
    pktGetTr pkt ≠ 1 → pktGetLength pkt ≠ 0

structure InsideWindow (r : Receiver) (pkts : List Pkt) : Prop where
  data : ∀ pkt ∈ pkts, pktGetType pkt = ptypeData
  whole : ∀ pkt ∈ pkts, pktGetTr pkt ≠ 1
  nonempty : ∀ pkt ∈ pkts, pktGetLength pkt ≠ 0
  inside : ∀ pkt ∈ pkts, ((pktGetSeqnum pkt : Int) - r.waitedSeqnum) % 256 < r.windowSize
  distinct : ∀ pkt ∈ pkts, ∀ other ∈ pkts, pktGetSeqnum pkt = pktGetSeqnum other → pkt = other

structure Feeds (sys : Sys) (pkts : List Pkt) (arrivals : List Arrival) : Prop where
  only : ∀ arrival ∈ arrivals, ∃ pkt ∈ pkts, Brings sys arrival pkt
  all : ∀ pkt ∈ pkts, ∃ arrival ∈ arrivals, Brings sys arrival pkt

structure SameResult (first second : Receiver) : Prop where
  waitedSeqnum : first.waitedSeqnum = second.waitedSeqnum
  windowSize : first.windowSize = second.windowSize
  list : first.list = second.list
  written : first.written = second.written

theorem writtenFrom_append (sys : Sys) (call : Nat) (early late : List Pkt) :
    writtenFrom sys call (early ++ late) =
      writtenFrom sys call early ++ writtenFrom sys (call + early.length) late := by
  induction early generalizing call with
  | nil => rfl
  | cons pkt rest ih =>
      have index : call + 1 + rest.length = call + (pkt :: rest).length := by
        rw [List.length_cons]
        omega
      rw [List.cons_append, writtenFrom, writtenFrom, ih, index, List.cons_append]

section

variable {sys : Sys} {r after later : Receiver} {new newer : List Pkt}

theorem Advanced.trans (advanced : Advanced sys r new after)
    (further : Advanced sys after newer later) : Advanced sys r (new ++ newer) later where
  written := by
    rw [further.written, advanced.written, advanced.writeCalls, writtenFrom_append, List.append_assoc]
  writeCalls := by
    rw [further.writeCalls, advanced.writeCalls, List.length_append, Nat.add_assoc]
  windowSize := by
    rw [further.windowSize, advanced.windowSize, List.length_append]
    omega

theorem Advanced.of_same (advanced : Advanced sys r new after)
    (written : later.written = after.written) (writeCalls : later.writeCalls = after.writeCalls)
    (windowSize : later.windowSize = after.windowSize) : Advanced sys r new later :=
  ⟨written.trans advanced.written, writeCalls.trans advanced.writeCalls,
    windowSize.trans advanced.windowSize⟩

end

/-! Nothing held is empty. -/

theorem receive_nonempty (sys : Sys) {r : Receiver} {out : List Pkt} {entries : List (Nat × Pkt)}
    (tracks : Tracks r out entries) (nonempty : ∀ entry ∈ entries, pktGetLength entry.2 ≠ 0)
    {arrival : Arrival} (noneEmpty : NoneEmpty sys [arrival]) :
    ∃ out' rest, Tracks (receive sys r arrival) out' rest ∧
      ∀ entry ∈ rest, pktGetLength entry.2 ≠ 0 := by
  rcases accepts_or_refuses sys r arrival with ⟨pkt, brings, accepts⟩ | refused
  swap
  · exact ⟨out, entries, receive_keeps tracks refused, nonempty⟩
  obtain ⟨out', rest, accepted⟩ := brings.accepted tracks accepts
  refine ⟨out', rest, accepted.tracks, fun entry member => ?_⟩
  rcases insertAt_number_mem _ _ _ entry (accepted.drains.mem entry member) with rfl | old
  · exact noneEmpty arrival (List.mem_singleton_self _) pkt brings accepts.data accepts.whole
  · exact nonempty entry old

theorem fed_nonempty {sys : Sys} {arrivals : List Arrival} (noneEmpty : NoneEmpty sys arrivals) :
    ∃ out entries, Tracks (fed sys arrivals) out entries ∧
      ∀ entry ∈ entries, pktGetLength entry.2 ≠ 0 := by
  induction arrivals using List.reverseRecOn with
  | nil => exact ⟨[], [], init_tracks, List.forall_mem_nil _⟩
  | append_singleton before arrival ih =>
      obtain ⟨early, last⟩ := List.forall_mem_append.mp noneEmpty
      obtain ⟨out, entries, tracks, nonempty⟩ := ih early
      rw [fed_concat]
      exact receive_nonempty sys tracks nonempty last

/-! The packets that have arrived so far. -/

structure Collected (sys : Sys) (r : Receiver) (out : List Pkt) (entries : List (Nat × Pkt))
    (arrived : List Pkt) (after : Receiver) (new : List Pkt) (rest : List (Nat × Pkt)) : Prop where
  tracks : Tracks after (out ++ new) rest
  collects : Collects out entries (numberedFrom out.length arrived) (out ++ new) rest
  advanced : Advanced sys r new after
  nonempty : ∀ entry ∈ rest, pktGetLength entry.2 ≠ 0
  /-- Nothing that is held is due, but before the first arrival after a failed `write`. -/
  ahead : arrived = [] ∧ new = [] ∨ ∀ entry ∈ rest, (out ++ new).length < entry.1

section

variable {sys : Sys} {r after : Receiver} {out new : List Pkt} {entries rest : List (Nat × Pkt)}
  {arrived pkts : List Pkt} {arrival : Arrival} {pkt : Pkt}

theorem Tracks.collected (tracks : Tracks r out entries)
    (nonempty : ∀ entry ∈ entries, pktGetLength entry.2 ≠ 0) :
    Collected sys r out entries [] r [] entries where
  tracks := by rwa [List.append_nil]
  collects := by
    rw [List.append_nil]
    exact Collects.refl out entries
  advanced := Advanced.refl sys tracks.window
  nonempty := nonempty
  ahead := Or.inl ⟨rfl, rfl⟩

theorem InsideWindow.number_lt (inside : InsideWindow r pkts) (tracks : Tracks r out entries)
    (member : pkt ∈ pkts) :
    (absoluteNumber out.length pkt : Int) < out.length + r.windowSize := by
  have within := inside.inside pkt member
  rw [tracks.waited] at within
  rw [absoluteNumber]
  omega

theorem InsideWindow.single (inside : InsideWindow r pkts) (known : arrived ⊆ pkts)
    (member : pkt ∈ pkts) (written : Nat) :
    ∀ old, (absoluteNumber written pkt, old) ∈ numberedFrom written arrived → old = pkt := by
  intro old logged
  obtain ⟨other, arrivedOther, same⟩ := List.mem_map.mp logged
  obtain ⟨number, rfl⟩ := Prod.mk.inj same
  apply inside.distinct other (known arrivedOther) pkt member
  rw [← absoluteNumber_mod written other, number, absoluteNumber_mod]

theorem Collected.new_length_le (collected : Collected sys r out entries arrived after new rest)
    (tracks : Tracks r out entries) (inside : InsideWindow r pkts) (known : arrived ⊆ pkts) :
    new.length ≤ 33 := by
  by_contra long
  have within : out.length + 33 < (out ++ new).length := by
    rw [List.length_append]
    omega
  have has := (collected.collects _ _).mp (Or.inl (List.getElem?_eq_getElem within))
  rcases has with (delivered | held) | ⟨logged, _⟩
  · have bound := (List.getElem?_eq_some_iff.mp delivered).1
    omega
  · obtain ⟨_, arc⟩ := tracks.arc _ held
    simp only [Comparable] at arc
    omega
  · obtain ⟨pkt, member, same⟩ := List.mem_map.mp logged
    have number := (Prod.mk.inj same).1
    have bound := inside.number_lt tracks (known member)
    have high := tracks.window.high
    omega

theorem numberedFrom_concat (written : Nat) (arrived : List Pkt) (pkt : Pkt) :
    numberedFrom written (arrived ++ [pkt]) =
      numberedFrom written arrived ++ [(absoluteNumber written pkt, pkt)] := by
  rw [numberedFrom, List.map_append]
  rfl

theorem Collected.accepts (collected : Collected sys r out entries arrived after new rest)
    (tracks : Tracks r out entries) (inside : InsideWindow r pkts) (known : arrived ⊆ pkts)
    (member : pkt ∈ pkts) (due : (out ++ new).length ≤ absoluteNumber out.length pkt) :
    after.Accepts pkt ∧
      absoluteNumber (out ++ new).length pkt = absoluteNumber out.length pkt := by
  have few := collected.new_length_le tracks inside known
  have bound := inside.number_lt tracks member
  have high := tracks.window.high
  have window := collected.advanced.windowSize
  have residue := absoluteNumber_mod out.length pkt
  have size : (out ++ new).length = out.length + new.length := List.length_append
  have near : absoluteNumber out.length pkt < (out ++ new).length + 256 := by omega
  refine ⟨⟨inside.data pkt member, inside.whole pkt member, ?_⟩,
    absoluteNumber_of_le due near residue.symm⟩
  rw [← residue, Receiver.checkInWindow_iff collected.tracks.waited due near]
  omega

theorem Collected.outside (collected : Collected sys r out entries arrived after new rest)
    (tracks : Tracks r out entries) (inside : InsideWindow r pkts) (known : arrived ⊆ pkts)
    (behind : absoluteNumber out.length pkt < (out ++ new).length) :
    after.checkInWindow (pktGetSeqnum pkt) = false := by
  have few := collected.new_length_le tracks inside known
  have low := (absoluteNumber_bounds out.length pkt).1
  have high := collected.tracks.window.high
  have size : (out ++ new).length = out.length + new.length := List.length_append
  have again : pktGetSeqnum pkt = (absoluteNumber out.length pkt + 256) % 256 := by
    rw [Nat.add_mod_right, absoluteNumber_mod]
  rw [Bool.eq_false_iff, again, ne_eq,
    Receiver.checkInWindow_iff collected.tracks.waited (by omega) (by omega)]
  omega

theorem Collected.insert (collected : Collected sys r out entries arrived after new rest)
    (tracks : Tracks r out entries) (inside : InsideWindow r pkts) (known : arrived ⊆ pkts)
    (member : pkt ∈ pkts) (brings : Brings sys arrival pkt)
    (due : (out ++ new).length ≤ absoluteNumber out.length pkt)
    (writes : sys.WritesFrom r.writeCalls) :
    ∃ new' rest',
      Collected sys r out entries (arrived ++ [pkt]) (receive sys after arrival) new' rest' := by
  obtain ⟨accepts, number⟩ := collected.accepts tracks inside known member due
  have writesOn : sys.WritesFrom after.writeCalls := by
    rw [collected.advanced.writeCalls]
    exact writes.mono (Nat.le_add_right _ _)
  have settles := receive_settles collected.tracks brings accepts writesOn
  obtain ⟨newer, drained, further⟩ := receive_advances collected.tracks brings accepts writesOn
    collected.nonempty (inside.nonempty pkt member)
  have collects := collected.collects.insert (inside.single known member out.length)
    collected.tracks.sorted due
  rw [number] at settles drained
  rw [drained, List.append_assoc] at settles collects
  have inserted := insertAt_number_mem (absoluteNumber out.length pkt) pkt rest
  have drains := drains_drain (out ++ new) (insertAt (absoluteNumber out.length pkt) pkt rest)
  refine ⟨new ++ newer, _, settles, ?_, collected.advanced.trans further, ?_, ?_⟩
  · rw [numberedFrom_concat]
    exact collects
  · intro entry later
    rcases inserted entry (drains.mem entry later) with rfl | old
    · exact inside.nonempty pkt member
    · exact collected.nonempty entry old
  · right
    rw [← List.append_assoc, ← drained]
    apply drain_ahead _ (insertAt_sorted _ _ collected.tracks.sorted)
    intro entry later
    rcases inserted entry later with rfl | old
    · exact due
    · exact (collected.tracks.arc entry old).1

theorem Collected.repeated (collected : Collected sys r out entries arrived after new rest)
    (tracks : Tracks r out entries) (inside : InsideWindow r pkts) (known : arrived ⊆ pkts)
    (member : pkt ∈ pkts) (brings : Brings sys arrival pkt)
    (behind : absoluteNumber out.length pkt < (out ++ new).length) :
    Collected sys r out entries (arrived ++ [pkt]) (receive sys after arrival) new rest := by
  have answered : receive sys after arrival = reacknowledged sys after pkt := by
    rw [brings.receive, readPacketR_outOfWindow sys brings.valid (inside.data pkt member)
      (inside.whole pkt member) (collected.outside tracks inside known behind)
      (fun _ => inside.nonempty pkt member) collected.tracks.window collected.tracks.waited_written]
  have collects := collected.collects.repeated (inside.single known member out.length)
    ⟨_, Or.inl (List.getElem?_eq_getElem behind)⟩
  rw [answered]
  refine ⟨collected.tracks.reacknowledged sys pkt, ?_, collected.advanced.of_same rfl rfl rfl,
    collected.nonempty, ?_⟩
  · rw [numberedFrom_concat]
    exact collects
  · refine Or.inr (collected.ahead.resolve_left ?_)
    rintro ⟨_, rfl⟩
    rw [List.append_nil] at behind
    exact Nat.not_lt.mpr (absoluteNumber_bounds out.length pkt).1 behind

theorem fed_collected {before arrivals : List Arrival} (tracks : Tracks (fed sys before) out entries)
    (nonempty : ∀ entry ∈ entries, pktGetLength entry.2 ≠ 0)
    (inside : InsideWindow (fed sys before) pkts)
    (only : ∀ arrival ∈ arrivals, ∃ pkt ∈ pkts, Brings sys arrival pkt)
    (writes : sys.WritesFrom (fed sys before).writeCalls) :
    ∃ arrived new rest,
      Collected sys (fed sys before) out entries arrived (fed sys (before ++ arrivals)) new rest ∧
        ∀ pkt, pkt ∈ arrived ↔ pkt ∈ pkts ∧ ∃ arrival ∈ arrivals, Brings sys arrival pkt := by
  induction arrivals using List.reverseRecOn with
  | nil =>
      rw [List.append_nil]
      exact ⟨[], [], entries, tracks.collected nonempty, by simp⟩
  | append_singleton earlier arrival ih =>
      obtain ⟨onlyEarlier, onlyLast⟩ := List.forall_mem_append.mp only
      obtain ⟨arrived, new, rest, collected, members⟩ := ih onlyEarlier
      obtain ⟨pkt, member, brings⟩ := onlyLast arrival (List.mem_singleton_self arrival)
      have known : arrived ⊆ pkts := fun pkt came => ((members pkt).mp came).1
      have came : ∀ other, other ∈ arrived ++ [pkt] ↔
          other ∈ pkts ∧ ∃ copy ∈ earlier ++ [arrival], Brings sys copy other := by
        intro other
        simp only [List.mem_append, List.mem_singleton, members, or_and_right, exists_or, and_or_left,
          exists_eq_left]
        refine or_congr_right ⟨?_, fun again => brings.unique again.2⟩
        rintro rfl
        exact ⟨member, brings⟩
      rw [← List.append_assoc, fed_concat]
      by_cases due : (out ++ new).length ≤ absoluteNumber out.length pkt
      · obtain ⟨new', rest', inserted⟩ :=
          collected.insert tracks inside known member brings due writes
        exact ⟨_, new', rest', inserted, came⟩
      · exact ⟨_, new, rest,
          collected.repeated tracks inside known member brings (Nat.lt_of_not_le due), came⟩

theorem Collected.sameResult {arrived' new' : List Pkt} {after' : Receiver} {rest' : List (Nat × Pkt)}
    (collected : Collected sys r out entries arrived after new rest)
    (other : Collected sys r out entries arrived' after' new' rest')
    (same : ∀ pkt, pkt ∈ arrived ↔ pkt ∈ arrived') (came : arrived ≠ []) : SameResult after after' := by
  obtain ⟨first, member⟩ := List.exists_mem_of_ne_nil arrived came
  have cameOther : arrived' ≠ [] := List.ne_nil_of_mem ((same first).mp member)
  obtain ⟨sameOut, rfl⟩ := collected.collects.unique other.collects
    (fun entry => by simp only [numberedFrom, List.mem_map, same])
    collected.tracks.sorted other.tracks.sorted
    (collected.ahead.resolve_left fun none => came none.1)
    (other.ahead.resolve_left fun none => cameOther none.1)
  obtain rfl := List.append_cancel_left sameOut
  constructor
  · rw [collected.tracks.waited, other.tracks.waited]
  · rw [collected.advanced.windowSize, other.advanced.windowSize]
  · rw [collected.tracks.list, other.tracks.list]
  · rw [collected.advanced.written, other.advanced.written]

end

theorem Feeds.arrived_iff {sys : Sys} {pkts arrived : List Pkt} {arrivals : List Arrival}
    (feeds : Feeds sys pkts arrivals)
    (members : ∀ pkt, pkt ∈ arrived ↔ pkt ∈ pkts ∧ ∃ arrival ∈ arrivals, Brings sys arrival pkt)
    (pkt : Pkt) : pkt ∈ arrived ↔ pkt ∈ pkts := by
  rw [members]
  exact and_iff_left_of_imp (feeds.all pkt)

theorem Feeds.eq_nil {sys : Sys} {arrivals : List Arrival} (feeds : Feeds sys [] arrivals) :
    arrivals = [] := by
  rw [List.eq_nil_iff_forall_not_mem]
  intro arrival member
  obtain ⟨pkt, none, _⟩ := feeds.only arrival member
  exact List.not_mem_nil none

/-- Two ways to feed the same packets of one window end alike, if no `write` fails from then on. -/
theorem feeds_sameResult {sys : Sys} {before first second : List Arrival} {pkts : List Pkt}
    (noneEmpty : NoneEmpty sys before) (writes : sys.WritesFrom (fed sys before).writeCalls)
    (inside : InsideWindow (fed sys before) pkts) (one : Feeds sys pkts first)
    (two : Feeds sys pkts second) :
    SameResult (fed sys (before ++ first)) (fed sys (before ++ second)) := by
  obtain ⟨out, entries, tracks, nonempty⟩ := fed_nonempty noneEmpty
  obtain ⟨arrived, new, rest, collected, members⟩ :=
    fed_collected tracks nonempty inside one.only writes
  obtain ⟨arrived', new', rest', other, members'⟩ :=
    fed_collected tracks nonempty inside two.only writes
  have same : ∀ pkt, pkt ∈ arrived ↔ pkt ∈ arrived' := by
    intro pkt
    rw [one.arrived_iff members, two.arrived_iff members']
  cases pkts with
  | nil =>
      rw [one.eq_nil, two.eq_nil]
      exact ⟨rfl, rfl, rfl, rfl⟩
  | cons pkt others =>
      have came : pkt ∈ arrived := (one.arrived_iff members pkt).mpr List.mem_cons_self
      exact collected.sameResult other same (List.ne_nil_of_mem came)

/-! Packets 1 and 2 in both orders. -/

theorem feeds_intact {sys : Sys} {order pkts : List Pkt} (valid : ∀ pkt ∈ order, pkt.Valid)
    (same : ∀ pkt, pkt ∈ order ↔ pkt ∈ pkts) :
    Feeds sys (pkts.map (decodedPkt sys.crc32)) (order.map (intact sys)) := by
  constructor
  · intro arrival member
    obtain ⟨pkt, came, rfl⟩ := List.mem_map.mp member
    exact ⟨_, List.mem_map_of_mem ((same pkt).mp came), brings_intact sys (valid pkt came)⟩
  · intro decoded member
    obtain ⟨pkt, listed, rfl⟩ := List.mem_map.mp member
    have came := (same pkt).mpr listed
    exact ⟨_, List.mem_map_of_mem came, brings_intact sys (valid pkt came)⟩

def secondPkt : Pkt := dataPkt 1 [0x62] 0

def thirdPkt : Pkt := dataPkt 2 [0x63] 0

theorem laterPkts_valid {order : List Pkt} (known : order ⊆ [secondPkt, thirdPkt]) :
    ∀ pkt ∈ order, pkt.Valid := by
  intro pkt member
  rcases List.mem_pair.mp (known member) with rfl | rfl
  · exact dataPkt_valid (by decide) 1 0
  · exact dataPkt_valid (by decide) 2 0

theorem laterPkts_inside : InsideWindow (fed Sys.faultless (inOrderFeed Sys.faultless 1))
    ([secondPkt, thirdPkt].map (decodedPkt Sys.faultless.crc32)) where
  data := by decide +kernel
  whole := by decide +kernel
  nonempty := by decide +kernel
  inside := by decide +kernel
  distinct := by decide +kernel

theorem inOrderFeed_noneEmpty {sys : Sys} (count : Nat) : NoneEmpty sys (inOrderFeed sys count) := by
  intro arrival member pkt brings _ _
  obtain ⟨number, _, rfl⟩ := List.mem_map.mp member
  have short : [(0x61 : Byte)].length ≤ 512 := by decide
  rw [(brings_intact sys (dataPkt_valid short number 0)).unique brings]
  exact Nat.one_ne_zero

theorem feeds_sameResult_swapped :
    SameResult
      (fed Sys.faultless (inOrderFeed Sys.faultless 1 ++
        [secondPkt, thirdPkt].map (intact Sys.faultless)))
      (fed Sys.faultless (inOrderFeed Sys.faultless 1 ++
        [thirdPkt, secondPkt, thirdPkt].map (intact Sys.faultless))) := by
  have swapped : ∀ pkt, pkt ∈ [thirdPkt, secondPkt, thirdPkt] ↔ pkt ∈ [secondPkt, thirdPkt] := by
    intro pkt
    simp only [List.mem_cons, List.not_mem_nil, or_false]
    tauto
  exact feeds_sameResult (inOrderFeed_noneEmpty 1) (Sys.faultless_writesAll.writesFrom _)
    laterPkts_inside (feeds_intact (laterPkts_valid (List.Subset.refl _)) fun _ => Iff.rfl)
    (feeds_intact (laterPkts_valid (by decide)) swapped)

def Sys.refusing : Sys :=
  { Sys.faultless with write := fun call count => if call = 0 then none else some count }

/-- The packet that could not be written is written when it arrives again, not before. -/
theorem refused_repeated :
    NoneEmpty Sys.refusing [] ∧
      InsideWindow (fed Sys.refusing []) ([onePkt].map (decodedPkt Sys.refusing.crc32)) ∧
      Feeds Sys.refusing ([onePkt].map (decodedPkt Sys.refusing.crc32))
        ([onePkt].map (intact Sys.refusing)) ∧
      Feeds Sys.refusing ([onePkt].map (decodedPkt Sys.refusing.crc32))
        ([onePkt, onePkt].map (intact Sys.refusing)) ∧
      ¬SameResult (fed Sys.refusing ([] ++ [onePkt].map (intact Sys.refusing)))
        (fed Sys.refusing ([] ++ [onePkt, onePkt].map (intact Sys.refusing))) := by
  have valid : ∀ pkt ∈ [onePkt, onePkt], pkt.Valid := by simp [onePkt_valid]
  refine ⟨List.forall_mem_nil _, ?_, ?_, ?_, ?_⟩
  · constructor <;> decide +kernel
  · exact feeds_intact (List.forall_mem_of_forall_mem_cons valid) fun _ => Iff.rfl
  · exact feeds_intact valid fun pkt => by simp
  · intro same
    have waited := same.waitedSeqnum
    revert waited
    decide +kernel

end SelectiveRepeat
