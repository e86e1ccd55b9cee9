import SelectiveRepeat.SenderAcks

/-! `check_timeout` against the advertised window: which packets it sends again, when
the clock stands still and every `send` succeeds. -/

namespace SelectiveRepeat

open Bytes

def Late (t : BitVec 32) (pkt : Pkt) : Prop :=
  (t - pktGetTimestamp pkt).toNat ≥ retransmissionTimer

instance (t : BitVec 32) (pkt : Pkt) : Decidable (Late t pkt) := inferInstanceAs (Decidable (_ ≥ _))

def refreshed (t : BitVec 32) (pkt : Pkt) : Pkt :=
  if Late t pkt then { pkt with timestamp := t } else pkt

def resent (sys : Sys) (t : BitVec 32) (s : Sender) (due : List Pkt) : Sender :=
  { s with
    timeCalls := s.timeCalls + due.length
    sendCalls := s.sendCalls + due.length
    sent := s.sent ++
      due.map fun pkt => (s.reads.length, packetBytes sys.crc32 { pkt with timestamp := t }) }

def resentFirst (sys : Sys) (t : BitVec 32) (s : Sender) (count : Nat) : Sender :=
  let due := (s.list.take count).filter fun pkt => Late t pkt
  { s with
    list := (s.list.take count).map (refreshed t) ++ s.list.drop count
    timeCalls := s.timeCalls + 1 + due.length
    sendCalls := s.sendCalls + due.length
    sent := s.sent ++
      due.map fun pkt => (s.reads.length, packetBytes sys.crc32 { pkt with timestamp := t }) }

theorem Consecutive.get {base : Nat} {list : List Pkt} (consecutive : Consecutive base list)
    {index : Nat} {pkt : Pkt} (found : list[index]? = some pkt) :
    pktGetSeqnum pkt = (base + index) % 256 := by
  induction list generalizing base index with
  | nil => simp at found
  | cons first rest ih =>
      obtain ⟨seqnum, _, next⟩ := consecutive
      cases index with
      | zero =>
          obtain rfl : first = pkt := by simpa using found
          exact seqnum
      | succ index =>
          rw [List.getElem?_cons_succ] at found
          rw [ih next found, Nat.add_right_comm, Nat.add_assoc]

theorem Consecutive.nonempty {base : Nat} {list : List Pkt} (consecutive : Consecutive base list) :
    ∀ pkt ∈ list, pktGetLength pkt ≠ 0 := by
  induction list generalizing base with
  | nil => exact List.forall_mem_nil _
  | cons first rest ih =>
      obtain ⟨_, nonempty, next⟩ := consecutive
      exact List.forall_mem_cons.mpr ⟨nonempty, ih next⟩

/-! The loop. -/

structure Steady (sys : Sys) (t : BitVec 32) (s : Sender) : Prop where
  sends : ∀ call, s.sendCalls ≤ call → sys.send call = true
  clock : ∀ call, s.timeCalls ≤ call → sys.time call = t

theorem sendPacket_steady {sys : Sys} {t : BitVec 32} {s : Sender} (steady : Steady sys t s)
    {pkt : Pkt} (valid : pkt.Valid) (nonempty : pktGetLength pkt ≠ 0) :
    sendPacket sys s pkt = (0, { pkt with timestamp := t }, resent sys t s [pkt]) := by
  have sends := steady.sends s.sendCalls (Nat.le_refl _)
  have clock := steady.clock s.timeCalls (Nat.le_refl _)
  have noTrailer : pkt.length = 0 → pkt.crc2 = 0 := by
    intro empty
    exact absurd ((pktGetLength_eq_zero_iff pkt).mpr empty) nonempty
  rw [sendPacket_valid sys s valid noTrailer, transmitted, clock, if_pos sends, if_pos sends]
  rfl

theorem Steady.resent {sys : Sys} {t : BitVec 32} {s : Sender} (steady : Steady sys t s)
    (due : List Pkt) : Steady sys t (resent sys t s due) where
  sends := fun call later => steady.sends call (Nat.le_trans (Nat.le_add_right _ _) later)
  clock := fun call later => steady.clock call (Nat.le_trans (Nat.le_add_right _ _) later)

theorem resent_resent (sys : Sys) (t : BitVec 32) (s : Sender) (first second : List Pkt) :
    resent sys t (resent sys t s first) second = resent sys t s (first ++ second) := by
  simp [resent, Nat.add_assoc]

theorem checkTimeoutLoop_take {sys : Sys} {t : BitVec 32} (first : Int) (size : Nat)
    {runner : List Pkt} {s : Sender} (steady : Steady sys t s)
    (valid : ∀ pkt ∈ runner, pkt.Valid) (nonempty : ∀ pkt ∈ runner, pktGetLength pkt ≠ 0)
    (count : Nat) (inside : ∀ index pkt, runner[index]? = some pkt →
      (s.checkInWindow (pktGetSeqnum pkt) first = true ↔ index < count)) :
    checkTimeoutLoop sys t first size runner s =
      (0, (runner.take count).map (refreshed t) ++ runner.drop count,
        resent sys t s ((runner.take count).filter fun pkt => Late t pkt)) := by
  induction runner generalizing s count with
  | nil => simp [checkTimeoutLoop, resent]
  | cons pkt rest ih =>
      obtain ⟨validPkt, validRest⟩ := List.forall_mem_cons.mp valid
      obtain ⟨nonemptyPkt, nonemptyRest⟩ := List.forall_mem_cons.mp nonempty
      have here := inside 0 pkt rfl
      rw [checkTimeoutLoop]
      cases count with
      | zero =>
          rw [if_pos fun admitted => Nat.lt_irrefl 0 (here.mp admitted)]
          simp [resent]
      | succ count =>
          have insideRest : ∀ index other, rest[index]? = some other →
              (s.checkInWindow (pktGetSeqnum other) first = true ↔ index < count) := by
            intro index other found
            rw [inside (index + 1) other found, Nat.add_lt_add_iff_right]
          have admitted := here.mpr (Nat.zero_lt_succ count)
          rw [if_neg (not_not.mpr admitted), List.take_succ_cons, List.drop_succ_cons, List.map_cons,
            List.filter_cons]
          by_cases late : Late t pkt
          · have stays : (t - pktGetTimestamp pkt).toNat ≥ retransmissionTimer := late
            have next := ih (steady.resent [pkt]) validRest nonemptyRest count insideRest
            rw [if_pos stays, if_neg fun last => nonemptyPkt last.1,
              sendPacket_steady steady validPkt nonemptyPkt]
            dsimp only
            rw [next, resent_resent]
            simp [refreshed, late]
          · have early : ¬(t - pktGetTimestamp pkt).toNat ≥ retransmissionTimer := late
            have next := ih steady validRest nonemptyRest count insideRest
            rw [if_neg early, next]
            simp [refreshed, late]

/-! The window. -/

/-- Beyond the wrap the test admits one packet too many. -/
def admittedCount (base window : Nat) : Nat :=
  if 256 ≤ base % 256 + window then window + 1 else window

theorem Sender.checkInWindow_iff {s : Sender} {window : Nat} (windowSize : s.windowSize = window)
    (base : Nat) {index : Nat} (near : index < 256) :
    s.checkInWindow ((base + index) % 256 : Nat) (base % 256 : Nat) = true ↔
      index < admittedCount base window := by
  rw [Sender.checkInWindow, admittedCount, windowSize]
  split_ifs <;> rw [decide_eq_true_eq] <;> omega

theorem checkTimeout_first {sys : Sys} {t : BitVec 32} {s : Sender} (steady : Steady sys t s)
    {base window : Nat} (consecutive : Consecutive base s.list) (valid : ∀ pkt ∈ s.list, pkt.Valid)
    (size : s.list.length ≤ 31) (windowSize : s.windowSize = window) :
    checkTimeout sys s = (0, resentFirst sys t s (admittedCount base window)) := by
  have clock := steady.clock s.timeCalls (Nat.le_refl _)
  have tickedSteady : Steady sys t (ticked s) :=
    ⟨steady.sends, fun call later => steady.clock call (Nat.le_of_succ_le later)⟩
  cases nodes : s.list with
  | nil =>
      simp [checkTimeout, nodes, resentFirst]
  | cons head next =>
      have first : pktGetSeqnum head = base % 256 := by
        rw [nodes] at consecutive
        exact consecutive.1
      have inside : ∀ index pkt, s.list[index]? = some pkt →
          ((ticked s).checkInWindow (pktGetSeqnum pkt) (pktGetSeqnum head) = true ↔
            index < admittedCount base window) := by
        intro index pkt found
        have bound := (List.getElem?_eq_some_iff.mp found).1
        rw [consecutive.get found, first]
        exact Sender.checkInWindow_iff windowSize base (by omega)
      have loop := checkTimeoutLoop_take (pktGetSeqnum head) s.list.length tickedSteady valid
        consecutive.nonempty (admittedCount base window) inside
      rw [nodes, ← clock] at loop
      rw [checkTimeout_cons nodes loop, clock, resentFirst, nodes]
      rfl

section

variable (sys : Sys) (t : BitVec 32) {s : Sender} {count : Nat} {pkt : Pkt}

theorem resentFirst_beyond (beyond : s.list[count]? = none) :
    resentFirst sys t s (count + 1) = resentFirst sys t s count := by
  have short := List.getElem?_eq_none_iff.mp beyond
  simp only [resentFirst, List.take_of_length_le short, List.drop_of_length_le short,
    List.take_of_length_le (Nat.le_succ_of_le short), List.drop_of_length_le (Nat.le_succ_of_le short)]

theorem resentFirst_early (found : s.list[count]? = some pkt) (early : ¬Late t pkt) :
    resentFirst sys t s (count + 1) = resentFirst sys t s count := by
  obtain ⟨bound, same⟩ := List.getElem?_eq_some_iff.mp found
  have taken : s.list.take (count + 1) = s.list.take count ++ [pkt] := by
    rw [List.take_add_one, found]
    rfl
  have dropped : s.list.drop count = pkt :: s.list.drop (count + 1) := by
    rw [List.drop_eq_getElem_cons bound, same]
  simp [resentFirst, taken, dropped, early, refreshed]

theorem resentFirst_late (found : s.list[count]? = some pkt) (late : Late t pkt) :
    (resentFirst sys t s (count + 1)).sendCalls = (resentFirst sys t s count).sendCalls + 1 := by
  have taken : s.list.take (count + 1) = s.list.take count ++ [pkt] := by
    rw [List.take_add_one, found]
    rfl
  simp [resentFirst, taken, late, Nat.add_assoc]

end

/-- A turn sends again what is due in the window and nothing else, unless the seqnums wrap between
the first packet and the one right behind the window, and that one is due. -/
theorem resends_window_iff {sys : Sys} {t : BitVec 32} {s : Sender} (steady : Steady sys t s)
    {base window : Nat} (consecutive : Consecutive base s.list) (valid : ∀ pkt ∈ s.list, pkt.Valid)
    (size : s.list.length ≤ 31) (windowSize : s.windowSize = window) :
    checkTimeout sys s = (0, resentFirst sys t s window) ↔
      ¬∃ pkt, s.list[window]? = some pkt ∧ 256 ≤ base % 256 + window ∧ Late t pkt := by
  rw [checkTimeout_first steady consecutive valid size windowSize, admittedCount]
  split_ifs with wraps
  · cases found : s.list[window]? with
    | none =>
        rw [resentFirst_beyond sys t found]
        exact iff_of_true rfl (by simp)
    | some pkt =>
        by_cases late : Late t pkt
        · refine iff_of_false ?_ (not_not.mpr ⟨pkt, rfl, wraps, late⟩)
          intro same
          have calls := congrArg Sender.sendCalls (Prod.mk.inj same).2
          rw [resentFirst_late sys t found late] at calls
          omega
        · rw [resentFirst_early sys t found late]
          refine iff_of_true rfl ?_
          rintro ⟨other, same, _, lateOther⟩
          obtain rfl := Option.some.inj same
          exact late lateOther
  · exact iff_of_true rfl fun behind => wraps behind.choose_spec.2.1

def Sys.frozen (t : BitVec 32) : Sys := { Sys.faultless with time := fun _ => t }

def twoOutstanding : Sender :=
  { Sender.init [] with
    windowSize := 1
    list := [dataPkt 255 [0x61] 0, dataPkt 256 [0x62] 0] }

theorem twoOutstanding_consecutive : Consecutive 255 twoOutstanding.list :=
  ⟨by decide, by decide, by decide, by decide, trivial⟩

theorem twoOutstanding_valid : ∀ pkt ∈ twoOutstanding.list, pkt.Valid :=
  List.forall_mem_cons.mpr ⟨dataPkt_valid (by decide) 255 0,
    List.forall_mem_singleton.mpr (dataPkt_valid (by decide) 256 0)⟩

theorem frozen_steady (t : BitVec 32) (s : Sender) : Steady (Sys.frozen t) t s :=
  ⟨fun _ _ => rfl, fun _ _ => rfl⟩

theorem resends_window_iff_two :
    checkTimeout (Sys.frozen 1) twoOutstanding =
        (0, resentFirst (Sys.frozen 1) 1 twoOutstanding 1) ↔
      ¬∃ pkt, twoOutstanding.list[1]? = some pkt ∧ 256 ≤ 255 % 256 + 1 ∧ Late 1 pkt :=
  resends_window_iff (frozen_steady 1 twoOutstanding) twoOutstanding_consecutive
    twoOutstanding_valid (by decide) rfl

/-- Five seconds later both are sent again, although the window is one. -/
theorem resends_behind_window :
    checkTimeout (Sys.frozen 5) twoOutstanding ≠
      (0, resentFirst (Sys.frozen 5) 5 twoOutstanding 1) := by
  intro same
  have calls := congrArg (fun result => result.2.sendCalls) same
  exact absurd calls (by decide +kernel)

end SelectiveRepeat
