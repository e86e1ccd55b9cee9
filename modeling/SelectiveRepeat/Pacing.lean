import SelectiveRepeat.Library.PacedLog
import SelectiveRepeat.Network
import SelectiveRepeat.SenderTurns

/-! The retransmission timer over whole runs: whatever arrives, two copies of a chunk never leave
less than `retransmissionTimer` seconds apart. -/

namespace SelectiveRepeat

open Bytes PacedLog

/-- The clock is not set back, and does not wrap while the sender runs. -/
def Sys.ClockMonotone (sys : Sys) : Prop := Monotone fun call => (sys.time call).toNat

def datagramTimestamp (datagram : Datagram) : BitVec 32 := Memory.load32 (datagram.getD · 0) 4

/-- The chunks that were sent, and when. -/
def departures (s : Sender) : List (Nat × Nat) :=
  s.sent.map fun entry => (chunkNumber entry, (datagramTimestamp entry.2).toNat)

theorem datagramTimestamp_packetBytes (crc32 : List Byte → BitVec 32) (pkt : Pkt) :
    datagramTimestamp (packetBytes crc32 pkt) = pkt.timestamp :=
  (load32_eq_iff _ 4 pkt.timestamp).mpr rfl

theorem departures_transmitted {sys : Sys} {s : Sender} {number : Nat}
    (le : number ≤ s.reads.length) (near : s.reads.length ≤ number + 31) (chunk : List Byte)
    (stamp : BitVec 32) :
    departures (transmitted sys s (dataPkt number chunk stamp)) =
      if sys.send s.sendCalls then departures s ++ [(number, stamp.toNat)] else departures s := by
  have entry : chunkNumber (s.reads.length, packetBytes sys.crc32 (dataPkt number chunk stamp)) = number :=
    chunkNumber_eq sys rfl le near
  rw [departures, transmitted]
  split
  · rw [List.map_append, List.map_singleton, entry, datagramTimestamp_packetBytes]
    rfl
  · rfl

theorem SenderValid.departures_lt {sys : Sys} {input : List Byte} {s : Sender}
    (valid : SenderValid sys input s) : ∀ departure ∈ departures s, departure.1 < s.reads.length := by
  intro departure member
  obtain ⟨entry, sent, rfl⟩ := List.mem_map.mp member
  obtain ⟨number, _, _, _, bytes, lt, near, bound⟩ := valid.sent entry sent
  show chunkNumber entry < _
  rw [chunkNumber_eq sys bytes (Nat.le_of_lt lt) near]
  omega

/-! The timestamp of an outstanding packet is that of its last copy, or later. -/

structure TimedAt (sys : Sys) (s : Sender) (number : Nat) (pkt : Pkt) : Prop where
  last : Before (departures s) number pkt.timestamp.toNat
  past : pkt.timestamp.toNat ≤ (sys.time s.timeCalls).toNat

def Timed (sys : Sys) (s : Sender) : Nat → List Pkt → Prop
  | _, [] => True
  | number, pkt :: rest => TimedAt sys s number pkt ∧ Timed sys s (number + 1) rest

/-- Time goes on, and only chunks of `leaving` leave. -/
structure Departs (leaving : Set Nat) (s after : Sender) : Prop where
  time : s.timeCalls ≤ after.timeCalls
  added : ∃ new, departures after = departures s ++ new ∧ ∀ departure ∈ new, departure.1 ∈ leaving

section

variable {sys : Sys} {s after : Sender} {number : Nat} {leaving : Set Nat}

theorem departs_same (sent : after.sent = s.sent) (time : s.timeCalls ≤ after.timeCalls) :
    Departs leaving s after :=
  ⟨time, [], by rw [departures, departures, sent, List.append_nil], List.forall_mem_nil _⟩

theorem Departs.mono {more : Set Nat} (departs : Departs leaving s after) (subset : leaving ⊆ more) :
    Departs more s after := by
  obtain ⟨new, added, among⟩ := departs.added
  exact ⟨departs.time, new, added, fun departure member => subset (among departure member)⟩

theorem Departs.trans {third : Sender} (one : Departs leaving s after)
    (two : Departs leaving after third) : Departs leaving s third := by
  obtain ⟨first, addedFirst, amongFirst⟩ := one.added
  obtain ⟨second, addedSecond, amongSecond⟩ := two.added
  refine ⟨one.time.trans two.time, first ++ second, ?_, ?_⟩
  · rw [addedSecond, addedFirst, List.append_assoc]
  · intro departure member
    rcases List.mem_append.mp member with old | new
    · exact amongFirst departure old
    · exact amongSecond departure new

theorem departs_transmitted (le : number ≤ s.reads.length) (near : s.reads.length ≤ number + 31)
    (chunk : List Byte) (stamp : BitVec 32) :
    Departs {number} s (transmitted sys s (dataPkt number chunk stamp)) := by
  refine ⟨Nat.le_succ _, ?_⟩
  rw [departures_transmitted le near]
  split
  · exact ⟨[(number, stamp.toNat)], rfl, List.forall_mem_singleton.mpr rfl⟩
  · exact ⟨[], (List.append_nil _).symm, List.forall_mem_nil _⟩

theorem TimedAt.departs (clock : sys.ClockMonotone) {pkt : Pkt} (timed : TimedAt sys s number pkt)
    (departs : Departs leaving s after) (stays : number ∉ leaving) : TimedAt sys after number pkt := by
  obtain ⟨new, added, among⟩ := departs.added
  refine ⟨?_, timed.past.trans (clock departs.time)⟩
  rw [added]
  exact timed.last.append_other fun departure member same => stays (same ▸ among departure member)

theorem timedAt_transmitted (clock : sys.ClockMonotone) (le : number ≤ s.reads.length)
    (near : s.reads.length ≤ number + 31) (chunk : List Byte) {old : Nat}
    (last : Before (departures s) number old) (past : old ≤ (sys.time s.timeCalls).toNat) :
    TimedAt sys (transmitted sys s (dataPkt number chunk (sys.time s.timeCalls))) number
      (dataPkt number chunk (sys.time s.timeCalls)) := by
  refine ⟨?_, clock (Nat.le_succ _)⟩
  show Before _ number (sys.time s.timeCalls).toNat
  rw [departures_transmitted le near]
  split
  · exact last.concat past
  · exact last.mono past

theorem Timed.departs (clock : sys.ClockMonotone) {nodes : List Pkt} (timed : Timed sys s number nodes)
    (departs : Departs leaving s after)
    (stay : ∀ other, number ≤ other → other < number + nodes.length → other ∉ leaving) :
    Timed sys after number nodes := by
  induction nodes generalizing number with
  | nil => trivial
  | cons pkt rest ih =>
      rw [List.length_cons] at stay
      exact ⟨timed.1.departs clock departs (stay number (Nat.le_refl _) (by omega)),
        ih timed.2 fun other low high => stay other (by omega) (by omega)⟩

theorem Timed.past {nodes : List Pkt} (timed : Timed sys s number nodes) :
    ∀ pkt ∈ nodes, pkt.timestamp.toNat ≤ (sys.time s.timeCalls).toNat := by
  induction nodes generalizing number with
  | nil => exact List.forall_mem_nil _
  | cons pkt rest ih => exact List.forall_mem_cons.mpr ⟨timed.1.past, ih timed.2⟩

theorem Timed.suffix {popped rest : List Pkt} (timed : Timed sys s number (popped ++ rest)) :
    Timed sys s (number + popped.length) rest := by
  induction popped generalizing number with
  | nil => exact timed
  | cons pkt popped ih =>
      have next := ih timed.2
      rwa [Nat.add_right_comm, Nat.add_assoc] at next

theorem Timed.append {nodes : List Pkt} {pkt : Pkt} (timed : Timed sys s number nodes)
    (last : TimedAt sys s (number + nodes.length) pkt) : Timed sys s number (nodes ++ [pkt]) := by
  induction nodes generalizing number with
  | nil => exact ⟨last, trivial⟩
  | cons first rest ih =>
      refine ⟨timed.1, ih timed.2 ?_⟩
      rwa [List.length_cons, Nat.add_comm rest.length, ← Nat.add_assoc] at last

theorem Timed.same {nodes : List Pkt} (timed : Timed sys s number nodes) (clock : sys.ClockMonotone)
    (sent : after.sent = s.sent) (time : s.timeCalls ≤ after.timeCalls) :
    Timed sys after number nodes :=
  timed.departs clock (departs_same sent time : Departs ∅ s after) fun _ _ _ => Set.notMem_empty _

end

/-! `check_timeout`. -/

theorem waited_of_late {aLo stamp : BitVec 32} (order : stamp.toNat ≤ aLo.toNat)
    (late : (aLo - stamp).toNat ≥ retransmissionTimer) :
    stamp.toNat + retransmissionTimer ≤ aLo.toNat := by
  rw [BitVec.toNat_sub_of_le (BitVec.le_def.mpr order)] at late
  omega

section

variable {sys : Sys} {s after : Sender} {number : Nat}

theorem transmitted_paced (le : number ≤ s.reads.length) (near : s.reads.length ≤ number + 31)
    (chunk : List Byte) {stamp : BitVec 32} (paced : Paced retransmissionTimer (departures s))
    (longer : Paced retransmissionTimer (departures s ++ [(number, stamp.toNat)])) :
    Paced retransmissionTimer (departures (transmitted sys s (dataPkt number chunk stamp))) := by
  rw [departures_transmitted le near]
  split
  · exact longer
  · exact paced

theorem Retransmits.timed (clock : sys.ClockMonotone) {aLo : BitVec 32} {base : Nat}
    {nodes nodes' : List Pkt} (retransmits : Retransmits sys aLo base nodes s nodes' after)
    (near : s.reads.length ≤ base + 31) (past : aLo.toNat ≤ (sys.time s.timeCalls).toNat)
    (stamped : ∀ pkt ∈ nodes, pkt.timestamp.toNat ≤ aLo.toNat)
    (paced : Paced retransmissionTimer (departures s)) (timed : Timed sys s base nodes) :
    Paced retransmissionTimer (departures after) ∧ Timed sys after base nodes' ∧
      Departs (Set.Ici base) s after := by
  induction retransmits with
  | stops => exact ⟨paced, timed, departs_same rfl (Nat.le_refl _)⟩
  | @passes base pkt nodes s nodes' after _ ih =>
      obtain ⟨here, timedRest⟩ := timed
      obtain ⟨pacedAfter, timedAfter, departs⟩ := ih (Nat.le_trans near (by omega)) past
        (List.forall_mem_cons.mp stamped).2 paced timedRest
      exact ⟨pacedAfter, ⟨here.departs clock departs (Nat.not_succ_le_self base), timedAfter⟩,
        departs.mono (Set.Ici_subset_Ici.mpr (Nat.le_succ base))⟩
  | @again base chunk timestamp nodes s nodes' after found late _ ih =>
      obtain ⟨here, timedRest⟩ := timed
      obtain ⟨stampedHere, stampedRest⟩ := List.forall_mem_cons.mp stamped
      have bound := Nat.le_of_lt (List.getElem?_eq_some_iff.mp found).1
      have waited := (waited_of_late stampedHere late).trans past
      have departs := @departs_transmitted sys s base bound near chunk (sys.time s.timeCalls)
      have timedNext := timedRest.departs clock departs fun other low _ same => by
        rw [Set.mem_singleton_iff] at same
        omega
      obtain ⟨pacedAfter, timedAfter, departsAfter⟩ := ih (Nat.le_trans near (by omega))
        (past.trans (clock (Nat.le_succ _))) stampedRest
        (transmitted_paced bound near chunk paced (paced.concat here.last waited)) timedNext
      have timedHere := (timedAt_transmitted clock bound near chunk here.last here.past).departs
        clock departsAfter (Nat.not_succ_le_self base)
      refine ⟨pacedAfter, ⟨timedHere, timedAfter⟩, ?_⟩
      exact (departs.mono (Set.singleton_subset_iff.mpr Set.self_mem_Ici)).trans
        (departsAfter.mono (Set.Ici_subset_Ici.mpr (Nat.le_succ base)))

end

/-! The invariant. -/

structure PacedSender (sys : Sys) (s : Sender) : Prop where
  paced : Paced retransmissionTimer (departures s)
  timed : ∃ base, Outstanding s.reads base s.list ∧ Timed sys s base s.list

section

variable {sys : Sys} {input : List Byte} {s after : Sender} {base : Nat}

theorem init_pacedSender (sys : Sys) (input : List Byte) : PacedSender sys (Sender.init input) where
  paced := paced_nil _
  timed := ⟨0, rfl, trivial⟩

theorem PacedSender.timedFrom (pacedSender : PacedSender sys s)
    (outstanding : Outstanding s.reads base s.list) : Timed sys s base s.list := by
  obtain ⟨other, same, timed⟩ := pacedSender.timed
  have here := outstanding.length
  have there := same.length
  obtain rfl : other = base := by omega
  exact timed

theorem PacedSender.same (pacedSender : PacedSender sys s) (clock : sys.ClockMonotone)
    (reads : after.reads = s.reads) (list : after.list = s.list) (sent : after.sent = s.sent)
    (time : s.timeCalls ≤ after.timeCalls) : PacedSender sys after := by
  obtain ⟨paced, base, outstanding, timed⟩ := pacedSender
  refine ⟨?_, base, ?_, ?_⟩
  · rwa [departures, sent]
  · rwa [reads, list]
  · rw [list]
    exact timed.same clock sent time

theorem SenderValid.first_departure (valid : SenderValid sys input s) :
    ∀ departure ∈ departures s, departure.1 ≠ s.reads.length := fun departure member =>
  Nat.ne_of_lt (valid.departures_lt departure member)

theorem AckOutcome.paced (clock : sys.ClockMonotone) {datagram : Option Datagram} {stale : Memory}
    {code : Int} (outcome : AckOutcome sys s base datagram stale code after)
    (outstanding : Outstanding s.reads base s.list) (pacedSender : PacedSender sys s) :
    PacedSender sys after := by
  cases outcome with
  | dropped => exact pacedSender
  | windowOnly _ _ _ _ => exact pacedSender.same clock rfl rfl rfl (Nat.le_refl _)
  | @removed _ _ base' rest _ _ _ kept _ _ _ suffix =>
      obtain ⟨popped, parts⟩ := suffix
      have timed := pacedSender.timedFrom outstanding
      have before := outstanding.length
      have later := kept.length
      rw [← parts] at timed before
      rw [List.length_append] at before
      obtain rfl : base' = base + popped.length := by omega
      exact ⟨pacedSender.paced, _, kept, timed.suffix.same clock rfl (Nat.le_refl _)⟩

theorem chunkSent_paced (clock : sys.ClockMonotone) (valid : SenderValid sys input s)
    (outstanding : Outstanding s.reads base s.list) (pacedSender : PacedSender sys s)
    (chunk rest : List Byte) :
    PacedSender sys (chunkSent sys (chunkTaken s chunk rest) s.reads.length chunk) := by
  have le : s.reads.length ≤ (chunkTaken s chunk rest).reads.length := by simp [chunkTaken]
  have near : (chunkTaken s chunk rest).reads.length ≤ s.reads.length + 31 := by simp [chunkTaken]
  have first : ∀ departure ∈ departures (chunkTaken s chunk rest), departure.1 ≠ s.reads.length :=
    valid.first_departure
  have departs := @departs_transmitted sys _ _ le near chunk (sys.time s.timeCalls)
  have old : Timed sys (chunkTaken s chunk rest) base s.list :=
    (pacedSender.timedFrom outstanding).same clock rfl (Nat.le_refl _)
  have length := outstanding.length
  have kept := old.departs clock departs fun other _ high same => by
    rw [Set.mem_singleton_iff] at same
    omega
  refine ⟨?_, base, outstanding.append chunk _, ?_⟩
  · exact transmitted_paced le near chunk pacedSender.paced (pacedSender.paced.concat_first first)
  · refine (kept.append ?_).same clock rfl (Nat.le_refl _)
    rw [length]
    exact timedAt_transmitted clock le near chunk (before_of_first first 0) (Nat.zero_le _)

theorem finTransmitted_paced (valid : SenderValid sys input s) (empty : s.list = [])
    (pacedSender : PacedSender sys s) : PacedSender sys (finTransmitted sys s) := by
  refine ⟨?_, s.reads.length, ?_, ?_⟩
  · exact transmitted_paced (Nat.le_refl _) (Nat.le_add_right _ 31) [] pacedSender.paced
      (pacedSender.paced.concat_first valid.first_departure)
  · show Outstanding s.reads s.reads.length s.list
    rw [empty]
    rfl
  · show Timed sys _ s.reads.length s.list
    rw [empty]
    trivial

theorem Retransmits.paced (clock : sys.ClockMonotone) {list' : List Pkt}
    (retransmits : Retransmits sys (sys.time s.timeCalls) base s.list (ticked s) list' after)
    (valid : SenderValid sys input s) (outstanding : Outstanding s.reads base s.list)
    (pacedSender : PacedSender sys s) : PacedSender sys { after with list := list' } := by
  have timed := pacedSender.timedFrom outstanding
  have length := outstanding.length
  have size := valid.size
  have near : s.reads.length ≤ base + 31 := by omega
  obtain ⟨pacedAfter, timedAfter, _⟩ := retransmits.timed clock near (clock (Nat.le_succ _))
    timed.past pacedSender.paced (timed.same clock rfl (Nat.le_succ _))
  have kept : Outstanding s.reads base list' := retransmits.outstanding outstanding
  have reads : after.reads = s.reads := (retransmits.resends near).ticked.reads
  refine ⟨pacedAfter, base, ?_, timedAfter.same clock rfl (Nat.le_refl _)⟩
  rwa [← reads] at kept

theorem SenderOutcome.paced (clock : sys.ClockMonotone) {stage stage' : SenderStage}
    {event : SenderEvent} (outcome : SenderOutcome sys s base stage event stage' after)
    (valid : SenderProcess.Valid sys input ⟨s, stage⟩)
    (outstanding : Outstanding s.reads base s.list) (pacedSender : PacedSender sys s) :
    PacedSender sys after := by
  have inLoop : stage ≠ .returned 0 → SenderValid sys input s := fun running => valid.running running
  cases outcome with
  | rests _ _ => exact pacedSender
  | answered outcome => exact outcome.paced clock outstanding pacedSender
  | readFailed => exact pacedSender.same clock rfl rfl rfl (Nat.le_refl _)
  | endRead _ => exact pacedSender.same clock rfl rfl rfl (Nat.le_refl _)
  | chunkRead _ _ _ _ => exact chunkSent_paced clock (inLoop (by decide)) outstanding pacedSender _ _
  | finFailed _ empty _ =>
      exact (finTransmitted_paced (inLoop (by decide)) empty pacedSender).same clock rfl rfl rfl
        (Nat.le_refl _)
  | finSent _ empty _ =>
      exact (finTransmitted_paced (inLoop (by decide)) empty pacedSender).same clock rfl rfl rfl
        (Nat.le_refl _)
  | retransmits retransmits =>
      exact retransmits.paced clock (inLoop (by decide)) outstanding pacedSender

theorem processSender_paced (clock : sys.ClockMonotone) {process : SenderProcess}
    (valid : process.Valid sys input) (pacedSender : PacedSender sys process.state) (event : SenderEvent) :
    PacedSender sys (processSender sys process event).state := by
  obtain ⟨base, outstanding, outcome⟩ := processSender_outcome sys valid event
  exact outcome.paced clock valid outstanding pacedSender

end

/-- Whatever arrives in a run, each copy of a chunk leaves at least `retransmissionTimer` seconds
after the copy before it. -/
theorem senderRun_paced {sys : Sys} (clock : sys.ClockMonotone) (input : List Byte)
    (events : List SenderEvent) :
    Paced retransmissionTimer (departures (senderRun sys input events).state) := by
  suffices run : PacedSender sys (senderRun sys input events).state from run.paced
  induction events using List.reverseRecOn with
  | nil => exact init_pacedSender sys input
  | append_singleton events event ih =>
      rw [senderRun_concat]
      exact processSender_paced clock (senderRun_valid sys input events) ih event

def Sys.slow : Sys :=
  { Sys.faultless with time := fun call => BitVec.ofNat 32 (min call 1000) }

theorem slow_clockMonotone : Sys.slow.ClockMonotone := by
  intro call later order
  simp only [Sys.slow, BitVec.toNat_ofNat]
  omega

theorem senderRun_paced_twice :
    departures (senderRun Sys.slow [0x61] (.fileReadable :: List.replicate 5 .selectTimeout)).state =
        [(0, 0), (0, 3)] ∧
      Paced retransmissionTimer (departures
        (senderRun Sys.slow [0x61] (.fileReadable :: List.replicate 5 .selectTimeout)).state) :=
  ⟨by decide +kernel, senderRun_paced slow_clockMonotone _ _⟩

end SelectiveRepeat
