import SelectiveRepeat.LinkSimRuns

/-! When delayed datagrams leave the link simulator. The date of a slot is not carried over into
seconds, so a datagram can leave up to a second before its delay is over. -/

namespace SelectiveRepeat

open BinaryHeap

def Timeval.microseconds (t : Timeval) : Int := t.tvSec * 1000000 + t.tvUsec

/-- The date of a slot: the microseconds may make up more than a second. -/
def Timeval.Date (t : Timeval) : Prop := 0 ≤ t.tvUsec ∧ t.tvUsec < 2000000

theorem expiration_microseconds (clock : Timeval) (applied : Nat) :
    (expiration clock applied).microseconds = clock.microseconds + applied * 1000 := by
  simp only [expiration, Timeval.microseconds]
  omega

theorem expiration_date {clock : Timeval} (normal : clock.Normal) (applied : Nat) :
    (expiration clock applied).Date := by
  obtain ⟨lower, upper⟩ := normal
  constructor <;> simp only [expiration] <;> omega

theorem microseconds_of_later {clock date : Timeval} (due : timevalCmp clock date = true)
    (normal : clock.Normal) (isDate : date.Date) :
    date.microseconds < clock.microseconds + 1000000 ∧
      (date.Normal → date.microseconds < clock.microseconds) := by
  rw [timevalCmp_iff] at due
  simp only [Timeval.Date, Timeval.Normal, Timeval.microseconds] at *
  omega

/-- Without a wrap-around the delay is as the usage message says. -/
theorem isDelay_bounds {options : LinkOptions} {applied : Nat} (isDelay : IsDelay options applied)
    (jitter : options.jitter ≤ options.delay)
    (small : options.delay.toNat + options.jitter.toNat < 10000) :
    options.delay.toNat - options.jitter.toNat ≤ applied ∧
      applied ≤ options.delay.toNat + options.jitter.toNat := by
  obtain ⟨_, part, within, applied_eq⟩ := isDelay
  have bound : part.toNat ≤ options.jitter.toNat := by
    rcases within with rfl | below
    · exact Nat.zero_le _
    · exact Nat.le_of_lt (BitVec.lt_def.mp below)
  have jitter := BitVec.le_def.mp jitter
  rw [BitVec.toNat_add, BitVec.toNat_sub] at applied_eq
  omega

section

variable {Addr : Type} {options : LinkOptions} {s : LinkSim Addr} {items : List PktSlot}
  {gone left : Multiset PktSlot}

theorem rel_exists {α β : Type} {holds : α → β → Prop} {source whole : Multiset α}
    {images : Multiset β} (related : Multiset.Rel holds source images) (within : source ≤ whole)
    {y : β} (member : y ∈ images) : ∃ x ∈ whole, holds x y := by
  obtain ⟨rest, rfl⟩ := Multiset.exists_cons_of_mem member
  obtain ⟨x, others, image, _, rfl⟩ := Multiset.rel_cons_right.mp related
  exact ⟨x, Multiset.mem_of_le within (Multiset.mem_cons_self x others), image⟩

theorem Accounts.dates (accounts : Accounts options s items gone left) :
    ∀ slot ∈ items, slot.ts.Date := by
  intro slot member
  obtain ⟨taken, _, queued⟩ := rel_exists accounts.queued (le_refl _) member
  obtain ⟨applied, _, stamp⟩ := queued.delay
  rw [stamp]
  exact expiration_date queued.came applied

/-- The date is in the next second, but earlier by its microseconds: `timeval_diff` takes the second
off and leaves them negative. -/
def Borrows (clock date : Timeval) : Prop :=
  date.tvSec = clock.tvSec + 1 ∧ date.tvUsec < clock.tvUsec

/-- The time from the clock to a date that lies after it; one millisecond, if the date does not, or
where the difference borrows the only second. -/
structure TimeoutFits (clock date t : Timeval) : Prop where
  valid : 0 ≤ t.tvSec ∧ 0 ≤ t.tvUsec
  positive : 0 < t.microseconds
  exact : timevalCmp date clock = true → ¬Borrows clock date →
    t.microseconds = date.microseconds - clock.microseconds
  millisecond : timevalCmp date clock = false ∨ Borrows clock date → t = ⟨0, 1000⟩

theorem timevalDiff_later {clock date : Timeval} (normal : clock.Normal) (isDate : date.Date)
    (later : timevalCmp date clock = true) (kept : ¬Borrows clock date) :
    0 ≤ (timevalDiff date clock).tvSec ∧ 0 ≤ (timevalDiff date clock).tvUsec ∧
      0 < (timevalDiff date clock).microseconds ∧
      (timevalDiff date clock).microseconds = date.microseconds - clock.microseconds := by
  rw [timevalCmp_iff] at later
  simp only [timevalDiff, Borrows, Timeval.Date, Timeval.Normal, Timeval.microseconds] at *
  split
  next negative =>
    split
    · dsimp only
      omega
    · dsimp only at *
      omega
  next =>
    dsimp only at *
    omega

theorem timevalDiff_short {clock date : Timeval}
    (short : timevalCmp date clock = false ∨ Borrows clock date) :
    (timevalDiff date clock).tvSec < 0 ∨
      (timevalDiff date clock).tvSec = 0 ∧ (timevalDiff date clock).tvUsec ≤ 0 := by
  rw [Bool.eq_false_iff, ne_eq, timevalCmp_iff] at short
  simp only [timevalDiff, Borrows] at *
  split
  next negative =>
    split
    · dsimp only at *
      omega
    · dsimp only at *
      omega
  next =>
    dsimp only at *
    omega

example : timevalDiff ⟨1, 500000⟩ ⟨0, 600000⟩ = ⟨0, -100000⟩ := rfl

/-- What the loop of the simulator gives `select`: the time until the first date of the queue. -/
inductive Waits (s : LinkSim Addr) : Prop
  | forever : s.pktQueue.contents = 0 → getQueueTimeout s = some none → Waits s
  | timed {first t} : first ∈ s.pktQueue.contents →
      (∀ slot ∈ s.pktQueue.contents, timevalCmp first.ts slot.ts = false) →
      getQueueTimeout s = some (some t) → TimeoutFits s.lastClock first.ts t → Waits s

theorem getQueueTimeout_spec (accounts : Accounts options s items gone left) : Waits s := by
  have peeked := peek_holdsHeap accounts.heap
  have contents := accounts.heap.holds.contents
  cases items with
  | nil =>
      refine Waits.forever contents ?_
      simp only [getQueueTimeout, peeked, List.head?_nil, Option.bind_eq_bind, Option.bind_some]
  | cons p rest =>
      have isDate := accounts.dates p List.mem_cons_self
      have order : ∀ slot ∈ p :: rest, timevalCmp p.ts slot.ts = false :=
        accounts.heap.ordered.first_least pktSlotCmp_comparison parent_shape rfl
      have first : p ∈ s.pktQueue.contents := contents ▸ Multiset.mem_coe.mpr List.mem_cons_self
      have least : ∀ slot ∈ s.pktQueue.contents, timevalCmp p.ts slot.ts = false :=
        fun slot member => order slot (Multiset.mem_coe.mp (contents ▸ member))
      have timeout : getQueueTimeout s =
          if (timevalDiff p.ts s.lastClock).tvSec < 0 ∨
              (timevalDiff p.ts s.lastClock).tvSec = 0 ∧ (timevalDiff p.ts s.lastClock).tvUsec ≤ 0
          then some (some ⟨0, 1000⟩) else some (some (timevalDiff p.ts s.lastClock)) := by
        simp only [getQueueTimeout, peeked, List.head?_cons, Option.bind_eq_bind, Option.bind_some]
      by_cases short : timevalCmp p.ts s.lastClock = false ∨ Borrows s.lastClock p.ts
      · rw [if_pos (timevalDiff_short short)] at timeout
        refine Waits.timed first least timeout ⟨by decide, by decide, fun later kept => ?_, fun _ => rfl⟩
        rw [later] at short
        exact absurd short (by simp [kept])
      · obtain ⟨later, kept⟩ := not_or.mp short
        rw [Bool.not_eq_false] at later
        obtain ⟨seconds, rest, positive, difference⟩ :=
          timevalDiff_later accounts.clock isDate later kept
        have long : ¬((timevalDiff p.ts s.lastClock).tvSec < 0 ∨
            (timevalDiff p.ts s.lastClock).tvSec = 0 ∧ (timevalDiff p.ts s.lastClock).tvUsec ≤ 0) := by
          rw [Timeval.microseconds] at positive
          omega
        rw [if_neg long] at timeout
        exact Waits.timed first least timeout ⟨⟨seconds, rest⟩, positive, fun _ _ => difference,
          fun again => absurd again short⟩

/-- A delivery at a clock: packets that are due leave in the order of their dates and each once, and
a due one stays only when a `sendto` fails. The loop goes on after it if it was delivered. -/
structure DeliversDue (sys : LinkSys) (s : LinkSim Addr) (now : Timespec) (delivered : Bool)
    (s' : LinkSim Addr) (out : List PktSlot) : Prop where
  result : deliverDelayedPkt sys { s with lastClock := lastClockOf now } = some (delivered, s')
  contents : s.pktQueue.contents = (out : Multiset PktSlot) + s'.pktQueue.contents
  sent : s'.sent = s.sent ++ out.map fun slot => ⟨lastClockOf now, slot.direction, slot.buf⟩
  sorted : out.Pairwise fun first second => timevalCmp first.ts second.ts = false
  due : ∀ slot ∈ out, timevalCmp (lastClockOf now) slot.ts = true
  ends : (delivered = true ∧
      ∀ slot ∈ s'.pktQueue.contents, timevalCmp (lastClockOf now) slot.ts = false) ∨
    sys.sendto (s.sendCalls + out.length) ≠ .sent ∧
      (delivered = true ↔ sys.sendto (s.sendCalls + out.length) = .again)

theorem deliversDue (sys : LinkSys) (accounts : Accounts options s items gone left) (now : Timespec) :
    ∃ delivered s' out, DeliversDue sys s now delivered s' out := by
  have woken : Accounts options { s with lastClock := lastClockOf now } items gone left :=
    ⟨lastClockOf_normal now, accounts.heap, accounts.sent, accounts.queued⟩
  obtain ⟨delivered, s', out, items', gone', left', pass, accounts', _, delivery⟩ :=
    deliverDelayedPkt_spec sys woken
  obtain ⟨whole, sorted, _⟩ := delivery.drains.sorted
  refine ⟨delivered, s', out, pass, ?_, delivery.sent, sorted, delivery.due, ?_⟩
  · rw [accounts.heap.holds.contents, accounts'.heap.holds.contents, whole]
  · rw [accounts'.heap.holds.contents]
    exact delivery.ends

/-- The datagram left, or is to leave, with the delay of one that came in the same direction. -/
structure Delays (options : LinkOptions) (came : List PktSlot) (s : LinkSim Addr) : Prop where
  sent : ∀ sent ∈ s.sent, sameDirection sent.direction options.linkDirection = true →
    ∃ taken ∈ came, taken.direction = sent.direction ∧ Altered options taken.buf sent.buf ∧
      taken.ts.microseconds + (options.delay.toNat - options.jitter.toNat) * 1000 <
        sent.ts.microseconds + 1000000
  queued : ∀ slot ∈ s.pktQueue.contents,
    ∃ taken ∈ came, taken.direction = slot.direction ∧ Altered options taken.buf slot.buf ∧
      taken.ts.microseconds + (options.delay.toNat - options.jitter.toNat) * 1000 ≤
        slot.ts.microseconds ∧
      slot.ts.microseconds ≤
        taken.ts.microseconds + (options.delay.toNat + options.jitter.toNat) * 1000

theorem Forwarded.waited {taken sent : PktSlot} (forwarded : Forwarded options taken sent)
    (simulated : sameDirection taken.direction options.linkDirection = true)
    (jitter : options.jitter ≤ options.delay)
    (small : options.delay.toNat + options.jitter.toNat < 10000) :
    taken.ts.microseconds + (options.delay.toNat - options.jitter.toNat) * 1000 <
      sent.ts.microseconds + 1000000 := by
  have time := forwarded.time
  by_cases delayed : options.delay = 0
  · rw [if_neg fun both => both.2 delayed] at time
    have nothing : options.delay.toNat = 0 := by rw [delayed]; rfl
    rw [time]
    omega
  · rw [if_pos ⟨simulated, delayed⟩] at time
    obtain ⟨applied, isDelay, due⟩ := time
    have early := (microseconds_of_later due forwarded.went (expiration_date forwarded.came applied)).1
    have bounds := isDelay_bounds isDelay jitter small
    rw [expiration_microseconds] at early
    omega

end

section

variable {Addr : Type} [DecidableEq Addr]

example : (sampleRun (sampleEvents.take 2)).bind (fun process => getQueueTimeout process.state) =
    some (some ⟨0, 150000⟩) := by
  decide +kernel

/-- Without a wrap-around of `delay - jitter`, each simulated datagram that was sent had waited for
at least the delay less the jitter and less a second, and the date of each queued one is its
arrival and its delay. -/
theorem linkSim_delays {options : LinkOptions} (jitter : options.jitter ≤ options.delay)
    (small : options.delay.toNat + options.jitter.toNat < 10000) (sys : LinkSys) (destAddr : Addr)
    (clock : Timespec) (events : List (LinkEvent Addr)) :
    ∃ process, linkRun sys options destAddr clock events = some process ∧
      Delays options (incoming destAddr none events) process.state := by
  obtain ⟨process, run, items, gone, left, accounts, within, _⟩ :=
    linkRun_valid sys options destAddr clock events
  have goneWithin := (Multiset.le_add_right gone left).trans within
  have leftWithin := (Multiset.le_add_left left gone).trans within
  refine ⟨process, run, fun sent member simulated => ?_, fun slot member => ?_⟩
  · obtain ⟨taken, source, forwarded⟩ := rel_exists accounts.sent goneWithin
      (Multiset.mem_coe.mpr member)
    rw [forwarded.direction] at simulated
    have bytes := forwarded.bytes
    rw [if_pos simulated] at bytes
    exact ⟨taken, Multiset.mem_coe.mp source, forwarded.direction.symm, bytes,
      forwarded.waited simulated jitter small⟩
  · rw [accounts.heap.holds.contents] at member
    obtain ⟨taken, source, queued⟩ := rel_exists accounts.queued leftWithin member
    obtain ⟨applied, isDelay, stamp⟩ := queued.delay
    refine ⟨taken, Multiset.mem_coe.mp source, queued.direction.symm, queued.bytes, ?_⟩
    have bounds := isDelay_bounds isDelay jitter small
    rw [stamp, expiration_microseconds]
    omega

theorem linkSim_delays_sample :
    ∃ process, sampleRun sampleEvents = some process ∧
      Delays sampleOptions (incoming 1 none sampleEvents) process.state :=
  linkSim_delays (by decide) (by decide) sampleLinkSys 1 (sampleClock 0) sampleEvents

end

end SelectiveRepeat
