import SelectiveRepeat.LinkSim
import SelectiveRepeat.MinQueueRuns

/-! Runs of the link simulator. Each datagram that it sent or still holds is one that came from one
of the two parties, at most altered as its options say, and none is sent twice. -/

namespace SelectiveRepeat

open BinaryHeap Bytes Runs

theorem timevalCmp_iff (left right : Timeval) : timevalCmp left right = true ↔
    right.tvSec < left.tvSec ∨ left.tvSec = right.tvSec ∧ right.tvUsec < left.tvUsec := by
  rw [timevalCmp]
  split <;> simp only [decide_eq_true_eq] <;> omega

theorem pktSlotCmp_comparison : Comparison pktSlotCmp := by
  constructor
  · intro x y later
    rw [pktSlotCmp, timevalCmp_iff] at later
    rw [pktSlotCmp, Bool.eq_false_iff, ne_eq, timevalCmp_iff]
    omega
  · intro x y z first second
    rw [pktSlotCmp, Bool.eq_false_iff, ne_eq, timevalCmp_iff] at first second ⊢
    omega

def Timeval.Normal (t : Timeval) : Prop := 0 ≤ t.tvUsec ∧ t.tvUsec < 1000000

theorem lastClockOf_normal (ts : Timespec) : (lastClockOf ts).Normal := by
  have bound := ts.bound
  constructor <;> simp only [lastClockOf] <;> omega

/-! What may become of a datagram. -/

/-- What the options allow to be made of the bytes of a packet. -/
inductive Altered (options : LinkOptions) (buf : List Byte) : List Byte → Prop
  | same : Altered options buf buf
  | cut : options.cutRate ≠ 0 → minPktLen < buf.length →
      Altered options buf ((buf.set 0 (buf.getD 0 0 ||| 0x20)).take minPktLen)
  | inverted (idx : Nat) : options.errRate ≠ 0 → idx < buf.length →
      Altered options buf (buf.set idx (~~~(buf.getD idx 0)))

/-- The delays in ms that the options allow. -/
def IsDelay (options : LinkOptions) (applied : Nat) : Prop :=
  options.delay ≠ 0 ∧ ∃ part : BitVec 32, (part = 0 ∨ part < options.jitter) ∧
    (applied = (options.delay + part).toNat % 10000 ∨
      applied = (options.delay - part).toNat % 10000)

def expiration (clock : Timeval) (applied : Nat) : Timeval :=
  ⟨clock.tvSec + (applied / 1000 : Nat), clock.tvUsec + (applied % 1000 : Nat) * 1000⟩

/-- The slot holds what came, for a delay from then on. -/
structure Queued (options : LinkOptions) (taken slot : PktSlot) : Prop where
  came : taken.ts.Normal
  simulated : sameDirection taken.direction options.linkDirection = true
  direction : slot.direction = taken.direction
  bytes : Altered options taken.buf slot.buf
  delay : ∃ applied, IsDelay options applied ∧ slot.ts = expiration taken.ts applied

/-- What was sent is what came: at once and unaltered outside the simulated direction, and
else after the delay. -/
structure Forwarded (options : LinkOptions) (taken sent : PktSlot) : Prop where
  came : taken.ts.Normal
  went : sent.ts.Normal
  direction : sent.direction = taken.direction
  bytes : if sameDirection taken.direction options.linkDirection then
    Altered options taken.buf sent.buf else sent.buf = taken.buf
  time : if sameDirection taken.direction options.linkDirection ∧ options.delay ≠ 0 then
    ∃ applied, IsDelay options applied ∧ timevalCmp sent.ts (expiration taken.ts applied) = true
    else sent.ts = taken.ts

section

variable {Addr : Type} {sys : LinkSys} {options : LinkOptions} {s : LinkSim Addr}
  {items : List PktSlot} {gone left : Multiset PktSlot}

/-- The queue is a heap, and what was sent and what is queued come from these datagrams. -/
structure Accounts (options : LinkOptions) (s : LinkSim Addr) (items : List PktSlot)
    (gone left : Multiset PktSlot) : Prop where
  clock : s.lastClock.Normal
  heap : s.pktQueue.HoldsHeap pktSlotCmp items
  sent : Multiset.Rel (Forwarded options) gone s.sent
  queued : Multiset.Rel (Queued options) left items

def SameParties (s s' : LinkSim Addr) : Prop :=
  s'.srcAddr = s.srcAddr ∧ s'.lastClock = s.lastClock

theorem rel_append {α β : Type} {holds : α → β → Prop} {source : Multiset α} {images : List β}
    {x : α} {y : β} (related : Multiset.Rel holds source images) (image : holds x y) :
    Multiset.Rel holds (x ::ₘ source) (images ++ [y] : List β) := by
  rw [Multiset.coe_eq_coe.mpr (List.perm_append_singleton y images)]
  exact Multiset.Rel.cons image related

theorem Queued.forwarded {taken slot : PktSlot} (queued : Queued options taken slot)
    {clock : Timeval} (normal : clock.Normal) (due : timevalCmp clock slot.ts = true) :
    Forwarded options taken ⟨clock, slot.direction, slot.buf⟩ := by
  obtain ⟨applied, isDelay, stamp⟩ := queued.delay
  refine ⟨queued.came, normal, queued.direction, ?_, ?_⟩
  · rw [if_pos queued.simulated]
    exact queued.bytes
  · rw [if_pos ⟨queued.simulated, isDelay.1⟩]
    exact ⟨applied, isDelay, stamp ▸ due⟩

/-- One pass of the delivery: the datagrams that are due leave in the order of their dates, until
none is due or one cannot be sent. -/
structure Delivery (sys : LinkSys) (s s' : LinkSim Addr) (delivered : Bool)
    (items out items' : List PktSlot) : Prop where
  parties : SameParties s s'
  drains : Drains pktSlotCmp items out items'
  sent : s'.sent = s.sent ++ out.map fun slot => ⟨s.lastClock, slot.direction, slot.buf⟩
  due : ∀ slot ∈ out, timevalCmp s.lastClock slot.ts = true
  ends : (delivered = true ∧ ∀ slot ∈ items', timevalCmp s.lastClock slot.ts = false) ∨
    sys.sendto (s.sendCalls + out.length) ≠ .sent ∧
      (delivered = true ↔ sys.sendto (s.sendCalls + out.length) = .again)

theorem Delivery.stop {s' : LinkSim Addr} {delivered : Bool} (parties : SameParties s s')
    (sent : s'.sent = s.sent)
    (ends : (delivered = true ∧ ∀ slot ∈ items, timevalCmp s.lastClock slot.ts = false) ∨
      sys.sendto s.sendCalls ≠ .sent ∧ (delivered = true ↔ sys.sendto s.sendCalls = .again)) :
    Delivery sys s s' delivered items [] items :=
  ⟨parties, Drains.stop, by rw [sent, List.map_nil, List.append_nil],
    fun _ member => absurd member List.not_mem_nil, ends⟩

theorem none_due {clock : Timeval} {p : PktSlot} {rest : List PktSlot}
    (ordered : Ordered parent pktSlotCmp (p :: rest)) (early : timevalCmp clock p.ts = false) :
    ∀ slot ∈ p :: rest, timevalCmp clock slot.ts = false := by
  intro slot member
  have behind : pktSlotCmp p slot = false :=
    ordered.first_least pktSlotCmp_comparison parent_shape rfl slot member
  exact pktSlotCmp_comparison.trans (x := ⟨clock, 0, []⟩) early behind

theorem deliverLoop_spec {fuel : Nat} (accounts : Accounts options s items gone left)
    (enough : items.length < fuel) :
    ∃ delivered s' out items' gone' left', deliverLoop sys fuel s = some (delivered, s') ∧
      Accounts options s' items' gone' left' ∧ gone' + left' = gone + left ∧
      Delivery sys s s' delivered items out items' := by
  induction fuel generalizing s items gone left with
  | zero => omega
  | succ fuel ih =>
      have peeked := peek_holdsHeap accounts.heap
      cases items with
      | nil =>
          refine ⟨true, s, [], [], gone, left, ?_, accounts, rfl, Delivery.stop ⟨rfl, rfl⟩ rfl
            (Or.inl ⟨rfl, fun _ member => absurd member List.not_mem_nil⟩)⟩
          simp only [deliverLoop, peeked, List.head?_nil, Option.bind_eq_bind, Option.bind_some]
      | cons p rest =>
          simp only [deliverLoop, peeked, List.head?_cons, Option.bind_eq_bind, Option.bind_some]
          cases due : timevalCmp s.lastClock p.ts with
          | false =>
              exact ⟨true, s, [], p :: rest, gone, left, rfl, accounts, rfl, Delivery.stop
                ⟨rfl, rfl⟩ rfl (Or.inl ⟨rfl, none_due accounts.heap.ordered due⟩)⟩
          | true =>
              have blocked : Accounts options { s with sendCalls := s.sendCalls + 1 } (p :: rest)
                gone left := ⟨accounts.clock, accounts.heap, accounts.sent, accounts.queued⟩
              simp only [if_true, writeOut]
              cases result : sys.sendto s.sendCalls with
              | again =>
                  exact ⟨true, _, [], p :: rest, gone, left, rfl, blocked, rfl,
                    Delivery.stop ⟨rfl, rfl⟩ rfl (Or.inr (by simp [result]))⟩
              | failed =>
                  exact ⟨false, _, [], p :: rest, gone, left, rfl, blocked, rfl,
                    Delivery.stop ⟨rfl, rfl⟩ rfl (Or.inr (by simp [result]))⟩
              | sent =>
                  obtain ⟨q', between, popped, heap', perm⟩ :=
                    pop_holdsHeap pktSlotCmp_comparison accounts.heap
                  have same := Multiset.coe_eq_coe.mpr perm
                  have fewer := perm.length_eq
                  have queued : Multiset.Rel (Queued options) left (p ::ₘ (rest : Multiset PktSlot)) :=
                    accounts.queued
                  obtain ⟨taken, others, image, others_queued, rfl⟩ := Multiset.rel_cons_right.mp queued
                  have takes : Takes pktSlotCmp (p :: rest : List PktSlot) p between := by
                    rw [same]
                    exact first_takes pktSlotCmp_comparison accounts.heap.ordered
                  have next : Accounts options { s with
                      sendCalls := s.sendCalls + 1
                      sent := s.sent ++ [⟨s.lastClock, p.direction, p.buf⟩]
                      pktQueue := q' } between (taken ::ₘ gone) others :=
                    ⟨accounts.clock, heap', rel_append accounts.sent (image.forwarded accounts.clock due),
                      same ▸ others_queued⟩
                  rw [List.length_cons] at enough
                  obtain ⟨delivered, s', out, items', gone', left', run, accounts', sum, delivery⟩ :=
                    ih next (by omega)
                  refine ⟨delivered, s', p :: out, items', gone', left', ?_, accounts', ?_, ?_⟩
                  · simp only [popped, Option.bind_some]
                    exact run
                  · rw [sum, Multiset.cons_add, Multiset.add_cons]
                  · refine ⟨delivery.parties, Drains.take takes delivery.drains,
                      delivery.sent.trans (List.append_assoc _ _ _),
                      List.forall_mem_cons.mpr ⟨due, delivery.due⟩, ?_⟩
                    rw [List.length_cons, Nat.add_comm out.length, ← Nat.add_assoc]
                    exact delivery.ends

theorem deliverDelayedPkt_spec (sys : LinkSys) (accounts : Accounts options s items gone left) :
    ∃ delivered s' out items' gone' left', deliverDelayedPkt sys s = some (delivered, s') ∧
      Accounts options s' items' gone' left' ∧ gone' + left' = gone + left ∧
      Delivery sys s s' delivered items out items' :=
  deliverLoop_spec accounts (Nat.lt_succ_of_le (Nat.le_of_eq accounts.heap.holds.size.symm))

/-! The draws only count. -/

def withDraws (s : LinkSim Addr) (randCalls : Nat) : LinkSim Addr := { s with randCalls }

theorem happens_spec (sys : LinkSys) (s : LinkSim Addr) (rate : BitVec 32) :
    ∃ calls, (happens sys s rate).2 = withDraws s calls ∧ ((happens sys s rate).1 = true → rate ≠ 0) := by
  rw [happens]
  split
  · exact ⟨s.randCalls, rfl, fun absent => absurd absent Bool.false_ne_true⟩
  · exact ⟨s.randCalls + 1, rfl, fun _ => ‹_›⟩

theorem alterPacket_spec (sys : LinkSys) (options : LinkOptions) (s : LinkSim Addr)
    {buf : List Byte} (nonempty : 0 < buf.length) :
    ∃ calls, (alterPacket sys options s buf).2 = withDraws s calls ∧
      Altered options buf (alterPacket sys options s buf).1 := by
  obtain ⟨cutCalls, cutState, cutRate⟩ := happens_spec sys s options.cutRate
  obtain ⟨errCalls, errState, errRate⟩ :=
    happens_spec sys (happens sys s options.cutRate).2 options.errRate
  simp only [alterPacket]
  split
  next cut => exact ⟨cutCalls, cutState, .cut (cutRate cut.1) cut.2⟩
  next =>
    split
    next corrupt =>
      rw [errState, cutState]
      exact ⟨errCalls + 1, rfl, .inverted _ (errRate corrupt) (Nat.mod_lt _ nonempty)⟩
    next =>
      rw [errState, cutState]
      exact ⟨errCalls, rfl, .same⟩

theorem appliedDelay_spec (sys : LinkSys) (s : LinkSim Addr) (delayed : options.delay ≠ 0) :
    ∃ calls, (appliedDelay sys options s).2 = withDraws s calls ∧
      IsDelay options (appliedDelay sys options s).1 := by
  rw [appliedDelay]
  split
  next jittered =>
    have part := BitVec.umod_lt (BitVec.ofNat 32 (sys.rand (s.randCalls + 1)).toNat)
      ((BitVec.pos_iff_ne_zero _).mpr jittered)
    refine ⟨s.randCalls + 2, rfl, delayed, _, Or.inr part, ?_⟩
    by_cases upper : (nextRand sys s).1 % 101 > 49
    · left
      show (if (nextRand sys s).1 % 101 > 49 then _ else _ : BitVec 32).toNat % 10000 = _
      rw [if_pos upper]
      rfl
    · right
      show (if (nextRand sys s).1 % 101 > 49 then _ else _ : BitVec 32).toNat % 10000 = _
      rw [if_neg upper]
      rfl
  next =>
    refine ⟨s.randCalls, rfl, delayed, 0#32, Or.inl rfl, Or.inl ?_⟩
    rw [BitVec.add_zero]

/-- What came was sent or queued, or it was dropped or could not be sent or queued. -/
def Accounted (options : LinkOptions) (came : List PktSlot) (processed : Bool)
    (before after : Multiset PktSlot) : Prop :=
  after = before + (came : Multiset PktSlot) ∨
    after = before ∧ (processed = true → options.lossRate ≠ 0)

theorem accounted_nothing {processed : Bool} {before : Multiset PktSlot} :
    Accounted options [] processed before before :=
  Or.inl (Multiset.add_zero before).symm

theorem accounted_one {taken : PktSlot} {processed : Bool} {before after : Multiset PktSlot}
    (added : after = taken ::ₘ before) : Accounted options [taken] processed before after := by
  refine Or.inl (added.trans ?_)
  rw [Multiset.coe_singleton, Multiset.add_comm, Multiset.singleton_add]

theorem Accounts.withDraws (accounts : Accounts options s items gone left) (calls : Nat) :
    Accounts options (withDraws s calls) items gone left :=
  ⟨accounts.clock, accounts.heap, accounts.sent, accounts.queued⟩

theorem writeOut_spec (sys : LinkSys) (accounts : Accounts options s items gone left)
    {taken : PktSlot} {buf : List Byte}
    (image : Forwarded options taken ⟨s.lastClock, taken.direction, buf⟩) :
    ∃ result s' gone', writeOut sys s buf taken.direction = (result, s') ∧
      Accounts options s' items gone' left ∧ SameParties s s' ∧
      Accounted options [taken] (result = .sent) (gone + left) (gone' + left) := by
  rw [writeOut]
  have failure : ∀ result : SendtoResult, result ≠ .sent →
      Accounted options [taken] (result = .sent) (gone + left) (gone + left) := fun result failed =>
    Or.inr ⟨rfl, fun sent => absurd (of_decide_eq_true sent) failed⟩
  have blocked : Accounts options { s with sendCalls := s.sendCalls + 1 } items gone left :=
    ⟨accounts.clock, accounts.heap, accounts.sent, accounts.queued⟩
  cases sys.sendto s.sendCalls with
  | sent =>
      exact ⟨.sent, _, taken ::ₘ gone, rfl,
        ⟨accounts.clock, accounts.heap, rel_append accounts.sent image, accounts.queued⟩, ⟨rfl, rfl⟩,
        accounted_one (Multiset.cons_add taken gone left)⟩
  | again => exact ⟨.again, _, gone, rfl, blocked, ⟨rfl, rfl⟩, failure .again (by decide)⟩
  | failed => exact ⟨.failed, _, gone, rfl, blocked, ⟨rfl, rfl⟩, failure .failed (by decide)⟩

theorem delayPacket_spec (sys : LinkSys) (accounts : Accounts options s items gone left)
    {taken : PktSlot} {buf : List Byte} {applied : Nat}
    (image : Queued options taken ⟨expiration s.lastClock applied, taken.direction, buf⟩) :
    ∃ processed s' items' left', delayPacket sys s buf taken.direction applied = some (processed, s') ∧
      Accounts options s' items' gone left' ∧ SameParties s s' ∧
      Accounted options [taken] processed (gone + left) (gone + left') := by
  have failure : Accounted options [taken] false (gone + left) (gone + left) :=
    Or.inr ⟨rfl, fun failed => absurd failed Bool.false_ne_true⟩
  simp only [delayPacket]
  cases sys.malloc s.mallocCalls with
  | false =>
      exact ⟨false, _, items, left, rfl, ⟨accounts.clock, accounts.heap, accounts.sent, accounts.queued⟩,
        ⟨rfl, rfl⟩, failure⟩
  | true =>
      simp only [Bool.true_eq_false, if_false]
      rcases push_holdsHeap pktSlotCmp_comparison accounts.heap
          ⟨expiration s.lastClock applied, taken.direction, buf⟩ (sys.realloc s.pushCalls) with
        ⟨_, full⟩ | ⟨q', items', pushed, heap', perm⟩
      · rw [expiration] at full
        rw [full]
        exact ⟨false, _, items, left, rfl, ⟨accounts.clock, accounts.heap, accounts.sent, accounts.queued⟩,
          ⟨rfl, rfl⟩, failure⟩
      · have queued : Multiset.Rel (Queued options) (taken ::ₘ left) items' := by
          rw [Multiset.coe_eq_coe.mpr perm]
          exact Multiset.Rel.cons image accounts.queued
        rw [expiration] at pushed
        rw [pushed]
        exact ⟨true, _, items', taken ::ₘ left, rfl, ⟨accounts.clock, heap', accounts.sent, queued⟩,
          ⟨rfl, rfl⟩, accounted_one (Multiset.add_cons taken gone left)⟩

theorem simulateLink_spec (sys : LinkSys) (accounts : Accounts options s items gone left)
    (taken : PktSlot) (now : taken.ts = s.lastClock) (nonempty : 0 < taken.buf.length)
    (simulated : sameDirection taken.direction options.linkDirection = true) :
    ∃ processed s' items' gone' left',
      simulateLink sys options s taken.buf taken.direction = some (processed, s') ∧
      Accounts options s' items' gone' left' ∧ SameParties s s' ∧
      Accounted options [taken] processed (gone + left) (gone' + left') := by
  obtain ⟨lossCalls, lossState, lossRate⟩ := happens_spec sys s options.lossRate
  obtain ⟨alterCalls, alterState, altered⟩ :=
    alterPacket_spec sys options (withDraws s lossCalls) nonempty
  simp only [simulateLink]
  by_cases lost : (happens sys s options.lossRate).1 = true
  · exact ⟨true, _, items, gone, left, by rw [if_pos lost, lossState], accounts.withDraws lossCalls,
      ⟨rfl, rfl⟩, Or.inr ⟨rfl, fun _ => lossRate lost⟩⟩
  · rw [if_neg lost, lossState, alterState]
    generalize (alterPacket sys options (withDraws s lossCalls) taken.buf).1 = buf at altered ⊢
    have kept := (accounts.withDraws lossCalls).withDraws alterCalls
    by_cases delayed : options.delay ≠ 0
    · rw [if_pos delayed]
      obtain ⟨delayCalls, delayState, isDelay⟩ :=
        appliedDelay_spec sys (withDraws (withDraws s lossCalls) alterCalls) delayed
      rw [delayState]
      obtain ⟨processed, s', items', left', queued, accounts', parties, accounted⟩ :=
        delayPacket_spec sys (kept.withDraws delayCalls)
          ⟨now ▸ accounts.clock, simulated, rfl, altered, _, isDelay, by rw [now]; rfl⟩
      exact ⟨processed, s', items', gone, left', queued, accounts', parties, accounted⟩
    · rw [if_neg delayed]
      have image : Forwarded options taken ⟨s.lastClock, taken.direction, buf⟩ := by
        refine ⟨now ▸ accounts.clock, accounts.clock, rfl, ?_, ?_⟩
        · rw [if_pos simulated]
          exact altered
        · rw [if_neg fun both => delayed both.2]
          exact now.symm
      obtain ⟨result, s', gone', written, accounts', parties, accounted⟩ := writeOut_spec sys kept image
      rw [written]
      exact ⟨_, s', items, gone', left, rfl, accounts', parties, accounted⟩

/-- What a datagram of one of the two parties becomes, simulated or passed on. -/
theorem passOn_spec (sys : LinkSys) (accounts : Accounts options s items gone left)
    (taken : PktSlot) (now : taken.ts = s.lastClock) (nonempty : 0 < taken.buf.length) :
    ∃ processed s' items' gone' left',
      (if sameDirection taken.direction options.linkDirection = true then
          simulateLink sys options s taken.buf taken.direction
        else
          match writeOut sys s taken.buf taken.direction with
          | (result, s) => some (decide (result = .sent), s)) = some (processed, s') ∧
      Accounts options s' items' gone' left' ∧ SameParties s s' ∧
      Accounted options [taken] processed (gone + left) (gone' + left') := by
  by_cases simulated : sameDirection taken.direction options.linkDirection = true
  · rw [if_pos simulated]
    exact simulateLink_spec sys accounts taken now nonempty simulated
  · rw [if_neg simulated]
    have image : Forwarded options taken ⟨s.lastClock, taken.direction, taken.buf⟩ := by
      refine ⟨now ▸ accounts.clock, accounts.clock, rfl, ?_, ?_⟩
      · rw [if_neg simulated]
      · rw [if_neg fun both => simulated both.1]
        exact now.symm
    obtain ⟨result, s', gone', written, accounts', parties, accounted⟩ := writeOut_spec sys accounts image
    rw [written]
    exact ⟨_, s', items, gone', left, rfl, accounts', parties, accounted⟩

/-- The books balance: what was sent and what is queued came in, and without losses nothing else
came in while the simulator runs. -/
def LinkProcess.Valid (options : LinkOptions) (came : List PktSlot) (process : LinkProcess Addr) :
    Prop :=
  ∃ items gone left, Accounts options process.state items gone left ∧ gone + left ≤ came ∧
    (options.lossRate = 0 → process.running = true → gone + left = came)

theorem linkInit_valid (options : LinkOptions) (clock : Timespec) :
    (⟨LinkSim.init clock, true⟩ : LinkProcess Addr).Valid options [] :=
  ⟨[], 0, 0, ⟨lastClockOf_normal clock, minqNew_holdsHeap pktSlotCmp, Multiset.Rel.zero,
    Multiset.Rel.zero⟩, le_refl _, fun _ _ => rfl⟩

/-- While the simulator runs it has taken all that came in, and the party is known. -/
def LinkProcess.Took (process : LinkProcess Addr) (came all : List PktSlot)
    (party : Option Addr) : Prop :=
  came <+: all ∧ (process.running = true → came = all ∧ process.state.srcAddr = party)

section

variable [DecidableEq Addr]

/-- The party that is not `destAddr`, and the datagram that came from one of the two. That party is
the first to send at least `minPktLen` bytes. -/
def RecvfromResult.comes (destAddr : Addr) (srcAddr : Option Addr) (clock : Timeval) :
    RecvfromResult Addr → Option Addr × List PktSlot
  | .datagram source bytes =>
      if bytes.length < minPktLen then (srcAddr, [])
      else
        let party := srcAddr.getD source
        let buf := bytes.take maxPktLen
        (some party,
          if source = party then [⟨clock, linkForward, buf⟩]
          else if source = destAddr then [⟨clock, linkReverse, buf⟩]
          else [])
  | _ => (srcAddr, [])

def LinkEvent.comes (destAddr : Addr) (srcAddr : Option Addr) :
    LinkEvent Addr → Option Addr × List PktSlot
  | .woken (some clock) (some answer) => answer.comes destAddr srcAddr (lastClockOf clock)
  | _ => (srcAddr, [])

/-- What comes in from the two parties in these events. -/
def incoming (destAddr : Addr) (srcAddr : Option Addr) : List (LinkEvent Addr) → List PktSlot
  | [] => []
  | event :: events =>
      (event.comes destAddr srcAddr).2 ++ incoming destAddr (event.comes destAddr srcAddr).1 events

theorem processIncomingPkt_spec (sys : LinkSys) (destAddr : Addr)
    (accounts : Accounts options s items gone left) (answer : RecvfromResult Addr) :
    ∃ processed s' items' gone' left',
      processIncomingPkt sys options destAddr s answer = some (processed, s') ∧
      Accounts options s' items' gone' left' ∧
      s'.srcAddr = (answer.comes destAddr s.srcAddr s.lastClock).1 ∧
      Accounted options (answer.comes destAddr s.srcAddr s.lastClock).2 processed
        (gone + left) (gone' + left') := by
  cases answer with
  | failed => exact ⟨false, s, items, gone, left, rfl, accounts, rfl, accounted_nothing⟩
  | again => exact ⟨true, s, items, gone, left, rfl, accounts, rfl, accounted_nothing⟩
  | datagram source bytes =>
      simp only [processIncomingPkt, RecvfromResult.comes]
      by_cases short : bytes.length < minPktLen
      · rw [if_pos short, if_pos ((List.length_take_le' maxPktLen bytes).trans_lt short)]
        exact ⟨true, s, items, gone, left, rfl, accounts, rfl, accounted_nothing⟩
      · have long : minPktLen ≤ (bytes.take maxPktLen).length := by
          rw [List.length_take]
          exact le_min (by decide) (Nat.le_of_not_lt short)
        have nonempty : 0 < (bytes.take maxPktLen).length := Nat.lt_of_lt_of_le (by decide) long
        have known : Accounts options { s with srcAddr := some (s.srcAddr.getD source) } items gone
          left := ⟨accounts.clock, accounts.heap, accounts.sent, accounts.queued⟩
        rw [if_neg short, if_neg (Nat.not_lt.mpr long)]
        by_cases forward : source = s.srcAddr.getD source
        · obtain ⟨processed, s', items', gone', left', result, accounts', parties, accounted⟩ :=
            passOn_spec sys known ⟨s.lastClock, linkForward, bytes.take maxPktLen⟩ rfl nonempty
          simp only [if_pos forward]
          exact ⟨processed, s', items', gone', left', result, accounts', parties.1, accounted⟩
        · simp only [if_neg forward]
          by_cases reverse : source = destAddr
          · obtain ⟨processed, s', items', gone', left', result, accounts', parties, accounted⟩ :=
              passOn_spec sys known ⟨s.lastClock, linkReverse, bytes.take maxPktLen⟩ rfl nonempty
            simp only [if_pos reverse]
            exact ⟨processed, s', items', gone', left', result, accounts', parties.1, accounted⟩
          · simp only [if_neg reverse]
            exact ⟨true, _, items, gone, left, rfl, known, rfl, accounted_nothing⟩

theorem proxyTurn_spec (sys : LinkSys) (destAddr : Addr) {came : List PktSlot} {s : LinkSim Addr}
    (valid : (⟨s, true⟩ : LinkProcess Addr).Valid options came) (event : LinkEvent Addr) :
    ∃ process came', proxyTurn sys options destAddr s event = some process ∧
      process.Valid options came' ∧
      process.Took came' (came ++ (event.comes destAddr s.srcAddr).2)
        (event.comes destAddr s.srcAddr).1 := by
  obtain ⟨items, gone, left, accounts, within, complete⟩ := valid
  have same : ∀ process : LinkProcess Addr, process.state.srcAddr = s.srcAddr →
      process.Took came (came ++ []) s.srcAddr := fun process party =>
    ⟨List.prefix_append came [], fun _ => ⟨(List.append_nil came).symm, party⟩⟩
  have stopped : ∀ {s' : LinkSim Addr} {items' gone' left'}, Accounts options s' items' gone' left' →
      gone' + left' = gone + left → (⟨s', false⟩ : LinkProcess Addr).Valid options came :=
    fun accounts' sum => ⟨_, _, _, accounts', sum ▸ within,
      fun _ running => absurd running Bool.false_ne_true⟩
  cases event with
  | interrupted =>
      exact ⟨⟨s, true⟩, came, rfl, ⟨items, gone, left, accounts, within, complete⟩, same _ rfl⟩
  | selectFailed => exact ⟨⟨s, false⟩, came, rfl, stopped accounts rfl, same _ rfl⟩
  | woken clock readable =>
      cases clock with
      | none => exact ⟨⟨s, false⟩, came, rfl, stopped accounts rfl, same _ rfl⟩
      | some clock =>
          have woken : Accounts options { s with lastClock := lastClockOf clock } items gone left :=
            ⟨lastClockOf_normal clock, accounts.heap, accounts.sent, accounts.queued⟩
          obtain ⟨delivered, s₁, out, items₁, gone₁, left₁, pass, accounts₁, sum, delivery⟩ :=
            deliverDelayedPkt_spec sys woken
          obtain ⟨party, now⟩ := delivery.parties
          simp only [proxyTurn, pass, Option.bind_eq_bind, Option.bind_some]
          cases delivered with
          | false =>
              exact ⟨⟨s₁, false⟩, came, rfl, stopped accounts₁ sum, List.prefix_append came _,
                fun running => absurd running Bool.false_ne_true⟩
          | true =>
              simp only [Bool.true_eq_false, if_false]
              cases readable with
              | none => exact ⟨⟨s₁, true⟩, came, rfl, ⟨items₁, gone₁, left₁, accounts₁, sum ▸ within,
                  fun lossless running => sum ▸ complete lossless running⟩, same _ party⟩
              | some answer =>
                  obtain ⟨processed, s', items', gone', left', result, accounts', party', accounted⟩ :=
                    processIncomingPkt_spec sys destAddr accounts₁ answer
                  rw [party, now] at party' accounted
                  rw [sum] at accounted
                  simp only [result, Option.bind_some]
                  refine ⟨⟨s', processed⟩, _, rfl, ⟨items', gone', left', accounts', ?_⟩,
                    List.prefix_refl _, fun _ => ⟨rfl, party'⟩⟩
                  rw [← Multiset.coe_add]
                  rcases accounted with added | ⟨dropped, lossy⟩
                  · rw [added]
                    refine ⟨Multiset.add_le_add_iff_right.mpr within, fun lossless _ => ?_⟩
                    rw [complete lossless rfl]
                    rfl
                  · rw [dropped]
                    exact ⟨within.trans (Multiset.le_add_right _ _),
                      fun lossless running => absurd lossless (lossy running)⟩

/-! Runs -/

def linkRun (sys : LinkSys) (options : LinkOptions) (destAddr : Addr) (clock : Timespec)
    (events : List (LinkEvent Addr)) : Option (LinkProcess Addr) :=
  events.foldl (proxyLoop sys options destAddr) (some ⟨LinkSim.init clock, true⟩)

theorem proxyLoop_stopped (sys : LinkSys) (options : LinkOptions) (destAddr : Addr)
    (s : LinkSim Addr) (events : List (LinkEvent Addr)) :
    events.foldl (proxyLoop sys options destAddr) (some ⟨s, false⟩) = some ⟨s, false⟩ := by
  induction events with
  | nil => rfl
  | cons event rest ih => exact ih

theorem proxyLoop_valid (sys : LinkSys) (destAddr : Addr) {came : List PktSlot}
    {process : LinkProcess Addr} (valid : process.Valid options came)
    (running : process.running = true) (events : List (LinkEvent Addr)) :
    ∃ process' came', events.foldl (proxyLoop sys options destAddr) (some process) = some process' ∧
      process'.Valid options came' ∧
      came' <+: came ++ incoming destAddr process.state.srcAddr events ∧
      (process'.running = true → came' = came ++ incoming destAddr process.state.srcAddr events) := by
  induction events generalizing process came with
  | nil =>
      have all : came = came ++ incoming destAddr process.state.srcAddr [] :=
        (List.append_nil came).symm
      exact ⟨process, came, rfl, valid, List.prefix_append came [], fun _ => all⟩
  | cons event rest ih =>
      obtain ⟨s, _⟩ := process
      obtain rfl : _ = true := running
      obtain ⟨process₁, came₁, turn, valid₁, within, took⟩ := proxyTurn_spec sys destAddr valid event
      have first : proxyLoop sys options destAddr (some ⟨s, true⟩) event = some process₁ := turn
      rw [List.foldl_cons, first, incoming, ← List.append_assoc]
      cases running₁ : process₁.running with
      | true =>
          obtain ⟨rfl, party⟩ := took running₁
          rw [← party]
          exact ih valid₁ running₁
      | false =>
          obtain ⟨s₁, _⟩ := process₁
          obtain rfl : _ = false := running₁
          exact ⟨_, came₁, proxyLoop_stopped sys options destAddr s₁ rest, valid₁,
            within.trans (List.prefix_append _ _), fun running => absurd running Bool.false_ne_true⟩

theorem linkRun_valid (sys : LinkSys) (options : LinkOptions) (destAddr : Addr) (clock : Timespec)
    (events : List (LinkEvent Addr)) :
    ∃ process, linkRun sys options destAddr clock events = some process ∧
      process.Valid options (incoming destAddr none events) := by
  obtain ⟨process, came, run, ⟨items, gone, left, accounts, within, complete⟩, taken, all⟩ :=
    proxyLoop_valid sys destAddr (linkInit_valid options clock) rfl events
  rw [List.nil_append] at taken all
  refine ⟨process, run, items, gone, left, accounts, ?_, fun lossless running => ?_⟩
  · exact within.trans (Multiset.coe_le.mpr taken.sublist.subperm)
  · rw [complete lossless running, all running]
    rfl

end

end

/-- What was sent and what is held are images of different datagrams that came in, each for the same
side and altered at most as the options say; without a loss rate, none is missing while the
simulator runs. -/
structure Conserves {Addr : Type} (options : LinkOptions) (came : List PktSlot)
    (process : LinkProcess Addr) (gone left : Multiset PktSlot) : Prop where
  sent : Multiset.Rel (Forwarded options) gone process.state.sent
  held : Multiset.Rel (Queued options) left process.state.pktQueue.contents
  within : gone + left ≤ came
  complete : options.lossRate = 0 → process.running = true → gone + left = came

theorem linkSim_conserves {Addr : Type} [DecidableEq Addr] (sys : LinkSys) (options : LinkOptions)
    (destAddr : Addr) (clock : Timespec) (events : List (LinkEvent Addr)) :
    ∃ process gone left, linkRun sys options destAddr clock events = some process ∧
      Conserves options (incoming destAddr none events) process gone left := by
  obtain ⟨process, run, items, gone, left, accounts, came, complete⟩ :=
    linkRun_valid sys options destAddr clock events
  refine ⟨process, gone, left, run, accounts.sent, ?_, came, complete⟩
  rw [accounts.heap.holds.contents]
  exact accounts.queued

/-! A run: three headers come in 50 ms apart for a delay of 200 ms, and the first two leave when the
third comes. -/

def sampleLinkSys : LinkSys := ⟨fun _ => 0, fun _ => .sent, fun _ => true, fun _ => true⟩

def sampleOptions : LinkOptions := ⟨200, 0, 0, 0, 0, linkForward⟩

def sampleClock (milliseconds : Nat) : Timespec :=
  ⟨(milliseconds / 1000 : Nat), milliseconds % 1000 * 1000000, by omega⟩

def sampleHeader (seqnum : Byte) : List Byte := [0x40, seqnum, 0, 0, 0, 0, 0, 0, 0, 0, 0, 0]

def sampleEvents : List (LinkEvent Nat) :=
  [.woken (some (sampleClock 900)) (some (.datagram 0 (sampleHeader 1))),
    .woken (some (sampleClock 950)) (some (.datagram 0 (sampleHeader 2))),
    .woken (some (sampleClock 1000)) (some (.datagram 0 (sampleHeader 3)))]

def sampleRun (events : List (LinkEvent Nat)) : Option (LinkProcess Nat) :=
  linkRun sampleLinkSys sampleOptions 1 (sampleClock 0) events

example : (incoming 1 none sampleEvents).length = 3 ∧
    (sampleRun sampleEvents).map (fun process =>
      (process.state.sent.length, process.state.pktQueue.size)) = some (2, 1) := by
  decide +kernel

end SelectiveRepeat
