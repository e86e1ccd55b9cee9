import SelectiveRepeat.Library.BinaryHeap
import SelectiveRepeat.Library.Runs
import SelectiveRepeat.MinQueue

/-! Any sequence of calls on the priority queue, from `minq_new` on: the slots always hold a
heap, no call leaves the array, and the root is what `minq_pop` removes. -/

namespace SelectiveRepeat

open BinaryHeap Runs

section

variable {α : Type}

theorem parent_shape : Shape parent := by
  refine ⟨fun {position} positive => ?_⟩
  rw [parent, Nat.shiftRight_eq_div_pow]
  omega

theorem parent_eq_iff (child position : Nat) :
    parent child = position ↔ child = lchild position ∨ child = lchild position + 1 := by
  rw [parent, lchild, Nat.shiftRight_eq_div_pow, Nat.shiftLeft_eq]
  omega

/-- The used slots hold these items in order, but for the slots that are left out. -/
structure Minqueue.HoldsBut (q : Minqueue α) (cmp : α → α → Bool) (items : List α)
    (out : Nat → Prop) : Prop where
  cmp : q.cmp = cmp
  size : q.size = items.length
  alloc : q.size ≤ q.alloc
  slots : ∀ i < q.size, ¬out i → q.e i = items[i]?

abbrev Minqueue.Holds (q : Minqueue α) (cmp : α → α → Bool) (items : List α) : Prop :=
  q.HoldsBut cmp items fun _ => False

/-- The slots hold a heap of these items. -/
structure Minqueue.HoldsHeap (q : Minqueue α) (cmp : α → α → Bool) (items : List α) : Prop where
  holds : q.Holds cmp items
  ordered : Ordered parent cmp items

variable {cmp : α → α → Bool} {q : Minqueue α} {items : List α} {out : Nat → Prop} {i : Nat}
  {v x : α}

theorem Minqueue.HoldsBut.load (holds : q.HoldsBut cmp items out) (bound : i < items.length)
    (kept : ¬out i) : ∃ item, q.load i = some item ∧ items[i]? = some item := by
  have used : i < q.size := by rw [holds.size]; exact bound
  refine ⟨items[i], ?_, List.getElem?_eq_getElem bound⟩
  rw [Minqueue.load, if_pos (Nat.lt_of_lt_of_le used holds.alloc), holds.slots i used kept,
    List.getElem?_eq_getElem bound]

theorem Minqueue.HoldsBut.store (holds : q.HoldsBut cmp items out) (bound : i < items.length)
    (v : α) : ∃ q', q.store i v = some q' ∧
      q'.HoldsBut cmp (items.set i v) fun j => out j ∧ j ≠ i := by
  have allocated : i < q.alloc := by
    have := holds.size
    have := holds.alloc
    omega
  refine ⟨_, if_pos allocated, holds.cmp, ?_, holds.alloc, ?_⟩
  · rw [List.length_set]
    exact holds.size
  · intro j used kept
    by_cases here : j = i
    · subst here
      rw [List.getElem?_set_self bound]
      exact Function.update_self ..
    · rw [List.getElem?_set_ne (Ne.symm here)]
      refine (Function.update_of_ne here ..).trans (holds.slots j used ?_)
      exact fun left => kept ⟨left, here⟩

theorem Minqueue.HoldsBut.weaken {out' : Nat → Prop} (holds : q.HoldsBut cmp items out)
    (fewer : ∀ j, out j → out' j) : q.HoldsBut cmp items out' :=
  ⟨holds.cmp, holds.size, holds.alloc, fun j used kept =>
    holds.slots j used fun left => kept (fewer j left)⟩

theorem pushLoop_spec (comparison : Comparison cmp) (fuel : Nat)
    (holds : q.HoldsBut cmp items (· = i)) (bound : i < items.length)
    (rise : Rise parent cmp items i v) (enough : i < fuel) :
    ∃ q' items' i', Minqueue.pushLoop v fuel q i = some (q', i') ∧ i' < items'.length ∧
      q'.HoldsBut cmp items' (· = i') ∧ Ordered parent cmp (items'.set i' v) ∧
      (items'.set i' v).Perm (items.set i v) := by
  induction fuel generalizing q items i with
  | zero => omega
  | succ fuel ih =>
      by_cases root : i = 0
      · have stopped := rise.finish parent_shape fun positive => absurd root (Nat.ne_of_gt positive)
        exact ⟨q, items, i, if_pos root, bound, holds, stopped, List.Perm.refl _⟩
      · have positive : 0 < i := Nat.pos_of_ne_zero root
        have upwards : parent i < i := parent_shape.parent_lt positive
        obtain ⟨above, loaded, upper⟩ := holds.load (i := parent i) (by omega) (by omega)
        simp only [Minqueue.pushLoop, if_neg root, loaded, Option.bind_eq_bind, Option.bind_some,
          holds.cmp]
        cases later : cmp above v with
        | false =>
            refine ⟨q, items, i, rfl, bound, holds, rise.finish parent_shape fun _ y found => ?_,
              List.Perm.refl _⟩
            rwa [← Option.some.inj (upper.symm.trans found)]
        | true =>
            obtain ⟨q', stored, filled⟩ := holds.store bound above
            have moved := rise.move comparison parent_shape positive upper later
            have next : q'.HoldsBut cmp (items.set i above) (· = parent i) :=
              filled.weaken fun j left => absurd left.1 left.2
            obtain ⟨last, items', i', result, inside, holds', ordered, perm⟩ :=
              ih next (by rw [List.length_set]; omega) moved (by omega)
            refine ⟨last, items', i', ?_, inside, holds', ordered, perm.trans ?_⟩
            · simp only [stored, Option.bind_some, if_true]
              exact result
            · exact move_perm bound (by omega) upper

theorem push_holdsHeap (comparison : Comparison cmp) (heap : q.HoldsHeap cmp items) (v : α)
    (room : Bool) : (room = false ∧ q.push v room = some (-1, q)) ∨
      ∃ q' items', q.push v room = some (0, q') ∧ q'.HoldsHeap cmp items' ∧
        items'.Perm (v :: items) := by
  obtain ⟨holds, ordered⟩ := heap
  by_cases full : q.size = q.alloc ∧ room = false
  · exact Or.inl ⟨full.2, if_pos full⟩
  · refine Or.inr ?_
    simp only [Minqueue.push, if_neg full]
    generalize grown : (if q.size = q.alloc then { q with alloc := q.size + slotsPerMalloc } else q) =
      larger
    have same : larger.cmp = q.cmp ∧ larger.size = q.size ∧ larger.e = q.e := by
      rw [← grown]
      split <;> exact ⟨rfl, rfl, rfl⟩
    have larger_alloc : q.size + 1 ≤ larger.alloc := by
      have := holds.alloc
      rw [← grown]
      split
      · exact Nat.add_le_add_left (by decide) q.size
      · omega
    have start : Minqueue.HoldsBut { larger with size := larger.size + 1 } cmp (items ++ [v])
        (· = items.length) := by
      refine ⟨same.1.trans holds.cmp, ?_, ?_, ?_⟩
      · rw [List.length_append, ← holds.size, ← same.2.1]
        rfl
      · show larger.size + 1 ≤ larger.alloc
        rw [same.2.1]
        exact larger_alloc
      · intro j used kept
        have used : j < larger.size + 1 := used
        rw [same.2.1, holds.size] at used
        rw [List.getElem?_append_left (by omega), ← holds.slots j (by rw [holds.size]; omega) id]
        exact congrFun same.2.2 j
    obtain ⟨q', items', i', result, inside, holds', ordered', perm⟩ := pushLoop_spec comparison
      (larger.size + 1) start (by simp) (ordered.append parent_shape v)
      (by rw [same.2.1, holds.size]; omega)
    obtain ⟨last, stored, filled⟩ := holds'.store inside v
    refine ⟨last, items'.set i' v, ?_, ⟨?_, ordered'⟩, perm.trans ?_⟩
    · rw [← holds.size, ← same.2.1] at result
      simp only [result, Option.bind_eq_bind, Option.bind_some, stored]
    · exact filled.weaken fun j left => left.2 left.1
    · rw [List.set_append_right _ _ (Nat.le_refl _), Nat.sub_self]
      exact List.perm_append_singleton v items

theorem hasChild_spec (comparison : Comparison cmp) (holds : q.Holds cmp items)
    (found : ∀ y, items[i]? = some y → y = x) :
    ∃ child, q.hasChild i = some child ∧
      (child = 0 ∧ Children parent items i (fun y => cmp x y = false) ∨
        0 < child ∧ parent child = i ∧ ∃ y, items[child]? = some y ∧
          Children parent items i fun other => cmp y other = false) := by
  have size := holds.size
  by_cases leaf : lchild i ≥ q.size
  · refine ⟨0, if_pos leaf, Or.inl ⟨rfl, ?_⟩⟩
    intro child y _ below inside
    have bound := (List.getElem?_eq_some_iff.mp inside).choose
    have place := (parent_eq_iff child i).mp below
    omega
  · obtain ⟨atLeft, loadedLeft, left⟩ := holds.load (i := lchild i) (by omega) id
    have leftLeast : cmp atLeft atLeft = false := comparison.irrefl atLeft
    have chosen : ∃ child y, q.hasChild i = some child ∧
        (child = lchild i ∨ child = lchild i + 1) ∧ items[child]? = some y ∧
        Children parent items i fun other => cmp y other = false := by
      by_cases two : lchild i + 1 < q.size
      · obtain ⟨atRight, loadedRight, right⟩ := holds.load (i := lchild i + 1) (by omega) id
        have either : ∀ y, cmp y atLeft = false → cmp y atRight = false →
            Children parent items i fun other => cmp y other = false := by
          intro y overLeft overRight child z _ below inside
          rcases (parent_eq_iff child i).mp below with rfl | rfl
          · rwa [← Option.some.inj (left.symm.trans inside)]
          · rwa [← Option.some.inj (right.symm.trans inside)]
        simp only [Minqueue.hasChild, if_neg leaf, if_pos two, loadedLeft, loadedRight,
          Option.bind_eq_bind, Option.bind_some, holds.cmp]
        cases later : cmp atLeft atRight with
        | false => exact ⟨lchild i, atLeft, rfl, Or.inl rfl, left, either atLeft leftLeast later⟩
        | true =>
            exact ⟨lchild i + 1, atRight, rfl, Or.inr rfl, right,
              either atRight (comparison.asymm later) (comparison.irrefl atRight)⟩
      · refine ⟨lchild i, atLeft, ?_, Or.inl rfl, left, ?_⟩
        · simp only [Minqueue.hasChild, if_neg leaf, if_neg two]
        · intro child z _ below inside
          have bound := (List.getElem?_eq_some_iff.mp inside).choose
          rcases (parent_eq_iff child i).mp below with rfl | rfl
          · rwa [← Option.some.inj (left.symm.trans inside)]
          · omega
    obtain ⟨child, y, result, place, inside, least⟩ := chosen
    refine ⟨child, result, ?_⟩
    by_cases root : child = 0
    · -- the root counts as its own left child
      subst root
      have here : i = 0 := by
        rw [lchild, Nat.shiftLeft_eq] at place
        omega
      subst here
      rw [← found y inside]
      exact Or.inl ⟨rfl, least⟩
    · exact Or.inr ⟨Nat.pos_of_ne_zero root, (parent_eq_iff child i).mpr place, y, inside, least⟩

theorem children_of_set {holds : α → Prop} (children : Children parent (items.set i v) i holds) :
    Children parent items i holds := by
  intro child y positive below inside
  have further := parent_shape.parent_lt positive
  refine children child y positive below ?_
  rwa [List.getElem?_set_ne (by omega)]

theorem popLoop_spec (comparison : Comparison cmp) (fuel : Nat)
    (holds : q.Holds cmp (items.set i v)) (inside : i < items.length ∨ items = [] ∧ i = 0)
    (sink : Sink parent cmp items i v) (enough : items.length < fuel + i) :
    ∃ q' items', q.popLoop fuel i = some q' ∧ q'.HoldsHeap cmp items' ∧
      items'.Perm (items.set i v) := by
  induction fuel generalizing q items i with
  | zero =>
      rcases inside with bound | ⟨rfl, rfl⟩
      · omega
      · exact absurd enough (Nat.lt_irrefl 0)
  | succ fuel ih =>
      obtain ⟨child, chosen, least⟩ := hasChild_spec comparison holds
        (fun y found => (get_of_set_self found).symm)
      simp only [Minqueue.popLoop, chosen, Option.bind_eq_bind, Option.bind_some]
      rcases least with ⟨rfl, below⟩ | ⟨positive, below, y, lower, least⟩
      · exact ⟨q, _, rfl, ⟨holds, sink.finish parent_shape (children_of_set below)⟩, List.Perm.refl _⟩
      · have downwards : i < child := below ▸ parent_shape.parent_lt positive
        have childBound := (List.getElem?_eq_some_iff.mp lower).choose
        have bound : i < (items.set i v).length := by omega
        obtain ⟨tmp, loaded, here⟩ := holds.load bound id
        obtain ⟨under, loadedChild, there⟩ := holds.load childBound id
        obtain rfl := Option.some.inj (lower.symm.trans there)
        obtain rfl := get_of_set_self here
        simp only [if_neg (Nat.ne_of_gt positive), loaded, loadedChild, Option.bind_some, holds.cmp]
        have lower := get_of_set_ne (Nat.ne_of_gt downwards) lower
        cases later : cmp v y with
        | false =>
            refine ⟨q, _, rfl, ⟨holds, sink.finish parent_shape ?_⟩, List.Perm.refl _⟩
            intro other z otherPositive same found
            exact comparison.trans later (children_of_set least other z otherPositive same found)
        | true =>
            obtain ⟨first, stored, filled⟩ := holds.store bound y
            rw [List.set_set] at filled
            rw [List.length_set] at bound childBound
            obtain ⟨second, storedChild, whole⟩ := filled.store (i := child)
              (by rwa [List.length_set]) v
            have moved := sink.move comparison parent_shape positive below lower
              (children_of_set least) later
            obtain ⟨last, items', result, heap, perm⟩ := ih
              (whole.weaken fun j left => left.1.1) (Or.inl (by rwa [List.length_set])) moved
              (by rw [List.length_set]; omega)
            refine ⟨last, items', ?_, heap, perm.trans (move_perm bound (by omega) lower)⟩
            simp only [if_true, stored, Option.bind_some, storedChild]
            exact result

theorem dropLast_set_perm {first : α} {rest : List α} {last : α}
    (ends : (first :: rest).getLast? = some last) :
    ((first :: rest).dropLast.set 0 last).Perm rest := by
  rcases List.eq_nil_or_concat' rest with rfl | ⟨middle, end', rfl⟩
  · exact List.Perm.refl _
  · rw [← List.cons_append, List.getLast?_concat] at ends
    obtain rfl := Option.some.inj ends
    rw [← List.cons_append, List.dropLast_concat]
    exact (List.perm_append_singleton end' middle).symm

theorem pop_holdsHeap (comparison : Comparison cmp) {first : α} {rest : List α}
    (heap : q.HoldsHeap cmp (first :: rest)) :
    ∃ q' items', q.pop = some q' ∧ q'.HoldsHeap cmp items' ∧ items'.Perm rest := by
  obtain ⟨holds, ordered⟩ := heap
  have size : q.size = rest.length + 1 := holds.size
  have nonempty : ¬q.empty = true := by simp [Minqueue.empty, size]
  obtain ⟨last, loaded, ends⟩ := holds.load (i := rest.length) (Nat.lt_succ_self _) id
  have ends : (first :: rest).getLast? = some last := by
    rw [List.getLast?_eq_getElem?]
    exact ends
  have allocated : 0 < q.alloc := by
    have := holds.alloc
    omega
  have start : Minqueue.Holds
      { q with size := rest.length, e := Function.update q.e 0 (some last) } cmp
      ((first :: rest).dropLast.set 0 last) := by
    refine ⟨holds.cmp, by simp, Nat.le_trans (Nat.le_succ rest.length) (size.symm.le.trans holds.alloc), ?_⟩
    intro j used _
    have used : j < rest.length := used
    by_cases root : j = 0
    · subst root
      rw [List.getElem?_set_self (by simpa using used)]
      exact Function.update_self (0 : Nat) (some last) q.e
    · rw [List.getElem?_set_ne (Ne.symm root), List.getElem?_dropLast,
        if_pos (by simpa using used), ← holds.slots j (by omega) id]
      exact Function.update_of_ne root (some last) q.e
  have place : 0 < (first :: rest).dropLast.length ∨ (first :: rest).dropLast = [] ∧ 0 = 0 := by
    cases rest with
    | nil => exact Or.inr ⟨rfl, rfl⟩
    | cons second others => exact Or.inl (Nat.succ_pos _)
  obtain ⟨q', items', result, heap', perm⟩ := popLoop_spec comparison (rest.length + 1)
    start place (ordered.dropLast last) (by simp)
  refine ⟨q', items', ?_, heap', perm.trans (dropLast_set_perm ends)⟩
  have smaller : Minqueue.load { q with size := rest.length } rest.length = some last := loaded
  simp only [Minqueue.pop, if_neg nonempty, size, Nat.add_sub_cancel, smaller, Option.bind_eq_bind,
    Option.bind_some, Minqueue.store, if_pos allocated]
  exact result

theorem peek_holdsHeap (heap : q.HoldsHeap cmp items) : q.peek = some items.head? := by
  have size := heap.holds.size
  cases items with
  | nil => exact if_pos (by simp [Minqueue.empty, size])
  | cons first rest =>
      obtain ⟨item, loaded, found⟩ := heap.holds.load (i := 0) (Nat.succ_pos _) id
      have nonempty : ¬q.empty = true := by simp [Minqueue.empty, size]
      rw [Minqueue.peek, if_neg nonempty, loaded]
      exact congrArg some found.symm

theorem pop_empty (heap : q.HoldsHeap cmp []) : q.pop = some q := by
  have size := heap.holds.size
  exact if_pos (by simp [Minqueue.empty, size])

/-! Calls and replies. -/

/-- A call; `room` is what `realloc` answers. -/
inductive MinqCall (α : Type) where
  | push (v : α) (room : Bool)
  | pop
  | peek
  | empty

inductive MinqReply (α : Type) where
  | pushed (code : Int)
  | popped
  | peeked (v : Option α)
  | checked (isEmpty : Bool)

def Minqueue.call (q : Minqueue α) : MinqCall α → Option (MinqReply α × Minqueue α)
  | .push v room => (q.push v room).map (Prod.map MinqReply.pushed id)
  | .pop => q.pop.map fun q' => (MinqReply.popped, q')
  | .peek => q.peek.map fun v => (MinqReply.peeked v, q)
  | .empty => some (MinqReply.checked q.empty, q)

/-- `none` after a call that left the array or did not end. -/
def minqStep (state : Option (Minqueue α)) (call : MinqCall α) : Option (Minqueue α) :=
  (state.bind (Minqueue.call · call)).map Prod.snd

def Minqueue.contents (q : Minqueue α) : Multiset α := ((List.range q.size).filterMap q.e : List α)

/-- What the comments of `min_queue.h` promise of a call. -/
def MinqCall.Meets (before after : Minqueue α) (reply : MinqReply α) : MinqCall α → Prop
  | .push v room =>
      reply = .pushed 0 ∧ after.contents = v ::ₘ before.contents ∨
        room = false ∧ reply = .pushed (-1) ∧ after = before
  | .pop => reply = .popped ∧ (before.contents = 0 ∧ after = before ∨
      ∃ x, before.peek = some (some x) ∧ Takes before.cmp before.contents x after.contents)
  | .peek => after = before ∧ (before.contents = 0 ∧ reply = .peeked none ∨
      ∃ x rest, Takes before.cmp before.contents x rest ∧ reply = .peeked (some x))
  | .empty => after = before ∧
      ∃ isEmpty, reply = .checked isEmpty ∧ (isEmpty = true ↔ before.contents = 0)

theorem filterMap_range (items : List α) :
    (List.range items.length).filterMap (items[·]?) = items := by
  induction items with
  | nil => rfl
  | cons item rest ih => simpa [List.range_succ_eq_map, List.filterMap_map] using ih

theorem Minqueue.HoldsBut.contents (holds : q.Holds cmp items) : q.contents = items := by
  have same : (List.range q.size).filterMap q.e = (List.range q.size).filterMap (items[·]?) :=
    List.filterMap_congr fun i member => holds.slots i (List.mem_range.mp member) id
  rw [Minqueue.contents, same, holds.size, filterMap_range]

theorem minqNew_holdsHeap (cmp : α → α → Bool) : (minqNew cmp).HoldsHeap cmp [] :=
  ⟨⟨rfl, rfl, Nat.zero_le _, fun _ _ _ => rfl⟩, fun _ _ _ _ _ _ found => by simp at found⟩

theorem first_takes (comparison : Comparison cmp) {first : α} {rest : List α}
    (ordered : Ordered parent cmp (first :: rest)) :
    Takes cmp (first :: rest : List α) first rest :=
  ⟨rfl, fun y member => ordered.first_least comparison parent_shape rfl y
    (List.mem_cons_of_mem first member)⟩

theorem call_meets (comparison : Comparison cmp) (heap : q.HoldsHeap cmp items)
    (call : MinqCall α) : ∃ reply q' items', q.call call = some (reply, q') ∧
      q'.HoldsHeap cmp items' ∧ call.Meets q q' reply := by
  have whole := heap.holds.contents
  cases call with
  | push v room =>
      rcases push_holdsHeap comparison heap v room with ⟨full, failed⟩ | ⟨q', items', done, heap', perm⟩
      · exact ⟨.pushed (-1), q, items, by rw [Minqueue.call, failed]; rfl, heap,
          Or.inr ⟨full, rfl, rfl⟩⟩
      · refine ⟨.pushed 0, q', items', by rw [Minqueue.call, done]; rfl, heap', Or.inl ⟨rfl, ?_⟩⟩
        rw [heap'.holds.contents, whole]
        exact Multiset.coe_eq_coe.mpr perm
  | pop =>
      cases items with
      | nil =>
          exact ⟨.popped, q, [], by rw [Minqueue.call, pop_empty heap]; rfl, heap, rfl,
            Or.inl ⟨whole, rfl⟩⟩
      | cons first rest =>
          obtain ⟨q', items', done, heap', perm⟩ := pop_holdsHeap comparison heap
          refine ⟨.popped, q', items', by rw [Minqueue.call, done]; rfl, heap', rfl,
            Or.inr ⟨first, peek_holdsHeap heap, ?_⟩⟩
          rw [heap.holds.cmp, whole, heap'.holds.contents, Multiset.coe_eq_coe.mpr perm]
          exact first_takes comparison heap.ordered
  | peek =>
      refine ⟨.peeked items.head?, q, items, by rw [Minqueue.call, peek_holdsHeap heap]; rfl, heap,
        rfl, ?_⟩
      cases items with
      | nil => exact Or.inl ⟨whole, rfl⟩
      | cons first rest =>
          refine Or.inr ⟨first, rest, ?_, rfl⟩
          rw [heap.holds.cmp, whole]
          exact first_takes comparison heap.ordered
  | empty =>
      refine ⟨.checked q.empty, q, items, rfl, heap, rfl, q.empty, rfl, ?_⟩
      rw [whole, Multiset.coe_eq_zero, Minqueue.empty, heap.holds.size, beq_iff_eq,
        List.length_eq_zero_iff]

abbrev MinqReachable (cmp : α → α → Bool) : Option (Minqueue α) → Prop :=
  Runs.Reachable minqStep (fun _ _ => True) (some (minqNew cmp))

theorem minqReachable_holdsHeap (comparison : Comparison cmp) {state : Option (Minqueue α)}
    (reached : MinqReachable cmp state) : ∃ q items, state = some q ∧ q.HoldsHeap cmp items := by
  refine Reachable.invariant (fun state => ∃ q items, state = some q ∧ q.HoldsHeap cmp items)
    ⟨_, [], rfl, minqNew_holdsHeap cmp⟩ ?_ reached
  rintro _ call ⟨q, items, rfl, heap⟩ _
  obtain ⟨reply, q', items', done, heap', _⟩ := call_meets comparison heap call
  refine ⟨q', items', ?_, heap'⟩
  rw [minqStep, Option.bind_some, done]
  rfl

/-- The queue is inside its array, and the next call ends, touches only written slots, and does what
the header promises. -/
structure Minqueue.Works (q : Minqueue α) (cmp : α → α → Bool) : Prop where
  cmp : q.cmp = cmp
  alloc : q.size ≤ q.alloc
  contents : q.contents.card = q.size
  calls : ∀ call, ∃ reply after, q.call call = some (reply, after) ∧ call.Meets q after reply

theorem minq_priority_queue (comparison : Comparison cmp) {state : Option (Minqueue α)}
    (reached : MinqReachable cmp state) : ∃ q, state = some q ∧ q.Works cmp := by
  obtain ⟨q, items, rfl, heap⟩ := minqReachable_holdsHeap comparison reached
  refine ⟨q, rfl, heap.holds.cmp, heap.holds.alloc, ?_, fun call => ?_⟩
  · rw [heap.holds.contents, heap.holds.size]
    rfl
  · obtain ⟨reply, q', _, done, _, meets⟩ := call_meets comparison heap call
    exact ⟨reply, q', done, meets⟩

end

/-! Calls on a queue of numbers. -/

def natLater (a b : Nat) : Bool := a > b

theorem natLater_comparison : Comparison natLater := by
  constructor <;> simp only [natLater, decide_eq_true_eq, decide_eq_false_iff_not] <;> omega

def threeCalls : List (MinqCall Nat) := [.push 3 true, .push 1 true, .pop]

theorem minq_priority_queue_three :
    ∃ q, threeCalls.foldl minqStep (some (minqNew natLater)) = some q ∧ q.Works natLater :=
  minq_priority_queue natLater_comparison
    (reachable_along ⟨trivial, trivial, trivial, trivial⟩)

end SelectiveRepeat
