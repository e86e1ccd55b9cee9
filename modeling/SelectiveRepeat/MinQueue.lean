import Mathlib.Logic.Function.Basic

/-! The priority queue of the link simulator, `min_queue.c`: a heap in an array of slots. A read
of a slot that was never written, an access outside the allocated slots, and a loop that does not
end give `none`. The queue is not a null pointer, and `malloc` succeeds in `minq_new`. -/

namespace SelectiveRepeat

abbrev slotsPerMalloc : Nat := 20

def lchild (x : Nat) : Nat := x <<< 1

def parent (x : Nat) : Nat := x >>> 1

/-- `minqueue_t`: `e` is the array, `none` where a slot was never written. -/
structure Minqueue (α : Type) where
  cmp : α → α → Bool
  size : Nat
  alloc : Nat
  e : Nat → Option α

section

variable {α : Type}

def minqNew (cmp : α → α → Bool) : Minqueue α := ⟨cmp, 0, slotsPerMalloc, fun _ => none⟩

namespace Minqueue

def load (q : Minqueue α) (i : Nat) : Option α := if i < q.alloc then q.e i else none

def store (q : Minqueue α) (i : Nat) (v : α) : Option (Minqueue α) :=
  if i < q.alloc then some { q with e := Function.update q.e i (some v) } else none

/-- The loop of `minq_push`, for at most `fuel` turns: the queue and the insertion point. -/
def pushLoop (v : α) : Nat → Minqueue α → Nat → Option (Minqueue α × Nat)
  | 0, _, _ => none
  | fuel + 1, q, i =>
      if i = 0 then some (q, i)
      else do
        let above ← q.load (parent i)
        if q.cmp above v then
          let q ← q.store i above
          pushLoop v fuel q (parent i)
        else some (q, i)

/-- `minq_push`; `room` tells whether `realloc` succeeds if it is called. -/
def push (q : Minqueue α) (v : α) (room : Bool) : Option (Int × Minqueue α) :=
  if q.size = q.alloc ∧ room = false then some (-1, q)
  else do
    let q := if q.size = q.alloc then { q with alloc := q.size + slotsPerMalloc } else q
    let i := q.size
    let q := { q with size := q.size + 1 }
    let (q, i) ← pushLoop v (i + 1) q i
    let q ← q.store i v
    some (0, q)

/-- `has_child`: the smallest child, 0 if there is none. -/
def hasChild (q : Minqueue α) (i : Nat) : Option Nat :=
  let left := lchild i
  if left ≥ q.size then some 0
  else
    let right := left + 1
    if right < q.size then do
      let atLeft ← q.load left
      let atRight ← q.load right
      some (if q.cmp atLeft atRight then right else left)
    else some left

/-- The loop of `minq_pop`, for at most `fuel` turns. -/
def popLoop : Nat → Minqueue α → Nat → Option (Minqueue α)
  | 0, _, _ => none
  | fuel + 1, q, current => do
      let minChild ← q.hasChild current
      if minChild = 0 then some q
      else
        let tmp ← q.load current
        let below ← q.load minChild
        if q.cmp tmp below then
          let q ← q.store current below
          let q ← q.store minChild tmp
          popLoop fuel q minChild
        else some q

def empty (q : Minqueue α) : Bool := q.size == 0

def pop (q : Minqueue α) : Option (Minqueue α) :=
  if q.empty then some q
  else do
    let q := { q with size := q.size - 1 }
    let last ← q.load q.size
    let q ← q.store 0 last
    popLoop (q.size + 1) q 0

/-- `minq_peek`: the inner `none` is its null pointer. -/
def peek (q : Minqueue α) : Option (Option α) :=
  if q.empty then some none else (q.load 0).map some

end Minqueue

end

end SelectiveRepeat
