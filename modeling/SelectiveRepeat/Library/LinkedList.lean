import Mathlib.Data.List.Nodup
import Mathlib.Logic.Function.Basic

/-! Singly linked lists in a heap of cells. A segment is the chain of cells between two
pointers; the lemmas say what taking, linking and freeing a cell do to it. -/

namespace LinkedList

structure Cell (α : Type) where
  item : α
  next : Option Nat

/-- The cell at each address, `none` where no cell is allocated. -/
abbrev Heap (α : Type) := Nat → Option (Cell α)

section

variable {α : Type}

def Heap.set (heap : Heap α) (address : Nat) (cell : Cell α) : Heap α :=
  Function.update heap address (some cell)

def Heap.free (heap : Heap α) (address : Nat) : Heap α := Function.update heap address none

@[simp] theorem Heap.set_same (heap : Heap α) (address : Nat) (cell : Cell α) :
    heap.set address cell address = some cell := Function.update_self ..

theorem Heap.set_other (heap : Heap α) {address other : Nat} (differs : other ≠ address)
    (cell : Cell α) : heap.set address cell other = heap other :=
  Function.update_of_ne differs ..

theorem Heap.set_set (heap : Heap α) (address : Nat) (cell later : Cell α) :
    (heap.set address cell).set address later = heap.set address later :=
  Function.update_idem ..

@[simp] theorem Heap.free_same (heap : Heap α) (address : Nat) : heap.free address address = none :=
  Function.update_self ..

theorem Heap.free_other (heap : Heap α) {address other : Nat} (differs : other ≠ address) :
    heap.free address other = heap other := Function.update_of_ne differs ..

theorem Heap.free_set {heap : Heap α} {address : Nat} (fresh : heap address = none) (cell : Cell α) :
    (heap.set address cell).free address = heap := by
  funext other
  by_cases same : other = address
  · rw [same, Heap.free_same, fresh]
  · rw [Heap.free_other _ same, Heap.set_other _ same]

/-- From the pointer `start` the cells with these addresses and items lead to the pointer `stop`. -/
def Segment (heap : Heap α) : Option Nat → List (Nat × α) → Option Nat → Prop
  | start, [], stop => start = stop
  | start, node :: rest, stop =>
      start = some node.1 ∧ ∃ next, heap node.1 = some ⟨node.2, next⟩ ∧ Segment heap next rest stop

variable {heap after : Heap α} {start middle stop : Option Nat} {nodes first second : List (Nat × α)}

theorem Segment.frame (segment : Segment heap start nodes stop)
    (same : ∀ node ∈ nodes, after node.1 = heap node.1) : Segment after start nodes stop := by
  induction nodes generalizing start with
  | nil => exact segment
  | cons node rest ih =>
      obtain ⟨begins, next, cell, later⟩ := segment
      obtain ⟨here, sameRest⟩ := List.forall_mem_cons.mp same
      exact ⟨begins, next, here.trans cell, ih later sameRest⟩

theorem segment_append_iff :
    Segment heap start (first ++ second) stop ↔
      ∃ middle, Segment heap start first middle ∧ Segment heap middle second stop := by
  induction first generalizing start with
  | nil => simp [Segment]
  | cons node rest ih =>
      simp only [List.cons_append, Segment, ih]
      constructor
      · rintro ⟨begins, next, cell, middle, early, late⟩
        exact ⟨middle, ⟨begins, next, cell, early⟩, late⟩
      · rintro ⟨middle, ⟨begins, next, cell, early⟩, late⟩
        exact ⟨begins, next, cell, middle, early, late⟩

theorem Segment.allocated (segment : Segment heap start nodes stop) {node : Nat × α}
    (member : node ∈ nodes) : ∃ next, heap node.1 = some ⟨node.2, next⟩ := by
  obtain ⟨early, late, rfl⟩ := List.append_of_mem member
  obtain ⟨_, _, _, next, cell, _⟩ := segment_append_iff.mp segment
  exact ⟨next, cell⟩

theorem Segment.ne_of_fresh (segment : Segment heap start nodes stop) {address : Nat}
    (fresh : heap address = none) {node : Nat × α} (member : node ∈ nodes) : node.1 ≠ address := by
  obtain ⟨next, cell⟩ := segment.allocated member
  rintro rfl
  rw [fresh] at cell
  exact absurd cell (by simp)

theorem Segment.unique (one : Segment heap start first none) (other : Segment heap start second none) :
    first = second := by
  induction first generalizing start second with
  | nil =>
      cases second with
      | nil => rfl
      | cons node rest => exact absurd (one.symm.trans other.1) (by simp)
  | cons node rest ih =>
      obtain ⟨begins, next, cell, later⟩ := one
      cases second with
      | nil => exact absurd (other.symm.trans begins) (by simp)
      | cons node' rest' =>
          obtain ⟨begins', next', cell', later'⟩ := other
          have address : node.1 = node'.1 := Option.some.inj (begins.symm.trans begins')
          rw [address, cell', Option.some.injEq, Cell.mk.injEq] at cell
          obtain ⟨item, rfl⟩ := cell
          rw [ih later later', Prod.ext address item.symm]

theorem Segment.nodup (segment : Segment heap start nodes none) : (nodes.map Prod.fst).Nodup := by
  induction nodes generalizing start with
  | nil => exact List.nodup_nil
  | cons node rest ih =>
      obtain ⟨begins, next, cell, later⟩ := id segment
      rw [List.map_cons, List.nodup_cons]
      refine ⟨fun again => ?_, ih later⟩
      obtain ⟨copy, member, address⟩ := List.mem_map.mp again
      obtain ⟨early, late, rfl⟩ := List.append_of_mem member
      obtain ⟨_, _, behind⟩ := segment_append_iff.mp later
      have sameStart : Segment heap start (copy :: late) none :=
        ⟨begins.trans (by rw [address]), behind.2⟩
      have size := congrArg List.length (segment.unique sameStart)
      simp only [List.length_cons, List.length_append] at size
      omega

theorem Segment.start_eq (segment : Segment heap start nodes none) :
    start = nodes.head?.map Prod.fst := by
  cases nodes with
  | nil => exact segment
  | cons node rest => exact segment.1

/-! One cell comes or goes. -/

variable {address : Nat} {item : α}

theorem Segment.free_head {head : Nat × α} {rest : List (Nat × α)}
    (segment : Segment heap start (head :: rest) none) :
    ∃ next, heap head.1 = some ⟨head.2, next⟩ ∧ Segment (heap.free head.1) next rest none := by
  have apart := (List.nodup_cons.mp segment.nodup).1
  obtain ⟨_, next, cell, later⟩ := segment
  refine ⟨next, cell, later.frame fun node member => ?_⟩
  apply Heap.free_other
  intro same
  exact apart (same ▸ List.mem_map_of_mem member)

theorem Segment.insert_front (segment : Segment heap start nodes stop) (fresh : heap address = none) :
    Segment (heap.set address ⟨item, start⟩) (some address) ((address, item) :: nodes) stop :=
  ⟨rfl, start, Heap.set_same .., segment.frame fun _ member =>
    Heap.set_other _ (segment.ne_of_fresh fresh member) _⟩

theorem Segment.insert_behind {before behind : List (Nat × α)} {last : Nat × α}
    (segment : Segment heap start (before ++ last :: behind) none) (fresh : heap address = none)
    (linked : after last.1 = some ⟨last.2, some address⟩)
    (new : after address = some ⟨item, behind.head?.map Prod.fst⟩)
    (same : ∀ other, other ≠ last.1 → other ≠ address → after other = heap other) :
    Segment after start (before ++ last :: (address, item) :: behind) none := by
  have apart := segment.nodup
  rw [List.map_append, List.map_cons, List.nodup_middle, List.nodup_cons, ← List.map_append] at apart
  have unchanged : ∀ node ∈ before ++ behind, after node.1 = heap node.1 := by
    intro node member
    refine same _ (fun equal => apart.1 (equal ▸ List.mem_map_of_mem member)) ?_
    apply segment.ne_of_fresh fresh
    simp only [List.mem_append, List.mem_cons] at member ⊢
    tauto
  obtain ⟨sameBefore, sameBehind⟩ := List.forall_mem_append.mp unchanged
  obtain ⟨middle, early, begins, next, cell, late⟩ := segment_append_iff.mp segment
  refine segment_append_iff.mpr ⟨middle, early.frame sameBefore, begins, some address, linked, rfl,
    next, ?_, late.frame sameBehind⟩
  rw [new, ← late.start_eq]

/-! Which cells are allocated. -/

/-- The nodes are all the cells of the heap: none is lost. -/
def Owns (heap : Heap α) (nodes : List (Nat × α)) : Prop :=
  ∀ address, heap address ≠ none ↔ address ∈ nodes.map Prod.fst

theorem Heap.set_allocated (heap : Heap α) (address other : Nat) (cell : Cell α) :
    heap.set address cell other ≠ none ↔ other = address ∨ heap other ≠ none := by
  by_cases same : other = address
  · simp [same]
  · rw [Heap.set_other _ same]
    exact (or_iff_right same).symm

theorem Heap.write_allocated {heap : Heap α} {address : Nat} {old : Cell α}
    (allocated : heap address = some old) (cell : Cell α) (other : Nat) :
    heap.set address cell other ≠ none ↔ heap other ≠ none := by
  rw [Heap.set_allocated, or_iff_right_of_imp]
  rintro rfl
  simp [allocated]

theorem Owns.add (owns : Owns heap nodes) (order : second.Perm ((address, item) :: nodes))
    (grown : ∀ other, after other ≠ none ↔ other = address ∨ heap other ≠ none) :
    Owns after second := by
  intro other
  rw [grown, owns other, (order.map Prod.fst).mem_iff, List.map_cons, List.mem_cons]

theorem Owns.free {head : Nat × α} {rest : List (Nat × α)} (owns : Owns heap (head :: rest))
    (distinct : ((head :: rest).map Prod.fst).Nodup) : Owns (heap.free head.1) rest := by
  intro other
  have apart := (List.nodup_cons.mp distinct).1
  by_cases same : other = head.1
  · rw [same, Heap.free_same]
    exact iff_of_false (· rfl) apart
  · rw [Heap.free_other _ same, owns other, List.map_cons, List.mem_cons]
    exact or_iff_right same

theorem Owns.empty (owns : Owns heap []) : heap = fun _ => none := by
  funext address
  exact Classical.not_not.mp fun allocated => nomatch (owns address).mp allocated

end

end LinkedList
