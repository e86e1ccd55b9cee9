import Mathlib.Data.Multiset.AddSub

/-! Heaps in a list: each position but the first has a parent before it, and no item comes
before the item of its parent. An insertion lets a hole rise, a removal lets one sink. Any shape
of tree will do. -/

namespace BinaryHeap

section

variable {α : Type}

/-- `gt` tells which items belong behind which; items of which neither does are level. -/
structure Comparison (gt : α → α → Bool) : Prop where
  asymm : ∀ {x y}, gt x y = true → gt y x = false
  trans : ∀ {x y z}, gt x y = false → gt y z = false → gt x z = false

structure Shape (parent : Nat → Nat) : Prop where
  parent_lt : ∀ {position}, 0 < position → parent position < position

variable {gt : α → α → Bool}

theorem Comparison.irrefl (comparison : Comparison gt) (x : α) : gt x x = false := by
  cases later : gt x x with
  | false => rfl
  | true => exact later ▸ comparison.asymm later

theorem Comparison.trans_gt (comparison : Comparison gt) {x y z : α} (later : gt x y = true)
    (atMost : gt x z = false) : gt y z = false :=
  comparison.trans (comparison.asymm later) atMost

/-- The items of a parent and of its child are in order, wherever the child satisfies `at`. -/
def OrderedWhere (parent : Nat → Nat) (gt : α → α → Bool) (here : Nat → Prop) (items : List α) :
    Prop :=
  ∀ child x y, 0 < child → here child → items[parent child]? = some x → items[child]? = some y →
    gt x y = false

def Ordered (parent : Nat → Nat) (gt : α → α → Bool) (items : List α) : Prop :=
  OrderedWhere parent gt (fun _ => True) items

def Children (parent : Nat → Nat) (items : List α) (position : Nat) (holds : α → Prop) : Prop :=
  ∀ child y, 0 < child → parent child = position → items[child]? = some y → holds y

/-- The order around a hole: the pairs apart from it, and its children with its parent. -/
structure Gap (parent : Nat → Nat) (gt : α → α → Bool) (items : List α) (hole : Nat) : Prop where
  apart : OrderedWhere parent gt (fun child => child ≠ hole ∧ parent child ≠ hole) items
  across : 0 < hole → ∀ x, items[parent hole]? = some x →
    Children parent items hole fun y => gt x y = false

structure Rise (parent : Nat → Nat) (gt : α → α → Bool) (items : List α) (hole : Nat) (item : α) :
    Prop extends Gap parent gt items hole where
  below : Children parent items hole fun y => gt item y = false

structure Sink (parent : Nat → Nat) (gt : α → α → Bool) (items : List α) (hole : Nat) (item : α) :
    Prop extends Gap parent gt items hole where
  above : 0 < hole → ∀ x, items[parent hole]? = some x → gt x item = false

variable {parent : Nat → Nat} {items : List α} {hole child : Nat} {item x y : α}

theorem get_of_set_ne {position : Nat} (differs : position ≠ hole)
    (found : (items.set hole x)[position]? = some y) : items[position]? = some y := by
  rwa [List.getElem?_set_ne (Ne.symm differs)] at found

theorem get_of_set_self (found : (items.set hole x)[hole]? = some y) : x = y := by
  rw [List.getElem?_set_self'] at found
  cases here : items[hole]? with
  | none => simp [here] at found
  | some z => simpa [here] using found

theorem Gap.fill (shape : Shape parent) (gap : Gap parent gt items hole)
    (above : 0 < hole → ∀ x, items[parent hole]? = some x → gt x item = false)
    (below : Children parent items hole fun y => gt item y = false) :
    Ordered parent gt (items.set hole item) := by
  intro child x y positive _ upper lower
  by_cases here : child = hole
  · subst here
    have apart : parent child ≠ child := Nat.ne_of_lt (shape.parent_lt positive)
    rw [← get_of_set_self lower]
    exact above positive x (get_of_set_ne apart upper)
  · have lower := get_of_set_ne here lower
    by_cases parentHere : parent child = hole
    · rw [parentHere] at upper
      rw [← get_of_set_self upper]
      exact below child y positive parentHere lower
    · exact gap.apart child x y positive ⟨here, parentHere⟩ (get_of_set_ne parentHere upper) lower

theorem Rise.finish (shape : Shape parent) (rise : Rise parent gt items hole item)
    (stopped : 0 < hole → ∀ x, items[parent hole]? = some x → gt x item = false) :
    Ordered parent gt (items.set hole item) :=
  rise.toGap.fill shape stopped rise.below

theorem Sink.finish (shape : Shape parent) (sink : Sink parent gt items hole item)
    (stopped : Children parent items hole fun y => gt item y = false) :
    Ordered parent gt (items.set hole item) :=
  sink.toGap.fill shape sink.above stopped

/-- The item of the parent, which belongs behind the new item, moves down into the hole. -/
theorem Rise.move (comparison : Comparison gt) (shape : Shape parent)
    (rise : Rise parent gt items hole item) (positive : 0 < hole)
    (upper : items[parent hole]? = some x) (later : gt x item = true) :
    Rise parent gt (items.set hole x) (parent hole) item := by
  have upwards : parent hole < hole := shape.parent_lt positive
  have siblings : ∀ child y, 0 < child → parent child = parent hole → child ≠ hole →
      items[child]? = some y → gt x y = false := by
    intro child y childPositive same differs lower
    refine rise.apart child x y childPositive ⟨differs, ?_⟩ (same ▸ upper) lower
    omega
  refine ⟨⟨?_, ?_⟩, ?_⟩
  · rintro child z y childPositive ⟨differs, away⟩ above below
    by_cases here : child = hole
    · exact absurd (congrArg parent here) away
    · have below := get_of_set_ne here below
      by_cases parentHere : parent child = hole
      · rw [parentHere] at above
        rw [← get_of_set_self above]
        exact rise.across positive x upper child y childPositive parentHere below
      · exact rise.apart child z y childPositive ⟨here, parentHere⟩
          (get_of_set_ne parentHere above) below
  · intro parentPositive z above child y childPositive same below
    have higher : parent (parent hole) < parent hole := shape.parent_lt parentPositive
    have above := get_of_set_ne (by omega) above
    have order : gt z x = false := rise.apart (parent hole) z x parentPositive
      ⟨Nat.ne_of_lt upwards, by omega⟩ above upper
    by_cases here : child = hole
    · subst here
      rwa [← get_of_set_self below]
    · exact comparison.trans order
        (siblings child y childPositive same here (get_of_set_ne here below))
  · intro child y childPositive same below
    by_cases here : child = hole
    · subst here
      rw [← get_of_set_self below]
      exact comparison.asymm later
    · exact comparison.trans_gt later
        (siblings child y childPositive same here (get_of_set_ne here below))

/-- The least child, which belongs before the item, moves up into the hole. -/
theorem Sink.move (comparison : Comparison gt) (shape : Shape parent)
    (sink : Sink parent gt items hole item) (positive : 0 < child) (below : parent child = hole)
    (lower : items[child]? = some x) (least : Children parent items hole fun y => gt x y = false)
    (later : gt item x = true) : Sink parent gt (items.set hole x) child item := by
  have downwards : hole < child := below ▸ shape.parent_lt positive
  refine ⟨⟨?_, ?_⟩, ?_⟩
  · rintro other z y otherPositive ⟨differs, away⟩ above under
    by_cases here : other = hole
    · subst here
      rw [← get_of_set_self under]
      have higher := shape.parent_lt otherPositive
      exact sink.across otherPositive z (get_of_set_ne (by omega) above) child x positive below lower
    · have under := get_of_set_ne here under
      by_cases parentHere : parent other = hole
      · rw [parentHere] at above
        rw [← get_of_set_self above]
        exact least other y otherPositive parentHere under
      · exact sink.apart other z y otherPositive ⟨here, parentHere⟩
          (get_of_set_ne parentHere above) under
  · intro _ z above other y otherPositive same under
    have further : child < other := same ▸ shape.parent_lt otherPositive
    rw [below] at above
    rw [← get_of_set_self above]
    refine sink.apart other x y otherPositive ⟨by omega, by omega⟩ ?_ (get_of_set_ne (by omega) under)
    rwa [same]
  · intro _ z above
    rw [below] at above
    rw [← get_of_set_self above]
    exact comparison.asymm later

theorem Ordered.append (shape : Shape parent) (ordered : Ordered parent gt items) (item : α) :
    Rise parent gt (items ++ [item]) items.length item := by
  have none_below : ∀ child y, 0 < child → parent child = items.length →
      (items ++ [item])[child]? = some y → False := by
    intro child y positive same found
    have bound := (List.getElem?_eq_some_iff.mp found).choose
    have further := shape.parent_lt positive
    rw [List.length_append, List.length_singleton] at bound
    omega
  refine ⟨⟨?_, ?_⟩, ?_⟩
  · rintro child x y positive ⟨differs, _⟩ above below
    have bound := (List.getElem?_eq_some_iff.mp below).choose
    have higher := shape.parent_lt positive
    rw [List.length_append, List.length_singleton] at bound
    rw [List.getElem?_append_left (by omega)] at above below
    exact ordered child x y positive trivial above below
  · intro _ _ _ child y positive same below
    exact absurd below fun found => none_below child y positive same found
  · intro child y positive same below
    exact absurd below fun found => none_below child y positive same found

theorem Ordered.dropLast (ordered : Ordered parent gt items) (item : α) :
    Sink parent gt items.dropLast 0 item := by
  have kept : ∀ (position : Nat) (y : α), items.dropLast[position]? = some y →
      items[position]? = some y := by
    intro position y found
    rw [List.getElem?_dropLast] at found
    split at found
    · exact found
    · cases found
  refine ⟨⟨?_, ?_⟩, ?_⟩
  · rintro child x y positive _ above below
    exact ordered child x y positive trivial (kept _ x above) (kept _ y below)
  · intro positive
    omega
  · intro positive
    omega

theorem Ordered.first_least (comparison : Comparison gt) (shape : Shape parent)
    (ordered : Ordered parent gt items) (first : items[0]? = some x) :
    ∀ y ∈ items, gt x y = false := by
  suffices everywhere : ∀ position y, items[position]? = some y → gt x y = false by
    intro y member
    obtain ⟨position, found⟩ := List.mem_iff_getElem?.mp member
    exact everywhere position y found
  intro position
  induction position using Nat.strongRecOn with
  | ind position ih =>
      intro y found
      by_cases root : position = 0
      · subst root
        rw [Option.some.inj (first.symm.trans found)]
        exact comparison.irrefl y
      · have positive : 0 < position := Nat.pos_of_ne_zero root
        have upwards := shape.parent_lt positive
        have bound := (List.getElem?_eq_some_iff.mp found).choose
        have above : items[parent position]? = some items[parent position] :=
          List.getElem?_eq_getElem (by omega)
        exact comparison.trans (ih (parent position) upwards _ above)
          (ordered position _ y positive trivial above found)

/-! A hole holds its item wherever it moves. -/

theorem move_perm {other : Nat} (inside : hole < items.length) (differs : hole ≠ other)
    (found : items[other]? = some x) :
    ((items.set hole x).set other item).Perm (items.set hole item) := by
  obtain ⟨bound, rfl⟩ := List.getElem?_eq_some_iff.mp found
  have holeInside : hole < (items.set hole item).length := by rwa [List.length_set]
  have otherInside : other < (items.set hole item).length := by rwa [List.length_set]
  have swapped := List.set_set_perm holeInside otherInside
  simpa [List.getElem_set_ne differs] using swapped

/-! Taking a least item, again and again. -/

def Takes (gt : α → α → Bool) (before : Multiset α) (x : α) (after : Multiset α) : Prop :=
  before = x ::ₘ after ∧ ∀ y ∈ after, gt x y = false

inductive Drains (gt : α → α → Bool) : Multiset α → List α → Multiset α → Prop
  | stop {before} : Drains gt before [] before
  | take {before between after x rest} : Takes gt before x between → Drains gt between rest after →
      Drains gt before (x :: rest) after

/-- The items come out in order, and before all that stay. -/
theorem Drains.sorted {before after : Multiset α} {taken : List α}
    (drains : Drains gt before taken after) :
    before = (taken : Multiset α) + after ∧ (taken.Pairwise fun x y => gt x y = false) ∧
      ∀ x ∈ taken, ∀ y ∈ after, gt x y = false := by
  induction drains with
  | stop => exact ⟨(Multiset.zero_add _).symm, List.Pairwise.nil, fun _ member => by simp at member⟩
  | @take before between after x rest takes _ ih =>
      obtain ⟨whole, least⟩ := takes
      obtain ⟨same, sorted, apart⟩ := ih
      have leastRest : ∀ y ∈ rest, gt x y = false := fun y member =>
        least y (same ▸ Multiset.mem_add.mpr (Or.inl (Multiset.mem_coe.mpr member)))
      have leastAfter : ∀ y ∈ after, gt x y = false := fun y member =>
        least y (same ▸ Multiset.mem_add.mpr (Or.inr member))
      refine ⟨?_, List.pairwise_cons.mpr ⟨leastRest, sorted⟩,
        List.forall_mem_cons.mpr ⟨leastAfter, apart⟩⟩
      rw [whole, same, ← Multiset.cons_coe, Multiset.cons_add]

end

end BinaryHeap
