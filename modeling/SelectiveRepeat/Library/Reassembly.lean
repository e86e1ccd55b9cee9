import Mathlib.Data.List.Induction
import Mathlib.Data.List.Sort
import Mathlib.Tactic.Linarith

/-! An ideal reassembly buffer. Items carry absolute numbers; an item is delivered as
soon as all smaller numbers have been, each number once, the first item of a number
winning over later ones. -/

namespace Reassembly

/-- Ordered insertion by number; an occupied number keeps its item. -/
def insertAt {α : Type} (number : Nat) (item : α) : List (Nat × α) → List (Nat × α)
  | [] => [(number, item)]
  | entry :: rest =>
      if entry.1 < number then entry :: insertAt number item rest
      else if entry.1 = number then entry :: rest
      else (number, item) :: entry :: rest

def drain {α : Type} : List α → List (Nat × α) → List α × List (Nat × α)
  | out, [] => (out, [])
  | out, entry :: rest =>
      if entry.1 = out.length then drain (out ++ [entry.2]) rest else (out, entry :: rest)

inductive Drains {α : Type} : List α → List (Nat × α) → List α → List (Nat × α) → Prop
  | stop {out entries} : Drains out entries out entries
  | next {out entry rest out' rest'} : entry.1 = out.length →
      Drains (out ++ [entry.2]) rest out' rest' → Drains out (entry :: rest) out' rest'

def Has {α : Type} (out : List α) (entries : List (Nat × α)) (number : Nat) (item : α) : Prop :=
  out[number]? = some item ∨ (number, item) ∈ entries

abbrev Sorted {α : Type} (entries : List (Nat × α)) : Prop :=
  entries.Pairwise fun first second => first.1 < second.1

section

variable {α : Type}

theorem insertAt_number_mem (number : Nat) (item : α) (entries : List (Nat × α)) :
    ∀ entry ∈ insertAt number item entries, entry = (number, item) ∨ entry ∈ entries := by
  induction entries with
  | nil => simp [insertAt]
  | cons first rest ih =>
      intro entry member
      simp only [insertAt] at member
      split_ifs at member
      · rcases List.mem_cons.mp member with rfl | later
        · exact Or.inr List.mem_cons_self
        · rcases ih entry later with new | old
          · exact Or.inl new
          · exact Or.inr (List.mem_cons_of_mem first old)
      · exact Or.inr member
      · exact List.mem_cons.mp member

theorem insertAt_sorted (number : Nat) (item : α) {entries : List (Nat × α)} (sorted : Sorted entries) :
    Sorted (insertAt number item entries) := by
  induction entries with
  | nil => simp [insertAt, Sorted]
  | cons first rest ih =>
      obtain ⟨above, sortedRest⟩ := List.pairwise_cons.mp sorted
      simp only [insertAt]
      split_ifs with lower same
      · refine List.pairwise_cons.mpr ⟨fun entry member => ?_, ih sortedRest⟩
        rcases insertAt_number_mem number item rest entry member with rfl | old
        · exact lower
        · exact above entry old
      · exact sorted
      · refine List.pairwise_cons.mpr ⟨fun entry member => ?_, sorted⟩
        rcases List.mem_cons.mp member with rfl | later
        · show number < entry.1
          omega
        · have next := above entry later
          show number < entry.1
          omega

theorem mem_insertAt_iff (number : Nat) (item : α) {entries : List (Nat × α)} (sorted : Sorted entries)
    (entry : Nat × α) :
    entry ∈ insertAt number item entries ↔
      entry ∈ entries ∨ entry = (number, item) ∧ ∀ old ∈ entries, old.1 ≠ number := by
  induction entries with
  | nil => simp [insertAt]
  | cons first rest ih =>
      obtain ⟨above, sortedRest⟩ := List.pairwise_cons.mp sorted
      simp only [insertAt]
      split_ifs with lower same
      · have firstDiffers : first.1 ≠ number := Nat.ne_of_lt lower
        rw [List.mem_cons, ih sortedRest, List.mem_cons, List.forall_mem_cons, or_assoc]
        simp only [ne_eq, firstDiffers, not_false_eq_true, true_and]
      · rw [List.mem_cons, List.forall_mem_cons]
        simp only [ne_eq, same, not_true_eq_false, false_and, and_false, or_false]
      · have absent : ∀ old ∈ first :: rest, old.1 ≠ number := by
          intro old member
          rcases List.mem_cons.mp member with rfl | later
          · exact same
          · have next := above old later
            omega
        rw [List.mem_cons]
        constructor
        · rintro (new | old)
          · exact Or.inr ⟨new, absent⟩
          · exact Or.inl old
        · rintro (old | new)
          · exact Or.inr old
          · exact Or.inl new.1

theorem exists_insertAt (number : Nat) (item : α) (entries : List (Nat × α)) :
    ∃ found, (number, found) ∈ insertAt number item entries := by
  induction entries with
  | nil => exact ⟨item, List.mem_singleton_self _⟩
  | cons first rest ih =>
      simp only [insertAt]
      split_ifs with lower same
      · obtain ⟨found, member⟩ := ih
        exact ⟨found, List.mem_cons_of_mem first member⟩
      · exact ⟨first.2, same ▸ List.mem_cons_self⟩
      · exact ⟨item, List.mem_cons_self⟩

theorem find_insertAt (number : Nat) (item : α) {entries : List (Nat × α)} (sorted : Sorted entries)
    (turn : Nat) :
    (insertAt number item entries).find? (fun entry => entry.1 = turn) =
      (entries.find? fun entry => entry.1 = turn).or
        (if number = turn then some (number, item) else none) := by
  induction entries with
  | nil =>
      rw [insertAt, List.find?_cons]
      by_cases inTurn : number = turn <;> simp [inTurn]
  | cons first rest ih =>
      obtain ⟨above, sortedRest⟩ := List.pairwise_cons.mp sorted
      simp only [insertAt]
      by_cases lower : first.1 < number
      · rw [if_pos lower, List.find?_cons, List.find?_cons, ih sortedRest]
        split <;> rfl
      by_cases same : first.1 = number
      · rw [if_neg lower, if_pos same]
        by_cases inTurn : number = turn
        · rw [List.find?_cons_of_pos (by simp [same, inTurn])]
          rfl
        · rw [if_neg inTurn, Option.or_none]
      · rw [if_neg lower, if_neg same]
        by_cases inTurn : number = turn
        · have vacant : (first :: rest).find? (fun entry => entry.1 = turn) = none := by
            rw [List.find?_eq_none]
            intro entry member
            rw [decide_eq_true_eq]
            rcases List.mem_cons.mp member with rfl | later
            · omega
            · have next := above entry later
              omega
          rw [List.find?_cons_of_pos (by simpa using inTurn), vacant, if_pos inTurn]
          rfl
        · rw [List.find?_cons_of_neg (by simpa using inTurn), if_neg inTurn, Option.or_none]

theorem drains_drain (out : List α) (entries : List (Nat × α)) :
    Drains out entries (drain out entries).1 (drain out entries).2 := by
  induction entries generalizing out with
  | nil => exact Drains.stop
  | cons entry rest ih =>
      simp only [drain]
      split_ifs with inTurn
      · exact Drains.next inTurn (ih _)
      · exact Drains.stop

theorem Drains.sorted {out out' : List α} {entries rest : List (Nat × α)}
    (drains : Drains out entries out' rest) (sorted : Sorted entries) : Sorted rest := by
  induction drains with
  | stop => exact sorted
  | next _ _ ih => exact ih (List.pairwise_cons.mp sorted).2

theorem Drains.length_le {out out' : List α} {entries rest : List (Nat × α)}
    (drains : Drains out entries out' rest) : out.length ≤ out'.length := by
  induction drains with
  | stop => exact Nat.le_refl _
  | next _ _ ih =>
      rw [List.length_append, List.length_singleton] at ih
      omega

theorem Drains.mem {out out' : List α} {entries rest : List (Nat × α)}
    (drains : Drains out entries out' rest) : ∀ entry ∈ rest, entry ∈ entries := by
  induction drains with
  | stop => exact fun _ member => member
  | next _ _ ih => exact fun entry member => List.mem_cons_of_mem _ (ih entry member)

theorem drain_ahead_eq (out : List α) {entries : List (Nat × α)}
    (ahead : ∀ entry ∈ entries, out.length < entry.1) : drain out entries = (out, entries) := by
  cases entries with
  | nil => rfl
  | cons first rest =>
      have later := ahead first List.mem_cons_self
      rw [drain, if_neg (by omega)]

theorem sorted_length_le {entries : List (Nat × α)} (sorted : Sorted entries) {low size : Nat}
    (inside : ∀ entry ∈ entries, low < entry.1 ∧ entry.1 ≤ low + size) : entries.length ≤ size := by
  induction entries generalizing low size with
  | nil => exact Nat.zero_le size
  | cons first rest ih =>
      obtain ⟨above, sortedRest⟩ := List.pairwise_cons.mp sorted
      obtain ⟨firstLow, firstHigh⟩ := inside first List.mem_cons_self
      have fewer : rest.length ≤ low + size - first.1 := by
        refine @ih sortedRest first.1 _ ?_
        intro entry member
        have next := above entry member
        have high := (inside entry (List.mem_cons_of_mem first member)).2
        omega
      rw [List.length_cons]
      omega

theorem Drains.has_iff {out out' : List α} {entries rest : List (Nat × α)}
    (drains : Drains out entries out' rest) (number : Nat) (item : α) :
    Has out' rest number item ↔ Has out entries number item := by
  induction drains with
  | stop => rfl
  | @next out entry rest _ _ inTurn _ ih =>
      rw [ih, Has, Has, List.mem_cons, List.getElem?_append]
      obtain ⟨turn, delivered⟩ := entry
      simp only at inTurn
      subst inTurn
      simp only [Prod.mk.injEq]
      by_cases below : number < out.length
      · rw [if_pos below]
        have notTurn : number ≠ out.length := by omega
        tauto
      · rw [if_neg below, List.getElem?_eq_none (Nat.le_of_not_lt below)]
        by_cases turn : number = out.length
        · subst turn
          simp [eq_comm]
        · rw [List.getElem?_eq_none (by rw [List.length_singleton]; omega)]
          simp [turn]

theorem drain_turn_lt (out : List α) {entry : Nat × α} (inTurn : entry.1 = out.length)
    (rest : List (Nat × α)) : out.length < (drain out (entry :: rest)).1.length := by
  have grown := (drains_drain (out ++ [entry.2]) rest).length_le
  rw [List.length_append, List.length_singleton] at grown
  rw [drain, if_pos inTurn]
  exact grown

theorem drain_insertAt_lt (out : List α) (item : α) {entries : List (Nat × α)}
    (due : ∀ entry ∈ entries, out.length ≤ entry.1) :
    out.length < (drain out (insertAt out.length item entries)).1.length := by
  cases entries with
  | nil => exact drain_turn_lt out rfl []
  | cons first rest =>
      have firstDue := due first List.mem_cons_self
      rw [insertAt, if_neg (Nat.not_lt.mpr firstDue)]
      split
      · next inTurn => exact drain_turn_lt out inTurn rest
      · exact drain_turn_lt out rfl (first :: rest)

theorem drain_ahead (out : List α) {entries : List (Nat × α)} (sorted : Sorted entries)
    (due : ∀ entry ∈ entries, out.length ≤ entry.1) :
    ∀ entry ∈ (drain out entries).2, (drain out entries).1.length < entry.1 := by
  induction entries generalizing out with
  | nil => simp [drain]
  | cons first rest ih =>
      obtain ⟨above, sortedRest⟩ := List.pairwise_cons.mp sorted
      simp only [drain]
      split_ifs with inTurn
      · apply ih _ sortedRest
        intro entry member
        have next := above entry member
        rw [List.length_append, List.length_singleton]
        omega
      · intro entry member
        have firstDue := due first List.mem_cons_self
        rcases List.mem_cons.mp member with rfl | later
        · show out.length < entry.1
          omega
        · have next := above entry later
          show out.length < entry.1
          omega

end

/-- The buffer: the delivered items, whose count is the number in turn, and the entries held
back, in order and all later than that. -/
structure Buffer (α : Type) where
  out : List α
  held : List (Nat × α)
  sorted : Sorted held
  ahead : ∀ entry ∈ held, out.length < entry.1

namespace Buffer

variable {α : Type}

def empty : Buffer α := ⟨[], [], List.Pairwise.nil, by simp⟩

def next (buffer : Buffer α) : Nat := buffer.out.length

/-- An item arrives: ignored when its number was delivered, else held and drained. -/
def accept (buffer : Buffer α) (number : Nat) (item : α) : Buffer α :=
  if due : buffer.next ≤ number then
    { out := (drain buffer.out (insertAt number item buffer.held)).1
      held := (drain buffer.out (insertAt number item buffer.held)).2
      sorted := (drains_drain _ _).sorted (insertAt_sorted number item buffer.sorted)
      ahead := by
        apply drain_ahead _ (insertAt_sorted number item buffer.sorted)
        intro entry member
        rcases insertAt_number_mem number item buffer.held entry member with rfl | old
        · exact due
        · exact Nat.le_of_lt (buffer.ahead entry old) }
  else buffer

def Has (buffer : Buffer α) (number : Nat) (item : α) : Prop :=
  Reassembly.Has buffer.out buffer.held number item

theorem mem_held_iff (buffer : Buffer α) (number : Nat) (item : α) :
    (number, item) ∈ buffer.held ↔ buffer.next < number ∧ buffer.Has number item := by
  constructor
  · intro member
    exact ⟨buffer.ahead _ member, Or.inr member⟩
  · rintro ⟨later, delivered | member⟩
    · have bound := (List.getElem?_eq_some_iff.mp delivered).1
      exact absurd bound (Nat.lt_asymm later)
    · exact member

theorem out_iff (buffer : Buffer α) (number : Nat) (item : α) :
    buffer.out[number]? = some item ↔ number < buffer.next ∧ buffer.Has number item := by
  constructor
  · intro delivered
    exact ⟨(List.getElem?_eq_some_iff.mp delivered).1, Or.inl delivered⟩
  · rintro ⟨earlier, delivered | member⟩
    · exact delivered
    · exact absurd (buffer.ahead _ member) (Nat.lt_asymm earlier)

theorem has_of_lt (buffer : Buffer α) {number : Nat} (earlier : number < buffer.next) :
    ∃ item, buffer.Has number item :=
  ⟨_, Or.inl (List.getElem?_eq_getElem earlier)⟩

theorem accept_of_due (buffer : Buffer α) {number : Nat} (item : α) (due : buffer.next ≤ number) :
    (buffer.accept number item).out = (drain buffer.out (insertAt number item buffer.held)).1 ∧
      (buffer.accept number item).held =
        (drain buffer.out (insertAt number item buffer.held)).2 := by
  rw [accept, dif_pos due]
  exact ⟨rfl, rfl⟩

theorem accept_has_iff (buffer : Buffer α) (number : Nat) (item : α) (other : Nat) (found : α) :
    (buffer.accept number item).Has other found ↔
      buffer.Has other found ∨
        (other, found) = (number, item) ∧ ∀ old, ¬buffer.Has number old := by
  by_cases due : buffer.next ≤ number
  · have vacant : (∀ old ∈ buffer.held, old.1 ≠ number) ↔ ∀ old, ¬buffer.Has number old := by
      constructor
      · rintro absent old (delivered | member)
        · have bound := (List.getElem?_eq_some_iff.mp delivered).1
          exact absurd bound (Nat.not_lt.mpr due)
        · exact absent _ member rfl
      · rintro absent ⟨key, old⟩ member rfl
        exact absent old (Or.inr member)
    rw [accept, dif_pos due, Has, (drains_drain _ _).has_iff, Reassembly.Has,
      mem_insertAt_iff _ _ buffer.sorted, ← or_assoc, vacant]
    rfl
  · obtain ⟨old, delivered⟩ := buffer.has_of_lt (Nat.lt_of_not_le due)
    rw [accept, dif_neg due]
    constructor
    · exact Or.inl
    · rintro (has | ⟨_, absent⟩)
      · exact has
      · exact absurd delivered (absent old)

/-! The buffer after a whole log of arrivals. -/

def ofLog (log : List (Nat × α)) : Buffer α :=
  log.foldl (fun buffer entry => buffer.accept entry.1 entry.2) empty

def firstOf (log : List (Nat × α)) (number : Nat) : Option α :=
  (log.find? fun entry => entry.1 = number).map Prod.snd

theorem ofLog_concat (log : List (Nat × α)) (entry : Nat × α) :
    ofLog (log ++ [entry]) = (ofLog log).accept entry.1 entry.2 := by
  simp [ofLog]

theorem firstOf_concat (log : List (Nat × α)) (entry : Nat × α) (number : Nat) :
    firstOf (log ++ [entry]) number =
      (firstOf log number).or (if entry.1 = number then some entry.2 else none) := by
  rw [firstOf, firstOf, List.find?_append, Option.map_or]
  congr 1
  by_cases same : entry.1 = number <;> simp [same]

theorem exists_firstOf_iff (log : List (Nat × α)) (number : Nat) :
    (∃ item, firstOf log number = some item) ↔ ∃ item, (number, item) ∈ log := by
  constructor
  · rintro ⟨item, first⟩
    obtain ⟨⟨key, found⟩, located, rfl⟩ := Option.map_eq_some_iff.mp first
    have same : key = number := by simpa using List.find?_some located
    subst same
    exact ⟨found, List.mem_of_find?_eq_some located⟩
  · rintro ⟨item, member⟩
    cases located : log.find? fun entry => entry.1 = number with
    | none => exact absurd (List.find?_eq_none.mp located _ member) (by simp)
    | some entry => exact ⟨entry.2, by rw [firstOf, located]; rfl⟩

/-- The buffer holds or has delivered exactly the first item of each number that arrived. -/
theorem ofLog_has_iff (log : List (Nat × α)) (number : Nat) (item : α) :
    (ofLog log).Has number item ↔ firstOf log number = some item := by
  induction log using List.reverseRecOn generalizing number item with
  | nil => simp [ofLog, empty, Has, Reassembly.Has, firstOf]
  | append_singleton log entry ih =>
      obtain ⟨arrived, new⟩ := entry
      have vacant : (∀ old, ¬(ofLog log).Has arrived old) ↔ firstOf log arrived = none := by
        simp only [ih, ← Option.not_isSome_iff_eq_none, Option.isSome_iff_exists, not_exists]
      rw [ofLog_concat, accept_has_iff, ih, firstOf_concat, vacant, Prod.mk.injEq]
      by_cases same : arrived = number
      · subst same
        cases found : firstOf log arrived with
        | none => simp [eq_comm]
        | some old => simp
      · simp [same, Ne.symm same]

theorem next_le_of_has {first second : Buffer α}
    (same : ∀ number item, first.Has number item ↔ second.Has number item) :
    first.next ≤ second.next := by
  by_contra shorter
  obtain ⟨item, has⟩ := first.has_of_lt (Nat.lt_of_not_le shorter)
  rcases (same _ _).mp has with delivered | member
  · have bound := (List.getElem?_eq_some_iff.mp delivered).1
    exact Nat.lt_irrefl _ bound
  · exact Nat.lt_irrefl _ (second.ahead _ member)

/-- A buffer is known by its items: the numbers without a gap are delivered, the others held. -/
theorem eq_of_has {first second : Buffer α}
    (same : ∀ number item, first.Has number item ↔ second.Has number item) :
    first.out = second.out ∧ first.held = second.held := by
  have next : first.next = second.next :=
    Nat.le_antisymm (next_le_of_has same) (next_le_of_has fun number item => (same number item).symm)
  constructor
  · apply List.ext_getElem?
    intro number
    apply Option.ext
    intro item
    rw [first.out_iff, second.out_iff, next, same]
  · have irreflexive : Std.Irrefl fun left right : Nat × α => left.1 < right.1 :=
      ⟨fun entry => Nat.lt_irrefl entry.1⟩
    have antisymmetric : Std.Antisymm fun left right : Nat × α => left.1 < right.1 :=
      ⟨fun left right lower higher => absurd higher (Nat.lt_asymm lower)⟩
    apply first.sorted.eq_of_mem_iff second.sorted
    rintro ⟨number, item⟩
    rw [first.mem_held_iff, second.mem_held_iff, next, same]

end Buffer

/-! A set of arrivals in some order, with repetitions. -/

section

variable {α : Type} {out out' : List α} {entries rest : List (Nat × α)} {log : List (Nat × α)}

/-- The items of the log have been added where the numbers were free. -/
def Collects (out : List α) (entries log : List (Nat × α)) (out' : List α)
    (rest : List (Nat × α)) : Prop :=
  ∀ number item, Has out' rest number item ↔
    Has out entries number item ∨ (number, item) ∈ log ∧ ∀ old, ¬Has out entries number old

theorem Collects.refl (out : List α) (entries : List (Nat × α)) :
    Collects out entries [] out entries := by
  intro number item
  simp

variable {number : Nat} {item : α}

theorem Collects.repeated (collects : Collects out entries log out' rest)
    (single : ∀ old, (number, old) ∈ log → old = item) (occupied : ∃ old, Has out' rest number old) :
    Collects out entries (log ++ [(number, item)]) out' rest := by
  obtain ⟨old, has⟩ := occupied
  intro other found
  rw [collects, List.mem_append, List.mem_singleton, Prod.mk.injEq]
  constructor
  · rintro (before | ⟨logged, free⟩)
    · exact Or.inl before
    · exact Or.inr ⟨Or.inl logged, free⟩
  · rintro (before | ⟨logged | ⟨rfl, rfl⟩, free⟩)
    · exact Or.inl before
    · exact Or.inr ⟨logged, free⟩
    · rcases (collects _ _).mp has with before | ⟨logged, _⟩
      · exact absurd before (free old)
      · exact Or.inr ⟨single old logged ▸ logged, free⟩

theorem Collects.insert (collects : Collects out entries log out' rest)
    (single : ∀ old, (number, old) ∈ log → old = item) (sorted : Sorted rest)
    (due : out'.length ≤ number) :
    Collects out entries (log ++ [(number, item)]) (drain out' (insertAt number item rest)).1
      (drain out' (insertAt number item rest)).2 := by
  have added : ∀ other found,
      Has (drain out' (insertAt number item rest)).1 (drain out' (insertAt number item rest)).2
        other found ↔
      Has out' rest other found ∨ (other, found) = (number, item) ∧ ∀ old ∈ rest, old.1 ≠ number := by
    intro other found
    rw [(drains_drain _ _).has_iff, Has, Has, mem_insertAt_iff _ _ sorted, or_assoc]
  by_cases occupied : ∃ old, Has out' rest number old
  · have inRest : ¬∀ old ∈ rest, old.1 ≠ number := by
      obtain ⟨old, delivered | member⟩ := occupied
      · exact absurd (List.getElem?_eq_some_iff.mp delivered).1 (Nat.not_lt.mpr due)
      · exact fun free => free _ member rfl
    intro other found
    rw [added, ← collects.repeated single occupied other found]
    exact or_iff_left fun new => inRest new.2
  · have free : ∀ old, ¬Has out entries number old := by
      intro old before
      exact occupied ⟨old, (collects _ _).mpr (Or.inl before)⟩
    have freeRest : ∀ old ∈ rest, old.1 ≠ number := by
      rintro ⟨key, old⟩ member rfl
      exact occupied ⟨old, Or.inr member⟩
    intro other found
    rw [added, collects, List.mem_append, List.mem_singleton, or_assoc, or_and_right]
    refine or_congr_right (or_congr_right ⟨?_, ?_⟩)
    · rintro ⟨new, _⟩
      obtain ⟨rfl, rfl⟩ := Prod.mk.inj new
      exact ⟨new, free⟩
    · rintro ⟨new, _⟩
      exact ⟨new, freeRest⟩

/-- What is left after two orders of the same arrivals, once nothing is due, is the same. -/
theorem Collects.unique {log' : List (Nat × α)} {outOther : List α} {restOther : List (Nat × α)}
    (collects : Collects out entries log out' rest)
    (other : Collects out entries log' outOther restOther)
    (sameLog : ∀ entry, entry ∈ log ↔ entry ∈ log') (sorted : Sorted rest)
    (sortedOther : Sorted restOther) (ahead : ∀ entry ∈ rest, out'.length < entry.1)
    (aheadOther : ∀ entry ∈ restOther, outOther.length < entry.1) :
    out' = outOther ∧ rest = restOther := by
  refine @Buffer.eq_of_has α ⟨out', rest, sorted, ahead⟩
    ⟨outOther, restOther, sortedOther, aheadOther⟩ ?_
  intro number item
  show Has out' rest number item ↔ Has outOther restOther number item
  rw [collects, other, sameLog]

end

end Reassembly
