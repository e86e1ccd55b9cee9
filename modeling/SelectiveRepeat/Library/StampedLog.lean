import Mathlib.Data.List.Basic
import Mathlib.Order.Nat

/-! Logs that only grow, whose entries carry the value that a counter had when they were added, and
readers that move through a log without going back. -/

namespace StampedLog

section

variable {γ α : Type} [Preorder γ]

structure Stamped (now : γ) (log : List (γ × α)) : Prop where
  sorted : log.Pairwise fun earlier later => earlier.1 ≤ later.1
  bound : ∀ entry ∈ log, entry.1 ≤ now

/-- From one value of the counter to another, entries with values between them were added. -/
structure Extends (now : γ) (log : List (γ × α)) (later : γ) (log' : List (γ × α)) :
    Prop where
  counts : now ≤ later
  added : ∃ new, log' = log ++ new ∧ Stamped later new ∧ ∀ entry ∈ new, now ≤ entry.1

/-- The entries that a reader has before it were added when the counter was at least `bound`. -/
structure Ahead (passed : Nat) (bound now : γ) (log : List (γ × α)) : Prop where
  reached : bound ≤ now
  remaining : ∀ index entry, passed ≤ index → log[index]? = some entry → bound ≤ entry.1

variable {now later last bound : γ} {passed index : Nat} {log log' log'' : List (γ × α)}
  {entry : γ × α}

theorem stamped_nil (now : γ) : Stamped now ([] : List (γ × α)) :=
  ⟨List.Pairwise.nil, List.forall_mem_nil _⟩

theorem Stamped.append {new : List (γ × α)} (stamped : Stamped now log) (counts : now ≤ later)
    (added : Stamped later new) (recent : ∀ entry ∈ new, now ≤ entry.1) :
    Stamped later (log ++ new) := by
  refine ⟨List.pairwise_append.mpr ⟨stamped.sorted, added.sorted, ?_⟩, ?_⟩
  · intro first old second fresh
    exact (stamped.bound first old).trans (recent second fresh)
  · intro entry member
    rcases List.mem_append.mp member with old | fresh
    · exact (stamped.bound entry old).trans counts
    · exact added.bound entry fresh

theorem Stamped.extend (stamped : Stamped now log) (grows : Extends now log later log') :
    Stamped later log' := by
  obtain ⟨counts, new, rfl, added, recent⟩ := grows
  exact stamped.append counts added recent

theorem Extends.refl (now : γ) (log : List (γ × α)) : Extends now log now log :=
  ⟨le_refl now, [], (List.append_nil log).symm, stamped_nil now, List.forall_mem_nil _⟩

theorem Extends.count (counts : now ≤ later) (log : List (γ × α)) : Extends now log later log :=
  ⟨counts, [], (List.append_nil log).symm, stamped_nil later, List.forall_mem_nil _⟩

theorem Extends.single (now : γ) (log : List (γ × α)) (item : α) :
    Extends now log now (log ++ [(now, item)]) := by
  refine ⟨le_refl now, [(now, item)], rfl, ⟨List.pairwise_singleton _ _, ?_⟩, ?_⟩
  · exact List.forall_mem_singleton.mpr (le_refl now)
  · exact List.forall_mem_singleton.mpr (le_refl now)

theorem Extends.trans (first : Extends now log later log') (second : Extends later log' last log'') :
    Extends now log last log'' := by
  obtain ⟨counts, new, rfl, added, recent⟩ := first
  obtain ⟨counts', new', rfl, added', recent'⟩ := second
  refine ⟨counts.trans counts', new ++ new', List.append_assoc _ _ _,
    added.append counts' added' recent', ?_⟩
  intro entry member
  rcases List.mem_append.mp member with early | late
  · exact recent entry early
  · exact counts.trans (recent' entry late)

theorem Ahead.extend (ahead : Ahead passed bound now log) (grows : Extends now log later log') :
    Ahead passed bound later log' := by
  obtain ⟨counts, new, rfl, _, recent⟩ := grows
  refine ⟨ahead.reached.trans counts, fun index entry behind found => ?_⟩
  by_cases old : index < log.length
  · rw [List.getElem?_append_left old] at found
    exact ahead.remaining index entry behind found
  · rw [List.getElem?_append_right (Nat.le_of_not_lt old)] at found
    exact ahead.reached.trans (recent entry (List.mem_of_getElem? found))

theorem Stamped.ahead (stamped : Stamped now log) (found : log[index]? = some entry) :
    Ahead index entry.1 now log := by
  refine ⟨stamped.bound entry (List.mem_of_getElem? found), fun other next behind here => ?_⟩
  rcases Nat.lt_or_eq_of_le behind with before | rfl
  · obtain ⟨firstBound, rfl⟩ := List.getElem?_eq_some_iff.mp found
    obtain ⟨nextBound, rfl⟩ := List.getElem?_eq_some_iff.mp here
    exact List.pairwise_iff_getElem.mp stamped.sorted index other firstBound nextBound before
  · exact (congrArg Prod.fst (Option.some.inj (found.symm.trans here))).le

end

end StampedLog
