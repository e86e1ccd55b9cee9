import Mathlib.Data.List.Basic
import Mathlib.Order.Nat

/-! Logs of keyed moments in which two entries of one key are never closer than a gap. -/

namespace PacedLog

section

variable {κ : Type} {gap : Nat} {log new : List (κ × Nat)} {key other : κ} {bound now : Nat}

def Paced (gap : Nat) (log : List (κ × Nat)) : Prop :=
  log.Pairwise fun early late => early.1 = late.1 → early.2 + gap ≤ late.2

/-- Nothing later than `bound` is logged for this key. -/
def Before (log : List (κ × Nat)) (key : κ) (bound : Nat) : Prop :=
  ∀ entry ∈ log, entry.1 = key → entry.2 ≤ bound

theorem paced_nil (gap : Nat) : Paced gap ([] : List (κ × Nat)) := List.Pairwise.nil

theorem Paced.concat (paced : Paced gap log) (before : Before log key bound) (waited : bound + gap ≤ now) :
    Paced gap (log ++ [(key, now)]) := by
  refine List.pairwise_append.mpr ⟨paced, List.pairwise_singleton _ _, fun entry member last single => ?_⟩
  obtain rfl := List.mem_singleton.mp single
  intro same
  have old := before entry member same
  show entry.2 + gap ≤ now
  omega

theorem Paced.concat_first (paced : Paced gap log) (first : ∀ entry ∈ log, entry.1 ≠ key) :
    Paced gap (log ++ [(key, now)]) := by
  refine List.pairwise_append.mpr ⟨paced, List.pairwise_singleton _ _, fun entry member last single => ?_⟩
  obtain rfl := List.mem_singleton.mp single
  exact fun same => absurd same (first entry member)

theorem Before.concat (before : Before log key bound) (le : bound ≤ now) :
    Before (log ++ [(key, now)]) key now := by
  intro entry member same
  rcases List.mem_append.mp member with old | last
  · exact (before entry old same).trans le
  · rw [List.mem_singleton.mp last]

theorem Before.append_other (before : Before log key bound) (others : ∀ entry ∈ new, entry.1 ≠ key) :
    Before (log ++ new) key bound := by
  intro entry member same
  rcases List.mem_append.mp member with old | added
  · exact before entry old same
  · exact absurd same (others entry added)

theorem before_of_first (first : ∀ entry ∈ log, entry.1 ≠ key) (bound : Nat) : Before log key bound :=
  fun entry member same => absurd same (first entry member)

theorem Before.mono (before : Before log key bound) (le : bound ≤ now) : Before log key now :=
  fun entry member same => (before entry member same).trans le

end

end PacedLog
