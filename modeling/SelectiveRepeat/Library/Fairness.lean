import Mathlib.Order.Filter.AtTopBot.Basic
import Mathlib.Order.OrderIsoNat

/-! Runs that never end: what an event sequence does step by step, what a fair link owes to its
users, and counters that move again and again. -/

namespace Fairness

open Filter

section

variable {σ ε : Type} {step : σ → ε → σ} {start : σ} {events : Nat → ε} {run : Nat → σ}

/-- The run starts here, and its n-th step is the n-th event. -/
structure Follows (step : σ → ε → σ) (start : σ) (events : Nat → ε) (run : Nat → σ) : Prop where
  start : run 0 = start
  next : ∀ n, run (n + 1) = step (run n) (events n)

def states (step : σ → ε → σ) (start : σ) (events : Nat → ε) : Nat → σ
  | 0 => start
  | n + 1 => step (states step start events n) (events n)

theorem states_follows (step : σ → ε → σ) (start : σ) (events : Nat → ε) :
    Follows step start events (states step start events) := ⟨rfl, fun _ => rfl⟩

theorem Follows.invariant (follows : Follows step start events run) {allowed : σ → ε → Prop}
    (holds : σ → Prop) (initially : holds start)
    (kept : ∀ state event, holds state → allowed state event → holds (step state event))
    (permitted : ∀ n, allowed (run n) (events n)) (n : Nat) : holds (run n) := by
  induction n with
  | zero => rwa [follows.start]
  | succ n ih =>
      rw [follows.next]
      exact kept _ _ ih (permitted n)

theorem Follows.settled (follows : Follows step start events run) {first : Nat}
    (kept : ∀ n, first ≤ n → step (run first) (events n) = run first) {n : Nat} (later : first ≤ n) :
    run n = run first := by
  induction n, later using Nat.le_induction with
  | base => rfl
  | succ n later ih => rw [follows.next, ih, kept n later]

end

/-- A message of a kind that is sent again and again arrives again and again. -/
def FairLink {μ : Type} (sent arrives : Nat → μ → Prop) : Prop :=
  ∀ kind : Set μ, (∃ᶠ n in atTop, ∃ message ∈ kind, sent n message) →
    ∃ᶠ n in atTop, ∃ message ∈ kind, arrives n message

/-- What is no longer sent from some time on need not arrive. -/
theorem fairLink_silent {μ : Type} {sent arrives : Nat → μ → Prop}
    (silent : ∀ᶠ n in atTop, ∀ message, ¬sent n message) : FairLink sent arrives := by
  intro kind again
  obtain ⟨n, ⟨message, _, sends⟩, never⟩ := (again.and_eventually silent).exists
  exact absurd sends (never message)

theorem exists_later {p : Nat → Prop} (again : ∃ᶠ n in atTop, p n) (first : Nat) :
    ∃ n, first ≤ n ∧ p n := frequently_atTop.mp again first

theorem eventually_ge {count : Nat → Nat} (mono : Monotone count)
    (moves : ∃ᶠ n in atTop, count n < count (n + 1)) (bound : Nat) :
    ∀ᶠ n in atTop, bound ≤ count n := by
  induction bound with
  | zero => exact Eventually.of_forall fun n => Nat.zero_le _
  | succ bound ih =>
      obtain ⟨n, more, enough⟩ := (moves.and_eventually ih).exists
      refine eventually_atTop.mpr ⟨n + 1, fun later behind => ?_⟩
      have above := mono behind
      omega

theorem count_add_le {count : Nat → Nat} {most : Nat} (slow : ∀ n, count (n + 1) ≤ count n + most)
    (first within : Nat) : count (first + within) ≤ count first + within * most := by
  induction within with
  | zero => exact Nat.le_add_right _ _
  | succ within ih =>
      have next := slow (first + within)
      rw [Nat.succ_mul, ← Nat.add_assoc first]
      omega

/-- On its way past a target, a counter steps over it. -/
theorem exists_crossing (count : Nat → Nat) {first last target : Nat} (order : first ≤ last)
    (below : count first ≤ target) (above : target < count last) :
    ∃ n, first ≤ n ∧ count n ≤ target ∧ target < count (n + 1) := by
  induction last, order using Nat.le_induction with
  | base => omega
  | succ last order ih =>
      by_cases passed : target < count last
      · exact ih passed
      · exact ⟨last, order, Nat.not_lt.mp passed, above⟩

/-- Where a run keeps coming back to one place and leaves it only through another, it keeps
passing that other one. -/
theorem frequently_through (here : Nat → Prop) {away : Nat → Prop}
    (back : ∃ᶠ n in atTop, here n ∧ ¬here (n + 1))
    (stays : ∀ n, ¬here n → ¬away n → ¬here (n + 1)) : ∃ᶠ n in atTop, away n := by
  refine frequently_atTop.mpr fun first => ?_
  obtain ⟨left, behind, _, gone⟩ := exists_later back first
  by_contra never
  push Not at never
  have absent : ∀ n, left + 1 ≤ n → ¬here n := by
    intro n later
    induction n, later using Nat.le_induction with
    | base => exact gone
    | succ n later ih => exact stays n ih (never n (by omega))
  obtain ⟨n, later, present, _⟩ := exists_later back (left + 1)
  exact absent n later present

/-- A measure that never grows stops changing. -/
theorem eventually_constant (measure : Nat → Nat) (anti : ∀ n, measure (n + 1) ≤ measure n) :
    ∃ first, ∀ n, first ≤ n → measure n = measure first := by
  obtain ⟨first, same⟩ :=
    WellFoundedLT.antitone_chain_condition (antitone_nat_of_succ_le anti)
  exact ⟨first, fun n later => (same n later).symm⟩

end Fairness
