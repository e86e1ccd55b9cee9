import Mathlib.Data.List.Induction

/-! Runs of a state machine: a step function, and which events may happen in which state. -/

namespace Runs

section

variable {σ ε : Type} (step : σ → ε → σ) (allowed : σ → ε → Prop)

inductive Reachable (start : σ) : σ → Prop
  | start : Reachable start start
  | next {state event} : Reachable start state → allowed state event →
      Reachable start (step state event)

variable {step allowed}

/-- What holds at the start and is kept by every allowed step holds in every reachable state. -/
theorem Reachable.invariant {start : σ} (holds : σ → Prop) (initially : holds start)
    (kept : ∀ state event, holds state → allowed state event → holds (step state event))
    {state : σ} (reached : Reachable step allowed start state) : holds state := by
  induction reached with
  | start => exact initially
  | next _ permitted ih => exact kept _ _ ih permitted

/-- Where every event has a stand-in of another kind, with the same effect, nothing else is reached. -/
theorem Reachable.instead {start : σ} {other : σ → ε → Prop}
    (standIn : ∀ {state event}, Reachable step other start state → allowed state event →
      ∃ event', other state event' ∧ step state event' = step state event)
    {state : σ} (reached : Reachable step allowed start state) : Reachable step other start state := by
  induction reached with
  | start => exact Reachable.start
  | next _ permitted ih =>
      obtain ⟨event', permitted', same⟩ := standIn ih permitted
      rw [← same]
      exact ih.next permitted'

def Along (step : σ → ε → σ) (allowed : σ → ε → Prop) : σ → List ε → Prop
  | _, [] => True
  | state, event :: events => allowed state event ∧ Along step allowed (step state event) events

theorem reachable_along {start : σ} {events : List ε} (along : Along step allowed start events) :
    Reachable step allowed start (events.foldl step start) := by
  suffices run : ∀ state, Reachable step allowed start state → Along step allowed state events →
      Reachable step allowed start (events.foldl step state) from run start Reachable.start along
  clear along
  induction events with
  | nil => exact fun state reached _ => reached
  | cons event rest ih =>
      rintro state reached ⟨permitted, next⟩
      exact ih (step state event) (reached.next permitted) next

end

end Runs
