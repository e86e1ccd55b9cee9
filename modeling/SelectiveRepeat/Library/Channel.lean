import SelectiveRepeat.Library.Runs

/-! A channel: first in, first out, and never more than `capacity` items inside. -/

namespace Channels

open Runs

@[ext] structure Channel (α : Type) (capacity : Nat) where
  held : List α
  fits : held.length ≤ capacity

inductive Action (α : Type)
  | put (item : α)
  | get (item : α)

section

variable {α : Type} {capacity : Nat}

def Channel.empty : Channel α capacity := ⟨[], Nat.zero_le capacity⟩

def Channel.put (channel : Channel α capacity) (item : α) (room : channel.held.length < capacity) :
    Channel α capacity :=
  ⟨channel.held ++ [item], by rwa [List.length_append]⟩

def Channel.rest (channel : Channel α capacity) : Channel α capacity :=
  ⟨channel.held.tail, by
    rw [List.length_tail]
    exact Nat.le_trans (Nat.sub_le _ 1) channel.fits⟩

/-- A run of the channel: an item is put only where there is room, and the oldest is got. -/
inductive Moves : Channel α capacity → List (Action α) → Channel α capacity → Prop
  | stay (channel) : Moves channel [] channel
  | put {channel after actions item} (room : channel.held.length < capacity) :
      Moves (channel.put item room) actions after → Moves channel (.put item :: actions) after
  | get {channel after actions item} : channel.held.head? = some item →
      Moves channel.rest actions after → Moves channel (.get item :: actions) after

theorem Moves.trans {first second third : Channel α capacity} {early late : List (Action α)}
    (one : Moves first early second) (two : Moves second late third) :
    Moves first (early ++ late) third := by
  induction one with
  | stay channel => exact two
  | put room _ ih => exact Moves.put room (ih two)
  | get oldest _ ih => exact Moves.get oldest (ih two)

theorem moves_puts {channel after : Channel α capacity} {items : List α}
    (held : after.held = channel.held ++ items) : Moves channel (items.map .put) after := by
  induction items generalizing channel with
  | nil =>
      obtain rfl : after = channel := Channel.ext (held.trans (List.append_nil _))
      exact Moves.stay after
  | cons item items ih =>
      have fits := after.fits
      rw [held, List.length_append, List.length_cons] at fits
      refine Moves.put (by omega) (ih ?_)
      rw [held]
      exact (List.append_assoc channel.held [item] items).symm

theorem moves_gets {channel after : Channel α capacity} {items : List α}
    (held : channel.held = items ++ after.held) : Moves channel (items.map .get) after := by
  induction items generalizing channel with
  | nil =>
      obtain rfl : channel = after := Channel.ext held
      exact Moves.stay channel
  | cons item items ih =>
      refine Moves.get (by rw [held]; rfl) (ih ?_)
      show channel.held.tail = _
      rw [held]
      rfl

end

/-! A system that takes inputs and gives outputs is a channel when the outputs are the oldest inputs,
in their order, and at most `capacity` are missing. -/

section

variable {σ ε α : Type} {capacity : Nat}

structure Relays (step : σ → ε → σ) (allowed : σ → ε → Prop) (start : σ)
    (inputs outputs : σ → List α) (capacity : Nat) : Prop where
  initially : inputs start = []
  order : ∀ {state}, Reachable step allowed start state → outputs state <+: inputs state
  bound : ∀ {state}, Reachable step allowed start state →
    (inputs state).length ≤ (outputs state).length + capacity
  grows : ∀ {state event}, Reachable step allowed start state → allowed state event →
    inputs state <+: inputs (step state event) ∧ outputs (step state event) = outputs state ∨
      inputs (step state event) = inputs state ∧ outputs state <+: outputs (step state event)

/-- What the channel does when the system goes from one state to another. -/
def actions (inputs outputs : σ → List α) (before after : σ) : List (Action α) :=
  ((inputs after).drop (inputs before).length).map .put ++
    ((outputs after).drop (outputs before).length).map .get

def trace (step : σ → ε → σ) (inputs outputs : σ → List α) : σ → List ε → List (Action α)
  | _, [] => []
  | state, event :: events =>
      actions inputs outputs state (step state event) ++ trace step inputs outputs (step state event) events

variable {step : σ → ε → σ} {allowed : σ → ε → Prop} {start : σ} {inputs outputs : σ → List α}

theorem Relays.channel (relays : Relays step allowed start inputs outputs capacity) {state : σ}
    (reached : Reachable step allowed start state) :
    ∃ channel : Channel α capacity, inputs state = outputs state ++ channel.held := by
  obtain ⟨held, whole⟩ := relays.order reached
  have bound := relays.bound reached
  rw [← whole, List.length_append] at bound
  exact ⟨⟨held, by omega⟩, whole.symm⟩

theorem Relays.step_moves (relays : Relays step allowed start inputs outputs capacity) {state : σ}
    {event : ε} (reached : Reachable step allowed start state) (permitted : allowed state event)
    {channel : Channel α capacity} (whole : inputs state = outputs state ++ channel.held) :
    ∃ after : Channel α capacity, Moves channel (actions inputs outputs state (step state event)) after ∧
      inputs (step state event) = outputs (step state event) ++ after.held := by
  obtain ⟨after, wholeAfter⟩ := relays.channel (reached.next permitted)
  refine ⟨after, ?_, wholeAfter⟩
  rcases relays.grows reached permitted with ⟨⟨more, longer⟩, same⟩ | ⟨same, ⟨more, longer⟩⟩
  · have held : after.held = channel.held ++ more := by
      rw [← longer, whole, same, List.append_assoc] at wholeAfter
      exact (List.append_cancel_left wholeAfter).symm
    rw [actions, ← longer, same, List.drop_left, List.drop_length, List.map_nil, List.append_nil]
    exact moves_puts held
  · have held : channel.held = more ++ after.held := by
      rw [← longer, same, whole, List.append_assoc] at wholeAfter
      exact List.append_cancel_left wholeAfter
    rw [actions, ← longer, same, List.drop_left, List.drop_length, List.map_nil, List.nil_append]
    exact moves_gets held

theorem Relays.moves (relays : Relays step allowed start inputs outputs capacity) {events : List ε}
    (along : Along step allowed start events) :
    ∃ channel : Channel α capacity, Moves Channel.empty (trace step inputs outputs start events) channel ∧
      inputs (events.foldl step start) = outputs (events.foldl step start) ++ channel.held := by
  suffices run : ∀ state, Reachable step allowed start state → ∀ channel : Channel α capacity,
      inputs state = outputs state ++ channel.held → Along step allowed state events →
        ∃ after : Channel α capacity, Moves channel (trace step inputs outputs state events) after ∧
          inputs (events.foldl step state) = outputs (events.foldl step state) ++ after.held by
    have nothing : outputs start = [] := by
      have order := relays.order Reachable.start
      rw [relays.initially] at order
      exact List.prefix_nil.mp order
    exact run start Reachable.start Channel.empty (by rw [relays.initially, nothing]; rfl) along
  clear along
  induction events with
  | nil => exact fun state _ channel whole _ => ⟨channel, Moves.stay channel, whole⟩
  | cons event events ih =>
      rintro state reached channel whole ⟨permitted, next⟩
      obtain ⟨middle, first, wholeMiddle⟩ := relays.step_moves reached permitted whole
      obtain ⟨after, rest, wholeAfter⟩ :=
        ih (step state event) (reached.next permitted) middle wholeMiddle next
      exact ⟨after, first.trans rest, wholeAfter⟩

end

end Channels
