import Mathlib.Data.List.Forall2
import Mathlib.Order.Nat

/-! A relay: it moves through a log without going back, and puts out images of entries, in order. A
reader moves through what it has put out in the same way. -/

namespace Relay

section

variable {α β : Type}

/-- Each item that was put out is the image of an entry, the entries are in the order of the log, none
is behind the place that the relay has reached, and those that the reader has before it are not
before `bound`. -/
def Relays (image : α → β → Prop) (log : List α) (reached : Nat) (out : List β)
    (passed bound : Nat) : Prop :=
  bound ≤ reached ∧ ∃ origins : List Nat,
    List.Forall₂ (fun origin item => ∃ entry, log[origin]? = some entry ∧ image entry item)
      origins out ∧
    origins.Pairwise (· ≤ ·) ∧ (∀ origin ∈ origins, origin ≤ reached) ∧
    ∀ origin ∈ origins.drop passed, bound ≤ origin

variable {image : α → β → Prop} {log : List α} {reached passed bound index : Nat} {out : List β}
  {entry : α} {item : β}

theorem relays_nil (image : α → β → Prop) (log : List α) : Relays image log 0 [] 0 0 :=
  ⟨Nat.le_refl 0, [], List.Forall₂.nil, List.Pairwise.nil, List.forall_mem_nil _,
    List.forall_mem_nil _⟩

theorem Relays.log_append (relays : Relays image log reached out passed bound) (more : List α) :
    Relays image (log ++ more) reached out passed bound := by
  obtain ⟨le, origins, images, sorted, behind, ahead⟩ := relays
  refine ⟨le, origins, images.imp ?_, sorted, behind, ahead⟩
  rintro origin item ⟨entry, found, related⟩
  refine ⟨entry, ?_, related⟩
  rwa [List.getElem?_append_left (List.getElem?_eq_some_iff.mp found).1]

theorem Relays.skip (relays : Relays image log reached out passed bound) (later : reached ≤ index) :
    Relays image log index out passed bound := by
  obtain ⟨le, origins, images, sorted, behind, ahead⟩ := relays
  exact ⟨le.trans later, origins, images, sorted,
    fun origin member => (behind origin member).trans later, ahead⟩

theorem Relays.put (relays : Relays image log reached out passed bound) (later : reached ≤ index)
    (found : log[index]? = some entry) (related : image entry item) :
    Relays image log index (out ++ [item]) passed bound := by
  obtain ⟨le, origins, images, sorted, behind, ahead⟩ := relays
  refine ⟨le.trans later, origins ++ [index], ?_, ?_, ?_, ?_⟩
  · exact List.rel_append images (List.Forall₂.cons ⟨entry, found, related⟩ List.Forall₂.nil)
  · refine List.pairwise_append.mpr ⟨sorted, List.pairwise_singleton _ _, ?_⟩
    intro origin member last single
    rw [List.mem_singleton.mp single]
    exact (behind origin member).trans later
  · intro origin member
    rcases List.mem_append.mp member with old | new
    · exact (behind origin old).trans later
    · rw [List.mem_singleton.mp new]
  · intro origin member
    rw [List.drop_append] at member
    rcases List.mem_append.mp member with old | new
    · exact ahead origin old
    · rw [List.mem_singleton.mp (List.mem_of_mem_drop new)]
      exact le.trans later

/-- What the reader takes is the image of an entry that is not before the bound, and nothing that
comes after it is before that entry. -/
theorem Relays.pass (relays : Relays image log reached out passed bound) (later : passed ≤ index)
    (found : out[index]? = some item) :
    ∃ origin entry, log[origin]? = some entry ∧ image entry item ∧ bound ≤ origin ∧
      Relays image log reached out index origin := by
  obtain ⟨le, origins, images, sorted, behind, ahead⟩ := relays
  obtain ⟨inside, rfl⟩ := List.getElem?_eq_some_iff.mp found
  have place : index < origins.length := by rwa [images.length_eq]
  obtain ⟨entry, source, related⟩ := images.get place inside
  have first : origins.drop index = origins[index] :: origins.drop (index + 1) :=
    List.drop_eq_getElem_cons place
  refine ⟨origins[index], entry, source, related, ?_, behind _ (List.getElem_mem place), origins,
    images, sorted, behind, ?_⟩
  · refine ahead _ (List.mem_of_mem_drop (i := index - passed) ?_)
    rw [List.drop_drop, Nat.add_sub_cancel' later, first]
    exact List.mem_cons_self
  · have rest := sorted.drop (i := index)
    rw [first] at rest ⊢
    exact List.forall_mem_cons.mpr ⟨le_refl _, (List.pairwise_cons.mp rest).1⟩

theorem Relays.ignore (relays : Relays image log reached out passed bound) (later : passed ≤ index) :
    Relays image log reached out index bound := by
  obtain ⟨le, origins, images, sorted, behind, ahead⟩ := relays
  refine ⟨le, origins, images, sorted, behind, fun origin member => ahead origin ?_⟩
  refine List.mem_of_mem_drop (i := index - passed) ?_
  rwa [List.drop_drop, Nat.add_sub_cancel' later]

end

end Relay
