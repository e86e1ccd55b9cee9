import Mathlib.Data.List.Perm.Basic
import SelectiveRepeat.QueueRuns

/-! Nodes and packets of the queue over any sequence of calls, `malloc` failing in any of them:
no node is lost, and every packet handed over is given back, deleted or still held. -/

namespace SelectiveRepeat

open LinkedList Runs

/-- A call; `newNode` is the answer of `malloc`. -/
inductive QueueUse where
  | addElement (packet : Pkt) (newNode : Option Nat)
  | addSpecific (packet : Pkt) (newNode : Option Nat)
  | pop

/-- The queue, the packets it took over (the call returned 0) and those it gave back. -/
structure Ledger where
  list : ListT
  accepted : List Pkt
  popped : List Pkt

def Ledger.add (ledger : Ledger) (packet : Pkt) (result : Int × ListT) : Ledger :=
  if result.1 = 0 then { ledger with list := result.2, accepted := ledger.accepted ++ [packet] }
  else { ledger with list := result.2 }

def Ledger.use (ledger : Ledger) : QueueUse → Option Ledger
  | .addElement packet newNode =>
      (ledger.list.addElementQueue packet newNode).map (ledger.add packet)
  | .addSpecific packet newNode =>
      (ledger.list.addSpecificQueue packet newNode).map (ledger.add packet)
  | .pop => ledger.list.popElementQueue.map fun result =>
      { ledger with list := result.2, popped := ledger.popped ++ result.1.toList }

def useStep (state : Option Ledger) (event : QueueUse) : Option Ledger := state.bind (·.use event)

/-- `malloc` answers with the address of a free node or fails. -/
def UseAllowed (state : Option Ledger) : QueueUse → Prop
  | .addElement _ newNode | .addSpecific _ newNode =>
      ∀ ledger ∈ state, ∀ node ∈ newNode, ledger.list.heap node = none
  | .pop => True

def Ledger.start : Ledger := ⟨listCreate, [], []⟩

/-! The nodes that a call allocates and frees. -/

section

variable {list after : ListT} {packet : Pkt} {node : Nat} {code : Int}

theorem addElementQueue_allocated
    (returns : list.addElementQueue packet (some node) = some (code, after)) (address : Nat) :
    after.heap address ≠ none ↔ address = node ∨ list.heap address ≠ none := by
  rw [ListT.addElementQueue] at returns
  by_cases empty : list.size = 0
  · simp only [empty, if_true, Option.some.injEq, Prod.mk.injEq] at returns
    obtain ⟨_, rfl⟩ := returns
    exact Heap.set_allocated ..
  · simp only [empty, if_false, Option.bind_eq_bind, Option.bind_eq_some_iff, Option.some.injEq,
      Prod.mk.injEq] at returns
    obtain ⟨tail, _, last, found, _, rfl⟩ := returns
    exact (Heap.write_allocated found _ _).trans (Heap.set_allocated ..)

theorem link_allocated {previous : Option Nat} {linked : ListT}
    (returns : list.link previous node = some linked) (address : Nat) :
    linked.heap address ≠ none ↔ list.heap address ≠ none := by
  cases previous with
  | none =>
      obtain rfl := Option.some.inj returns
      rfl
  | some previous =>
      simp only [ListT.link, Option.bind_eq_bind, Option.bind_eq_some_iff, Option.some.injEq]
        at returns
      obtain ⟨before, found, rfl⟩ := returns
      exact Heap.write_allocated found _ _

theorem addSpecificQueue_allocated
    (returns : list.addSpecificQueue packet (some node) = some (code, after))
    (kept : after.deleted = list.deleted) (address : Nat) :
    after.heap address ≠ none ↔ address = node ∨ list.heap address ≠ none := by
  rw [ListT.addSpecificQueue] at returns
  by_cases empty : list.size = 0
  · simp only [empty, if_true, Option.some.injEq, Prod.mk.injEq] at returns
    obtain ⟨_, rfl⟩ := returns
    exact Heap.set_allocated ..
  · simp only [empty, if_false, Option.bind_eq_bind, Option.bind_eq_some_iff] at returns
    obtain ⟨head, _, first, _, found, _, returns⟩ := returns
    split at returns
    · simp only [Option.some.injEq, Prod.mk.injEq] at returns
      obtain ⟨_, rfl⟩ := returns
      exact absurd kept (by simp)
    · simp only [Option.bind_eq_some_iff, Option.some.injEq, Prod.mk.injEq] at returns
      obtain ⟨linked, links, new, cell, _, rfl⟩ := returns
      refine (Heap.write_allocated cell _ _).trans ?_
      exact (link_allocated links _).trans (Heap.set_allocated ..)

theorem popElementQueue_frees {popped : Pkt}
    (returns : list.popElementQueue = some (some popped, after)) :
    ∃ head, list.head = some head ∧ after.heap = list.heap.free head := by
  rw [ListT.popElementQueue] at returns
  by_cases empty : list.size = 0
  · simp [empty] at returns
  · simp only [empty, if_false, Option.bind_eq_bind, Option.bind_eq_some_iff, Option.some.injEq,
      Prod.mk.injEq] at returns
    obtain ⟨head, here, first, _, _, rfl⟩ := returns
    refine ⟨head, here, ?_⟩
    dsimp only
    split <;> rfl

end

/-! The invariant. -/

/-- Every allocated node is linked, and every accepted packet is popped, deleted or held. -/
structure Balanced (ledger : Ledger) (nodes : List (Nat × Pkt)) : Prop where
  represents : Represents ledger.list nodes
  owns : Owns ledger.list.heap nodes
  packets : ledger.accepted.Perm (ledger.popped ++ ledger.list.deleted ++ nodes.map Prod.snd)

theorem start_balanced : Balanced Ledger.start [] :=
  ⟨listCreate_represents, fun _ => iff_of_false (· rfl) List.not_mem_nil, List.Perm.nil⟩

section

variable {ledger : Ledger} {nodes : List (Nat × Pkt)} {packet : Pkt} {node : Nat}

theorem Balanced.hold (balanced : Balanced ledger nodes) {list : ListT}
    {nodes' : List (Nat × Pkt)} (order : nodes'.Perm ((node, packet) :: nodes))
    (represents : Represents list nodes') (deleted : list.deleted = ledger.list.deleted)
    (grown : ∀ other, list.heap other ≠ none ↔ other = node ∨ ledger.list.heap other ≠ none) :
    Balanced (ledger.add packet (0, list)) nodes' := by
  refine ⟨represents, balanced.owns.add order grown, ?_⟩
  show (ledger.accepted ++ [packet]).Perm (ledger.popped ++ list.deleted ++ nodes'.map Prod.snd)
  have held : (nodes'.map Prod.snd).Perm (nodes.map Prod.snd ++ [packet]) :=
    (order.map Prod.snd).trans (List.perm_append_singleton packet _).symm
  rw [deleted]
  refine List.Perm.trans ?_ (held.symm.append_left _)
  rw [← List.append_assoc]
  exact balanced.packets.append_right [packet]

theorem Balanced.delete (balanced : Balanced ledger nodes) (packet : Pkt) :
    Balanced (ledger.add packet
      (0, { ledger.list with deleted := ledger.list.deleted ++ [packet] })) nodes := by
  obtain ⟨chain, tail, size⟩ := balanced.represents
  refine ⟨⟨chain, tail, size⟩, balanced.owns, ?_⟩
  show (ledger.accepted ++ [packet]).Perm
    (ledger.popped ++ (ledger.list.deleted ++ [packet]) ++ nodes.map Prod.snd)
  rw [← List.append_assoc, List.append_assoc _ [packet]]
  refine (balanced.packets.append_right [packet]).trans ?_
  rw [List.append_assoc]
  exact List.perm_append_comm.append_left _

theorem Balanced.use_pop_cons {first : Nat × Pkt} (balanced : Balanced ledger (first :: nodes)) :
    ∃ after, ledger.use .pop = some after ∧ Balanced after nodes ∧
      after.popped = ledger.popped ++ [first.2] ∧ after.accepted = ledger.accepted := by
  obtain ⟨list, returns, represents, deleted⟩ := popElementQueue_cons balanced.represents
  obtain ⟨head, here, freed⟩ := popElementQueue_frees returns
  obtain rfl : head = first.1 := by
    rw [balanced.represents.chain.1] at here
    exact (Option.some.inj here).symm
  refine ⟨{ ledger with list := list, popped := ledger.popped ++ [first.2] }, ?_,
    ⟨represents, ?_, ?_⟩, rfl, rfl⟩
  · rw [Ledger.use, returns]
    rfl
  · rw [freed]
    exact balanced.owns.free balanced.represents.nodup
  · refine balanced.packets.trans ?_
    rw [deleted, List.map_cons, List.append_assoc, List.append_assoc, List.append_assoc]
    exact List.perm_middle.append_left _

theorem Balanced.use (balanced : Balanced ledger nodes) {event : QueueUse}
    (allowed : UseAllowed (some ledger) event) :
    ∃ after nodes', ledger.use event = some after ∧ Balanced after nodes' := by
  cases event with
  | addElement packet newNode =>
      cases newNode with
      | none => exact ⟨ledger, nodes, rfl, balanced⟩
      | some node =>
          have fresh := allowed ledger rfl node rfl
          obtain ⟨list, returns, represents, deleted⟩ :=
            @addElementQueue_represents _ _ packet _ balanced.represents fresh
          refine ⟨ledger.add packet (0, list), _, ?_, balanced.hold
            (List.perm_append_singleton (node, packet) nodes) represents deleted
            (addElementQueue_allocated returns)⟩
          rw [Ledger.use, returns]
          rfl
  | addSpecific packet newNode =>
      cases newNode with
      | none => exact ⟨ledger, nodes, rfl, balanced⟩
      | some node =>
          have fresh := allowed ledger rfl node rfl
          rcases addSpecificQueue_represents packet balanced.represents fresh with
            ⟨_, returns, _⟩ | ⟨before, behind, list, rfl, returns, represents, deleted, _⟩
          · refine ⟨_, nodes, ?_, balanced.delete packet⟩
            rw [Ledger.use, returns]
            rfl
          · refine ⟨ledger.add packet (0, list), _, ?_, balanced.hold List.perm_middle represents
              deleted (addSpecificQueue_allocated returns deleted)⟩
            rw [Ledger.use, returns]
            rfl
  | pop =>
      cases nodes with
      | nil =>
          refine ⟨ledger, [], ?_, balanced⟩
          rw [Ledger.use, popElementQueue_nil balanced.represents, Option.map_some]
          simp
      | cons first rest =>
          obtain ⟨after, returns, kept, _⟩ := balanced.use_pop_cons
          exact ⟨after, rest, returns, kept⟩

/-- Taking every packet frees every node and gives the packets back in their order. -/
theorem Balanced.drain (balanced : Balanced ledger nodes) :
    ∃ after, (List.replicate nodes.length QueueUse.pop).foldl useStep (some ledger) = some after ∧
      Balanced after [] ∧ after.popped = ledger.popped ++ nodes.map Prod.snd ∧
      after.accepted = ledger.accepted := by
  induction nodes generalizing ledger with
  | nil => exact ⟨ledger, rfl, balanced, (List.append_nil _).symm, rfl⟩
  | cons first rest ih =>
      obtain ⟨next, returns, kept, popped, accepted⟩ := balanced.use_pop_cons
      obtain ⟨after, run, empty, all, same⟩ := ih kept
      refine ⟨after, ?_, empty, ?_, same.trans accepted⟩
      · rw [List.length_cons, List.replicate_succ, List.foldl_cons, useStep, Option.bind_some,
          returns]
        exact run
      · rw [all, popped, List.append_assoc, List.map_cons, List.singleton_append]

end

theorem queue_reachable_balanced {state : Option Ledger}
    (reached : Reachable useStep UseAllowed (some Ledger.start) state) :
    ∃ ledger nodes, state = some ledger ∧ Balanced ledger nodes := by
  refine reached.invariant (fun state => ∃ ledger nodes, state = some ledger ∧
    Balanced ledger nodes) ⟨Ledger.start, [], rfl, start_balanced⟩ ?_
  rintro state event ⟨ledger, nodes, rfl, balanced⟩ allowed
  obtain ⟨after, nodes', returns, kept⟩ := balanced.use allowed
  exact ⟨after, nodes', returns, kept⟩

theorem queue_loses_nothing {state : Option Ledger}
    (reached : Reachable useStep UseAllowed (some Ledger.start) state) :
    ∃ ledger nodes, state = some ledger ∧ Represents ledger.list nodes ∧
      (∀ address, ledger.list.heap address ≠ none ↔ address ∈ nodes.map Prod.fst) ∧
      ledger.accepted.Perm (ledger.popped ++ ledger.list.deleted ++ nodes.map Prod.snd) ∧
      ∃ after, (List.replicate nodes.length QueueUse.pop).foldl useStep state = some after ∧
        after.list.heap = (fun _ => none) ∧ after.popped = ledger.popped ++ nodes.map Prod.snd ∧
        after.accepted.Perm (after.popped ++ after.list.deleted) := by
  obtain ⟨ledger, nodes, rfl, balanced⟩ := queue_reachable_balanced reached
  obtain ⟨after, run, empty, popped, _⟩ := balanced.drain
  refine ⟨ledger, nodes, rfl, balanced.represents, balanced.owns, balanced.packets, after, run,
    empty.owns.empty, popped, ?_⟩
  simpa using empty.packets

theorem queue_loses_nothing_duplicate :
    ∃ (ledger : Ledger) (nodes : List (Nat × Pkt)),
      [QueueUse.addElement { pktNew with seqnum := 3 } (some 0),
        .addSpecific { pktNew with seqnum := 3 } (some 1),
        .addSpecific { pktNew with seqnum := 2 } none].foldl useStep (some Ledger.start) =
          some ledger ∧
      (∀ address, ledger.list.heap address ≠ none ↔ address ∈ nodes.map Prod.fst) ∧
      ledger.accepted.Perm (ledger.popped ++ ledger.list.deleted ++ nodes.map Prod.snd) := by
  have along : Along useStep UseAllowed (some Ledger.start)
      [QueueUse.addElement { pktNew with seqnum := 3 } (some 0),
        .addSpecific { pktNew with seqnum := 3 } (some 1),
        .addSpecific { pktNew with seqnum := 2 } none] := by
    refine ⟨?_, ?_, ?_, trivial⟩ <;> rintro ledger member node answer <;> cases answer <;>
      cases member <;> rfl
  obtain ⟨ledger, nodes, state, _, owns, packets, _⟩ := queue_loses_nothing (reachable_along along)
  exact ⟨ledger, nodes, state, owns, packets⟩

end SelectiveRepeat
