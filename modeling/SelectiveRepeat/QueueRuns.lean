import SelectiveRepeat.Library.Runs
import SelectiveRepeat.QueueRefinement

/-! Any sequence of calls on the queue, from `list_create` on: the nodes always hold a list of
packets, and each call appends to it, inserts into it or takes its first. -/

namespace SelectiveRepeat

open LinkedList Runs

/-- A call with its packet and the address that `malloc` answers. -/
inductive QueueCall where
  | addElement (packet : Pkt) (newNode : Nat)
  | addSpecific (packet : Pkt) (newNode : Nat)
  | pop

inductive QueueResult where
  | status (code : Int)
  | popped (packet : Option Pkt)

def ListT.call (list : ListT) : QueueCall → Option (QueueResult × ListT)
  | .addElement packet newNode =>
      (list.addElementQueue packet (some newNode)).map (Prod.map QueueResult.status id)
  | .addSpecific packet newNode =>
      (list.addSpecificQueue packet (some newNode)).map (Prod.map QueueResult.status id)
  | .pop => list.popElementQueue.map (Prod.map QueueResult.popped id)

/-- `malloc` answers with an address that no node has. -/
def QueueCall.Fresh (list : ListT) : QueueCall → Prop
  | .addElement _ newNode | .addSpecific _ newNode => list.heap newNode = none
  | .pop => True

/-- `none` after a call that followed a bad pointer or did not end. -/
def queueStep (state : Option ListT) (call : QueueCall) : Option ListT :=
  (state.bind (ListT.call · call)).map Prod.snd

def QueueAllowed (state : Option ListT) (call : QueueCall) : Prop :=
  ∀ list ∈ state, call.Fresh list

def QueueCall.onPackets (packets : List Pkt) : QueueCall → QueueResult × List Pkt
  | .addElement packet _ => (.status 0, addElementQueue packets packet)
  | .addSpecific packet _ => (.status 0, addSpecificQueue packets packet)
  | .pop => ((popElementQueue packets).map QueueResult.popped id)

def QueueCall.Meets (packets : List Pkt) (result : QueueResult) (packets' : List Pkt) :
    QueueCall → Prop
  | .addElement packet _ => result = .status 0 ∧ packets' = packets ++ [packet]
  | .addSpecific packet _ => result = .status 0 ∧
      ((∃ before behind, packets = before ++ behind ∧ packets' = before ++ packet :: behind) ∨
        (∃ held ∈ packets, pktGetSeqnum held = pktGetSeqnum packet) ∧ packets' = packets)
  | .pop => result = .popped packets.head? ∧ packets' = packets.tail

theorem onPackets_meets (packets : List Pkt) (call : QueueCall) :
    call.Meets packets (call.onPackets packets).1 (call.onPackets packets).2 := by
  cases call with
  | addElement packet newNode => exact ⟨rfl, rfl⟩
  | addSpecific packet newNode => exact ⟨rfl, addSpecificQueue_cases packets packet⟩
  | pop => cases packets <;> exact ⟨rfl, rfl⟩

section

variable {list : ListT} {nodes : List (Nat × Pkt)}

theorem call_represents (represents : Represents list nodes) {call : QueueCall}
    (fresh : call.Fresh list) :
    ∃ result after nodes', list.call call = some (result, after) ∧ Represents after nodes' ∧
      call.onPackets (nodes.map Prod.snd) = (result, nodes'.map Prod.snd) := by
  cases call with
  | addElement packet newNode =>
      obtain ⟨after, returns, grown, _⟩ := @addElementQueue_represents _ _ packet _ represents fresh
      refine ⟨.status 0, after, _, ?_, grown, ?_⟩
      · rw [ListT.call, returns]
        rfl
      · rw [QueueCall.onPackets, addElementQueue, List.map_append, List.map_singleton]
  | addSpecific packet newNode =>
      rcases addSpecificQueue_represents packet represents fresh with
        ⟨_, returns, unchanged⟩ | ⟨before, behind, after, _, returns, grown, _, inserted⟩
      · refine ⟨.status 0, { list with deleted := list.deleted ++ [packet] }, nodes, ?_,
          ⟨represents.chain, represents.tail, represents.size⟩, ?_⟩
        · rw [ListT.call, returns]
          rfl
        · rw [QueueCall.onPackets, unchanged]
      · refine ⟨.status 0, after, _, ?_, grown, ?_⟩
        · rw [ListT.call, returns]
          rfl
        · rw [QueueCall.onPackets, inserted]
  | pop =>
      cases nodes with
      | nil =>
          refine ⟨.popped none, list, [], ?_, represents, rfl⟩
          rw [ListT.call, popElementQueue_nil represents]
          rfl
      | cons first rest =>
          obtain ⟨after, returns, shorter, _⟩ := popElementQueue_cons represents
          refine ⟨.popped (some first.2), after, rest, ?_, shorter, rfl⟩
          rw [ListT.call, returns]
          rfl

theorem Represents.nodup (represents : Represents list nodes) : (nodes.map Prod.fst).Nodup :=
  represents.chain.nodup

theorem Represents.head_eq_none_iff (represents : Represents list nodes) :
    list.head = none ↔ list.size = 0 := by
  rw [represents.size_eq_zero_iff, represents.chain.start_eq, Option.map_eq_none_iff,
    List.head?_eq_none_iff]

theorem Represents.tail_eq_none_iff (represents : Represents list nodes) :
    list.tail = none ↔ list.size = 0 := by
  rw [represents.size_eq_zero_iff, represents.tail, Option.map_eq_none_iff, List.getLast?_eq_none_iff]

end

/-- Over a whole run the nodes hold the packets that the calls give on lists. -/
theorem queue_run_refines {calls : List QueueCall}
    (along : Along queueStep QueueAllowed (some listCreate) calls) :
    ∃ list nodes, calls.foldl queueStep (some listCreate) = some list ∧ Represents list nodes ∧
      nodes.map Prod.snd = calls.foldl (fun packets call => (call.onPackets packets).2) [] := by
  suffices run : ∀ list nodes, Represents list nodes →
      Along queueStep QueueAllowed (some list) calls →
      ∃ after nodes', calls.foldl queueStep (some list) = some after ∧ Represents after nodes' ∧
        nodes'.map Prod.snd =
          calls.foldl (fun packets call => (call.onPackets packets).2) (nodes.map Prod.snd) from
    run listCreate [] listCreate_represents along
  clear along
  induction calls with
  | nil => exact fun list nodes represents _ => ⟨list, nodes, rfl, represents, rfl⟩
  | cons call rest ih =>
      rintro list nodes represents ⟨allowed, later⟩
      obtain ⟨result, after, nodes', returns, kept, onPackets⟩ :=
        call_represents represents (allowed list rfl)
      have stepped : queueStep (some list) call = some after := by
        rw [queueStep, Option.bind_some, returns]
        rfl
      rw [stepped] at later
      rw [List.foldl_cons, List.foldl_cons, stepped, onPackets]
      exact ih after nodes' kept later

theorem queue_reachable_represents {state : Option ListT}
    (reached : Reachable queueStep QueueAllowed (some listCreate) state) :
    ∃ list nodes, state = some list ∧ Represents list nodes := by
  refine reached.invariant (fun state => ∃ list nodes, state = some list ∧ Represents list nodes)
    ⟨listCreate, [], rfl, listCreate_represents⟩ ?_
  rintro state call ⟨list, nodes, rfl, represents⟩ allowed
  obtain ⟨result, after, nodes', returns, kept, _⟩ := call_represents represents (allowed list rfl)
  refine ⟨after, nodes', ?_, kept⟩
  rw [queueStep, Option.bind_some, returns]
  rfl

theorem queue_is_list {state : Option ListT}
    (reached : Reachable queueStep QueueAllowed (some listCreate) state) :
    ∃ list nodes, state = some list ∧ Represents list nodes ∧ (nodes.map Prod.fst).Nodup ∧
      (list.head = none ↔ list.size = 0) ∧ (list.tail = none ↔ list.size = 0) ∧
      ∀ call, QueueAllowed state call → ∃ result after nodes',
        list.call call = some (result, after) ∧ queueStep state call = some after ∧
        Represents after nodes' ∧ call.Meets (nodes.map Prod.snd) result (nodes'.map Prod.snd) := by
  obtain ⟨list, nodes, rfl, represents⟩ := queue_reachable_represents reached
  refine ⟨list, nodes, rfl, represents, represents.nodup, represents.head_eq_none_iff,
    represents.tail_eq_none_iff, ?_⟩
  intro call allowed
  obtain ⟨result, after, nodes', returns, kept, onPackets⟩ :=
    call_represents represents (allowed list rfl)
  have meets := onPackets_meets (nodes.map Prod.snd) call
  rw [onPackets] at meets
  refine ⟨result, after, nodes', returns, ?_, kept, meets⟩
  rw [queueStep, Option.bind_some, returns]
  rfl

theorem queue_is_list_test :
    ∃ list nodes, [QueueCall.addElement { pktNew with seqnum := 0 } 0,
        .addElement { pktNew with seqnum := 1 } 1, .addElement { pktNew with seqnum := 3 } 2,
        .addSpecific { pktNew with seqnum := 2 } 3].foldl queueStep (some listCreate) = some list ∧
      Represents list nodes ∧ (nodes.map Prod.fst).Nodup ∧
      (list.head = none ↔ list.size = 0) ∧ (list.tail = none ↔ list.size = 0) ∧
      ∃ result after nodes', list.call .pop = some (result, after) ∧ Represents after nodes' ∧
        QueueCall.pop.Meets (nodes.map Prod.snd) result (nodes'.map Prod.snd) := by
  have along : Along queueStep QueueAllowed (some listCreate)
      [QueueCall.addElement { pktNew with seqnum := 0 } 0,
        .addElement { pktNew with seqnum := 1 } 1, .addElement { pktNew with seqnum := 3 } 2,
        .addSpecific { pktNew with seqnum := 2 } 3] := by
    refine ⟨?_, ?_, ?_, ?_, trivial⟩ <;> rintro list member <;> cases member <;> rfl
  obtain ⟨list, nodes, state, represents, distinct, head, tail, calls⟩ :=
    queue_is_list (reachable_along along)
  obtain ⟨result, after, nodes', returns, _, kept, meets⟩ := calls .pop fun _ _ => trivial
  exact ⟨list, nodes, state, represents, distinct, head, tail, result, after, nodes', returns, kept,
    meets⟩

end SelectiveRepeat
