import SelectiveRepeat.QueueNodes
import SelectiveRepeat.QueueOrder

/-! The queue with its nodes behaves as the list of its packets: every operation returns,
keeps links, tail and size together, and does to the packets what the operation on lists
does. -/

namespace SelectiveRepeat

open LinkedList Circle Reassembly

/-! `add_specific_queue` on lists: the packets behind which the search goes on, and the one
it examined last. -/

def examined (packet : Pkt) : List Pkt → Pkt → Pkt
  | [], pktRunner => pktRunner
  | runner :: next, _ => if queueCmp runner packet then examined packet next runner else runner

theorem examined_mem (packet : Pkt) {list : List Pkt} (nonempty : list ≠ []) (pktRunner : Pkt) :
    examined packet list pktRunner ∈ list := by
  induction list generalizing pktRunner with
  | nil => exact absurd rfl nonempty
  | cons runner next ih =>
      rw [examined]
      split
      · cases next with
        | nil => exact List.mem_singleton_self runner
        | cons second rest => exact List.mem_cons_of_mem runner (ih (List.cons_ne_nil _ _) runner)
      · exact List.mem_cons_self

theorem addSpecificFrom_eq (packet : Pkt) (list : List Pkt) (pktRunner : Pkt) :
    addSpecificFrom packet list pktRunner =
      if pktGetSeqnum (examined packet list pktRunner) = pktGetSeqnum packet then list
      else list.takeWhile (queueCmp · packet) ++ packet :: list.dropWhile (queueCmp · packet) := by
  induction list generalizing pktRunner with
  | nil => rfl
  | cons runner next ih =>
      rw [addSpecificFrom, examined, List.takeWhile_cons, List.dropWhile_cons]
      by_cases further : queueCmp runner packet = true
      · simp only [further, if_true, ih]
        split <;> rfl
      · simp only [further, if_false, Bool.false_eq_true]
        rfl

theorem addSpecificQueue_cases (list : List Pkt) (packet : Pkt) :
    (∃ before behind, list = before ++ behind ∧
        addSpecificQueue list packet = before ++ packet :: behind) ∨
      (∃ held ∈ list, pktGetSeqnum held = pktGetSeqnum packet) ∧
        addSpecificQueue list packet = list := by
  cases list with
  | nil => exact Or.inl ⟨[], [], rfl, rfl⟩
  | cons head next =>
      rw [addSpecificQueue, addSpecificFrom_eq]
      split
      · next same => exact Or.inr ⟨⟨_, examined_mem packet (List.cons_ne_nil _ _) head, same⟩, rfl⟩
      · exact Or.inl ⟨_, _, (List.takeWhile_append_dropWhile ..).symm, rfl⟩

/-! The search loop. -/

theorem searchLoop_finds {heap : Heap Pkt} (packet : Pkt) {rest : List (Nat × Pkt)}
    {runner : Option Nat} (segment : Segment heap runner rest none) {fuel : Nat}
    (enough : rest.length < fuel) {pktRunner : Pkt}
    (current : ∀ node ∈ rest.head?, pktRunner = node.2) (previous : Option Nat) :
    ListT.searchLoop heap packet fuel ⟨runner, pktRunner, previous⟩ =
      some ⟨(rest.dropWhile (queueCmp ·.2 packet)).head?.map Prod.fst,
        examined packet (rest.map Prod.snd) pktRunner,
        ((rest.takeWhile (queueCmp ·.2 packet)).getLast?.map Prod.fst).or previous⟩ := by
  induction rest generalizing runner fuel pktRunner previous with
  | nil =>
      obtain ⟨fuel, rfl⟩ := Nat.exists_eq_succ_of_ne_zero (Nat.ne_zero_of_lt enough)
      obtain rfl : runner = none := segment
      rfl
  | cons node rest ih =>
      obtain ⟨fuel, rfl⟩ := Nat.exists_eq_succ_of_ne_zero (Nat.ne_zero_of_lt enough)
      obtain ⟨rfl, next, cell, later⟩ := segment
      obtain rfl := current node rfl
      have fewer : rest.length < fuel := Nat.lt_of_succ_lt_succ enough
      rw [ListT.searchLoop, List.takeWhile_cons, List.dropWhile_cons, List.map_cons, examined]
      by_cases further : queueCmp node.2 packet = true
      · simp only [further, if_true, cell, Option.bind_eq_bind, Option.bind_some]
        cases rest with
        | nil =>
            obtain rfl : next = none := later
            exact ih rfl fewer (fun _ none => nomatch none) (some node.1)
        | cons second rest =>
            obtain ⟨rfl, next, nextCell, last⟩ := id later
            simp only [nextCell, Option.bind_some]
            rw [ih later fewer (fun _ first => congrArg Prod.snd (Option.some.inj first)) (some node.1),
              List.getLast?_cons]
            cases (List.takeWhile (queueCmp ·.2 packet) (second :: rest)).getLast? <;> rfl
      · simp only [further, if_false, Bool.false_eq_true]
        rfl

/-! The nodes in the order of their links. -/

/-- The links lead from the head through these nodes and end; tail and size belong to them. -/
structure Represents (list : ListT) (nodes : List (Nat × Pkt)) : Prop where
  chain : Segment list.heap list.head nodes none
  tail : list.tail = nodes.getLast?.map Prod.fst
  size : list.size = nodes.length

theorem listCreate_represents : Represents listCreate [] := ⟨rfl, rfl, rfl⟩

section

variable {list : ListT} {nodes : List (Nat × Pkt)} {packet : Pkt} {node : Nat}

theorem Represents.size_eq_zero_iff (represents : Represents list nodes) :
    list.size = 0 ↔ nodes = [] := by
  rw [represents.size, Int.natCast_eq_zero, List.length_eq_zero_iff]

theorem addElementQueue_represents (represents : Represents list nodes)
    (fresh : list.heap node = none) :
    ∃ after, list.addElementQueue packet (some node) = some (0, after) ∧
      Represents after (nodes ++ [(node, packet)]) ∧ after.deleted = list.deleted := by
  obtain ⟨chain, tail, size⟩ := id represents
  rcases List.eq_nil_or_concat' nodes with rfl | ⟨before, last, rfl⟩
  · have empty : list.size = 0 := represents.size_eq_zero_iff.mpr rfl
    rw [ListT.addElementQueue]
    simp only [empty, if_true]
    exact ⟨_, rfl, ⟨⟨rfl, none, Heap.set_same .., rfl⟩, rfl, rfl⟩, rfl⟩
  · have filled : list.size ≠ 0 := by simp [represents.size_eq_zero_iff]
    have lastMember : last ∈ before ++ [last] := by simp
    have apart := chain.ne_of_fresh fresh lastMember
    obtain ⟨_, _, _, next, cell, rfl⟩ := segment_append_iff.mp chain
    have stays : list.heap.set node ⟨packet, none⟩ last.1 = some ⟨last.2, none⟩ :=
      (Heap.set_other _ apart _).trans cell
    simp only [List.getLast?_append, List.getLast?_singleton, Option.some_or, Option.map_some] at tail
    simp only [ListT.addElementQueue, filled, if_false, tail, stays, Option.bind_eq_bind,
      Option.bind_some]
    refine ⟨_, rfl, ⟨?_, ?_, ?_⟩, rfl⟩
    · rw [List.append_assoc]
      refine chain.insert_behind fresh (Heap.set_same ..) ?_ ?_
      · exact (Heap.set_other _ apart.symm _).trans (Heap.set_same ..)
      · intro other notLast notNew
        exact (Heap.set_other _ notLast _).trans (Heap.set_other _ notNew _)
    · simp
    · rw [List.length_append, Int.natCast_add, ← size]
      rfl

theorem popElementQueue_nil (represents : Represents list []) :
    list.popElementQueue = some (none, list) := by
  rw [ListT.popElementQueue, if_pos (represents.size_eq_zero_iff.mpr rfl)]

theorem popElementQueue_cons {first : Nat × Pkt} (represents : Represents list (first :: nodes)) :
    ∃ after, list.popElementQueue = some (some first.2, after) ∧ Represents after nodes ∧
      after.deleted = list.deleted := by
  obtain ⟨chain, tail, size⟩ := id represents
  obtain ⟨next, cell, rest⟩ := chain.free_head
  have filled : list.size ≠ 0 := by simp [represents.size_eq_zero_iff]
  simp only [ListT.popElementQueue, filled, if_false, chain.1, cell, Option.bind_eq_bind,
    Option.bind_some]
  cases nodes with
  | nil =>
      rw [if_pos (by simpa using size)]
      exact ⟨_, rfl, ⟨rfl, rfl, by simp [size]⟩, rfl⟩
  | cons second nodes =>
      rw [if_neg (by simp only [size, List.length_cons]; omega)]
      refine ⟨_, rfl, ⟨rest, ?_, by simp [size]⟩, rfl⟩
      rw [tail, List.getLast?_cons_cons]

/-! `add_specific_queue` links the new node in between two parts of the chain. -/

theorem link_between {before behind : List (Nat × Pkt)}
    (chain : Segment list.heap list.head (before ++ behind) none) (fresh : list.heap node = none) :
    ∃ linked, { list with heap := list.heap.set node ⟨packet, none⟩ }.link
        (before.getLast?.map Prod.fst) node = some linked ∧
      linked.heap node = some ⟨packet, none⟩ ∧
      Segment (linked.heap.set node ⟨packet, behind.head?.map Prod.fst⟩) linked.head
        (before ++ (node, packet) :: behind) none ∧
      linked.tail = list.tail ∧ linked.size = list.size ∧ linked.deleted = list.deleted := by
  rcases List.eq_nil_or_concat' before with rfl | ⟨before, last, rfl⟩
  · refine ⟨_, rfl, Heap.set_same .., ?_, rfl, rfl, rfl⟩
    rw [List.nil_append] at chain ⊢
    rw [Heap.set_set, ← chain.start_eq]
    exact chain.insert_front fresh
  · have lastMember : last ∈ before ++ [last] ++ behind := by simp
    have apart := chain.ne_of_fresh fresh lastMember
    obtain ⟨next, cell⟩ := chain.allocated lastMember
    have stays : list.heap.set node ⟨packet, none⟩ last.1 = some ⟨last.2, next⟩ :=
      (Heap.set_other _ apart _).trans cell
    simp only [List.getLast?_append, List.getLast?_singleton, Option.some_or, Option.map_some,
      ListT.link, stays, Option.bind_eq_bind, Option.bind_some]
    rw [List.append_assoc] at chain ⊢
    refine ⟨_, rfl, ?_, ?_, rfl, rfl, rfl⟩
    · exact (Heap.set_other _ apart.symm _).trans (Heap.set_same ..)
    · refine chain.insert_behind fresh ?_ (Heap.set_same ..) ?_
      · exact (Heap.set_other _ apart _).trans (Heap.set_same ..)
      · intro other notLast notNew
        refine (Heap.set_other _ notNew _).trans ?_
        exact (Heap.set_other _ notLast _).trans (Heap.set_other _ notNew _)

theorem tail_insert (before behind : List (Nat × Pkt)) (packet : Pkt) (node : Nat) :
    (if behind.head?.map Prod.fst = none then some node
      else (before ++ behind).getLast?.map Prod.fst) =
      (before ++ (node, packet) :: behind).getLast?.map Prod.fst := by
  cases behind with
  | nil => simp
  | cons next rest => simp [List.getLast?_append, List.getLast?_cons_cons]

theorem link_represents {before behind : List (Nat × Pkt)} (packet : Pkt)
    (represents : Represents list (before ++ behind)) (fresh : list.heap node = none) :
    ∃ linked, { list with heap := list.heap.set node ⟨packet, none⟩ }.link
        (before.getLast?.map Prod.fst) node = some linked ∧
      linked.heap node = some ⟨packet, none⟩ ∧
      Represents { linked with
          heap := linked.heap.set node ⟨packet, behind.head?.map Prod.fst⟩
          tail := if behind.head?.map Prod.fst = none then some node else linked.tail
          size := linked.size + 1 }
        (before ++ (node, packet) :: behind) ∧
      linked.deleted = list.deleted := by
  obtain ⟨chain, tail, size⟩ := represents
  obtain ⟨linked, links, new, after, sameTail, sameSize, deleted⟩ :=
    @link_between _ packet _ _ _ chain fresh
  refine ⟨linked, links, new, ⟨after, ?_, ?_⟩, deleted⟩
  · show (if _ then _ else _) = _
    rw [sameTail, tail, tail_insert]
  · show linked.size + 1 = _
    rw [sameSize, size]
    simp only [List.length_append, List.length_cons]
    omega

theorem searchLoop_represents (packet : Pkt) {first : Nat × Pkt}
    (represents : Represents list (first :: nodes)) (fresh : list.heap node = none) :
    list.head = some first.1 ∧ ∃ next,
      list.heap.set node ⟨packet, none⟩ first.1 = some ⟨first.2, next⟩ ∧
      ListT.searchLoop (list.heap.set node ⟨packet, none⟩) packet (list.size.toNat + 1)
          ⟨some first.1, first.2, none⟩ =
        some ⟨((first :: nodes).dropWhile (queueCmp ·.2 packet)).head?.map Prod.fst,
          examined packet (first.2 :: nodes.map Prod.snd) first.2,
          ((first :: nodes).takeWhile (queueCmp ·.2 packet)).getLast?.map Prod.fst⟩ := by
  obtain ⟨chain, _, size⟩ := represents
  have framed : Segment (list.heap.set node ⟨packet, none⟩) list.head (first :: nodes) none :=
    chain.frame fun _ member => Heap.set_other _ (chain.ne_of_fresh fresh member) _
  obtain ⟨begins, next, cell, _⟩ := id framed
  have enough : (first :: nodes).length < list.size.toNat + 1 := by omega
  rw [begins] at framed
  have found := searchLoop_finds packet framed enough
    (fun _ head => congrArg Prod.snd (Option.some.inj head)) none
  rw [Option.or_none] at found
  exact ⟨begins, next, cell, found⟩

theorem addSpecificQueue_represents (packet : Pkt) (represents : Represents list nodes)
    (fresh : list.heap node = none) :
    (∃ held ∈ nodes, pktGetSeqnum held.2 = pktGetSeqnum packet) ∧
        list.addSpecificQueue packet (some node) =
          some (0, { list with deleted := list.deleted ++ [packet] }) ∧
        addSpecificQueue (nodes.map Prod.snd) packet = nodes.map Prod.snd ∨
      ∃ before behind after, nodes = before ++ behind ∧
        list.addSpecificQueue packet (some node) = some (0, after) ∧
        Represents after (before ++ (node, packet) :: behind) ∧ after.deleted = list.deleted ∧
        addSpecificQueue (nodes.map Prod.snd) packet =
          (before ++ (node, packet) :: behind).map Prod.snd := by
  cases nodes with
  | nil =>
      have empty : list.size = 0 := represents.size_eq_zero_iff.mpr rfl
      rw [ListT.addSpecificQueue]
      simp only [empty, if_true]
      exact Or.inr ⟨[], [], _, rfl, rfl, ⟨⟨rfl, none, Heap.set_same .., rfl⟩, rfl, rfl⟩, rfl, rfl⟩
  | cons first nodes =>
      obtain ⟨begins, next, cell, found⟩ := searchLoop_represents packet represents fresh
      have filled : list.size ≠ 0 := by simp [represents.size_eq_zero_iff]
      have onPackets := addSpecificFrom_eq packet ((first :: nodes).map Prod.snd) first.2
      simp only [ListT.addSpecificQueue, filled, if_false, begins, cell, found, Option.bind_eq_bind,
        Option.bind_some]
      rw [List.map_cons, addSpecificQueue, ← List.map_cons, onPackets]
      by_cases same : pktGetSeqnum (examined packet ((first :: nodes).map Prod.snd) first.2) =
        pktGetSeqnum packet
      · have member := examined_mem packet (List.cons_ne_nil first.2 (nodes.map Prod.snd)) first.2
        rw [← List.map_cons] at member
        obtain ⟨held, member, last⟩ := List.mem_map.mp member
        refine Or.inl ⟨⟨held, member, by rw [last]; exact same⟩, ?_, if_pos same⟩
        exact (if_pos same).trans (by rw [Heap.free_set fresh])
      · have parts := @List.takeWhile_append_dropWhile _ (queueCmp ·.2 packet) (first :: nodes)
        rw [← parts] at represents
        obtain ⟨linked, links, new, after, deleted⟩ := link_represents packet represents fresh
        rw [begins] at links
        simp only [links, new, Option.bind_some]
        refine Or.inr ⟨_, _, _, parts.symm, if_neg same, after, deleted, ?_⟩
        rw [if_neg same, List.takeWhile_map, List.dropWhile_map, List.map_append, List.map_cons]
        rfl

/-- On an arc of at most 32 seqnums, wherever it lies on the circle, insertion keeps the order. -/
theorem addSpecificQueue_orders {start : Nat} (represents : Represents list nodes)
    (onArc : OnArc start (nodes.map Prod.snd)) (packet : Pkt)
    (near : distance 256 start (pktGetSeqnum packet) ≤ 31) (fresh : list.heap node = none) :
    ∃ after nodes', list.addSpecificQueue packet (some node) = some (0, after) ∧
      Represents after nodes' ∧ OnArc start (nodes'.map Prod.snd) ∧
      ((∃ held ∈ nodes, pktGetSeqnum held.2 = pktGetSeqnum packet) → nodes' = nodes ∧
        after = { list with deleted := list.deleted ++ [packet] }) ∧
      ((∀ held ∈ nodes, pktGetSeqnum held.2 ≠ pktGetSeqnum packet) →
        nodes'.Perm ((node, packet) :: nodes) ∧ after.deleted = list.deleted) := by
  have ordered := addSpecificQueue_onArc onArc near
  rcases addSpecificQueue_represents packet represents fresh with
    ⟨present, returns, unchanged⟩ | ⟨before, behind, after, rfl, returns, grown, deleted, inserted⟩
  · refine ⟨_, nodes, returns, ⟨represents.chain, represents.tail, represents.size⟩, onArc,
      fun _ => ⟨rfl, rfl⟩, fun absent => ?_⟩
    obtain ⟨held, member, same⟩ := present
    exact absurd same (absent held member)
  · rw [inserted] at ordered
    refine ⟨after, _, returns, grown, ordered, fun present => ?_,
      fun _ => ⟨List.perm_middle, deleted⟩⟩
    -- a packet with the seqnum of the new one would break the order on one side of it
    obtain ⟨held, member, same⟩ := present
    obtain ⟨_, above, below⟩ := List.pairwise_append.mp (List.pairwise_map.mp ordered.increasing)
    have apart : distance 256 start (pktGetSeqnum held.2) ≠
        distance 256 start (pktGetSeqnum packet) := by
      rcases List.mem_append.mp member with early | late
      · exact Nat.ne_of_lt (below held early (node, packet) List.mem_cons_self)
      · exact Nat.ne_of_gt ((List.pairwise_cons.mp above).1 held late)
    exact absurd (congrArg _ same) apart

def acrossZero : ListT :=
  ⟨fun address =>
      if address = 0 then some ⟨{ pktNew with seqnum := 254 }, some 1⟩
      else if address = 1 then some ⟨{ pktNew with seqnum := 1 }, none⟩
      else none,
    some 0, some 1, 2, []⟩

theorem addSpecificQueue_orders_acrossZero :
    ∃ after nodes', acrossZero.addSpecificQueue { pktNew with seqnum := 0 } (some 2) =
        some (0, after) ∧
      Represents after nodes' ∧ OnArc 250 (nodes'.map Prod.snd) ∧
      nodes'.Perm [(2, { pktNew with seqnum := 0 }), (0, { pktNew with seqnum := 254 }),
        (1, { pktNew with seqnum := 1 })] ∧ after.deleted = [] := by
  have represents : Represents acrossZero
      [(0, { pktNew with seqnum := 254 }), (1, { pktNew with seqnum := 1 })] :=
    ⟨⟨rfl, some 1, rfl, rfl, none, rfl, rfl⟩, rfl, rfl⟩
  obtain ⟨after, nodes', returns, represents', onArc, _, added⟩ :=
    @addSpecificQueue_orders _ _ 2 250 represents ⟨by decide, by decide⟩
      { pktNew with seqnum := 0 } (by decide) rfl
  exact ⟨after, nodes', returns, represents', onArc, added (by decide)⟩

end

end SelectiveRepeat
