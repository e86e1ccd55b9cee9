import SelectiveRepeat.Library.LinkedList
import SelectiveRepeat.Queue

/-! The packet queue of `nyancat.c` with its nodes, links, counter and tail. Following a
null or freed pointer, and a loop that does not end, give `none`; `malloc` answers with the
address of a free node or with a null pointer. -/

namespace SelectiveRepeat

open LinkedList

/-- `node_t`: the item of the cell is its `packet`. -/
abbrev Node := Cell Pkt

/-- `list_t`, the memory that holds the nodes and the packets that `pkt_del` has freed. The `int`
that counts the nodes does not overflow here. -/
structure ListT where
  heap : Heap Pkt
  head : Option Nat
  tail : Option Nat
  size : Int
  deleted : List Pkt

def listCreate : ListT := ⟨fun _ => none, none, none, 0, []⟩

namespace ListT

def addElementQueue (list : ListT) (packet : Pkt) (newNode : Option Nat) : Option (Int × ListT) :=
  match newNode with
  | none => some (-1, list)
  | some newNode =>
      let list : ListT := { list with heap := list.heap.set newNode (⟨packet, none⟩ : Node) }
      if list.size = 0 then
        some (0, { list with head := some newNode, tail := some newNode, size := list.size + 1 })
      else do
        let tail ← list.tail
        let last ← list.heap tail
        some (0, { list with
          heap := list.heap.set tail { last with next := some newNode }
          tail := some newNode
          size := list.size + 1 })

def popElementQueue (list : ListT) : Option (Option Pkt × ListT) :=
  if list.size = 0 then some (none, list)
  else do
    let head ← list.head
    let first ← list.heap head
    let list : ListT :=
      if list.size = 1 then { list with head := none, tail := none, size := list.size - 1 }
      else { list with head := first.next, size := list.size - 1 }
    some (some first.item, { list with heap := list.heap.free head })

/-- The variables of the search loop: `pktRunner` is the packet examined last. -/
structure Search where
  runner : Option Nat
  pktRunner : Pkt
  previous : Option Nat

/-- The search loop of `add_specific_queue`, for at most `fuel` turns. `cmp` is always the one of
the packet examined last. -/
def searchLoop (heap : Heap Pkt) (packet : Pkt) : Nat → Search → Option Search
  | 0, _ => none
  | fuel + 1, search =>
      match search.runner with
      | none => some search
      | some runner =>
          if queueCmp search.pktRunner packet then do
            let node ← heap runner
            match node.next with
            | none => searchLoop heap packet fuel ⟨none, search.pktRunner, some runner⟩
            | some next => do
                let nextNode ← heap next
                searchLoop heap packet fuel ⟨some next, nextNode.item, some runner⟩
          else some search

/-- `previous->next = new_node`, or the head if the new node is the first. -/
def link (list : ListT) (previous : Option Nat) (newNode : Nat) : Option ListT :=
  match previous with
  | none => some { list with head := some newNode }
  | some previous => do
      let before ← list.heap previous
      some { list with heap := list.heap.set previous { before with next := some newNode } }

def addSpecificQueue (list : ListT) (packet : Pkt) (newNode : Option Nat) : Option (Int × ListT) :=
  match newNode with
  | none => some (-1, list)
  | some newNode =>
      let list : ListT := { list with heap := list.heap.set newNode (⟨packet, none⟩ : Node) }
      if list.size = 0 then
        some (0, { list with head := some newNode, tail := some newNode, size := list.size + 1 })
      else do
        let head ← list.head
        let first ← list.heap head
        let found ← searchLoop list.heap packet (list.size.toNat + 1) ⟨some head, first.item, none⟩
        if pktGetSeqnum found.pktRunner = pktGetSeqnum packet then
          -- already in the buffer
          some (0, { list with
            heap := list.heap.free newNode
            deleted := list.deleted ++ [packet] })
        else do
          let list ← list.link found.previous newNode
          let new ← list.heap newNode
          some (0, { list with
            heap := list.heap.set newNode { new with next := found.runner }
            tail := if found.runner = none then some newNode else list.tail
            size := list.size + 1 })

end ListT

end SelectiveRepeat
