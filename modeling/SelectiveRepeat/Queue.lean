import SelectiveRepeat.Packet

/-! The packet queue of `nyancat.c` as the list of its packets from head to tail;
`size` is its length. `malloc` succeeds, so insertions have no failure value. -/

namespace SelectiveRepeat

def addElementQueue (list : List Pkt) (packet : Pkt) : List Pkt := list ++ [packet]

def popElementQueue (list : List Pkt) : Option Pkt × List Pkt :=
  match list with
  | [] => (none, [])
  | head :: next => (some head, next)

/-- `cmp` of `add_specific_queue`: whether the search goes on behind this node. -/
def queueCmp (pktRunner packet : Pkt) : Bool :=
  let runnerSeqnum : Int := pktGetSeqnum pktRunner
  let seqnum : Int := pktGetSeqnum packet
  let maxWindow : Int := 31
  if runnerSeqnum - seqnum > maxWindow then true
  else if seqnum - runnerSeqnum > maxWindow then false
  else runnerSeqnum < seqnum

/-- The search loop and the insertion behind it, on the nodes from `runner` on. `pktRunner` is
the packet examined last, also after the loop has run off the end. -/
def addSpecificFrom (packet : Pkt) : List Pkt → Pkt → List Pkt
  | [], pktRunner => if pktGetSeqnum pktRunner = pktGetSeqnum packet then [] else [packet]
  | runner :: next, _ =>
      if queueCmp runner packet then runner :: addSpecificFrom packet next runner
      -- already in the buffer: the packet is discarded
      else if pktGetSeqnum runner = pktGetSeqnum packet then runner :: next
      else packet :: runner :: next

def addSpecificQueue (list : List Pkt) (packet : Pkt) : List Pkt :=
  match list with
  | [] => [packet]
  | head :: next => addSpecificFrom packet (head :: next) head

end SelectiveRepeat
