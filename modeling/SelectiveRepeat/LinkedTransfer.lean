import SelectiveRepeat.InOrder
import SelectiveRepeat.Library.Relay
import SelectiveRepeat.LinkSimInstant
import SelectiveRepeat.PacketCorruption

/-! The sender and the receiver with the link simulator between them, without a delay. The sockets
between the three programs may lose and repeat datagrams but do not reorder them; what the simulator
does to a datagram is a header cut, a corruption that the checksums reveal, or nothing. -/

namespace SelectiveRepeat

open Bytes Circle Crc Relay Runs

/-! What the two hosts make of an altered datagram. -/

theorem cut_eq_cutToHeader {datagram : Datagram} (nonempty : datagram ≠ []) :
    (datagram.set 0 (datagram.getD 0 0 ||| 0x20)).take minPktLen = cutToHeader datagram := by
  obtain ⟨first, rest, rfl⟩ := List.exists_cons_of_ne_nil nonempty
  rfl

theorem not_ne_self (flags : Byte) : ~~~flags ≠ flags := by
  revert flags
  decide

theorem clearTr_not (flags : Byte) : clearTr (~~~flags) ≠ clearTr flags := by
  revert flags
  decide

theorem inverted_rejected {sys : Sys} (separates : SeparatesBytes sys.crc32) {pkt : Pkt}
    (valid : pkt.Valid) {idx : Nat} (inside : idx < (packetBytes sys.crc32 pkt).length)
    (stale : Memory) (found : Pkt) :
    ¬Decodes sys ((packetBytes sys.crc32 pkt).set idx
      (~~~((packetBytes sys.crc32 pkt).getD idx 0))) stale found := by
  have size := packetBytes_length sys.crc32 pkt valid.payload
  have short := valid.wireSize_le
  have decoded := decodes_packetBytes sys valid stale
  rw [Decodes, recvBuffer, received_eq (by omega)] at decoded
  rw [Decodes, recvBuffer, received_eq (by rw [List.length_set]; omega)]
  generalize packetBytes sys.crc32 pkt = bytes at *
  have first : bytes.getD idx 0 = bytes[idx] := by
    rw [List.getD_eq_getElem?_getD, List.getElem?_eq_getElem inside, Option.getD_some]
  have stored : ∀ index (bound : index < bytes.length),
      stale.store 0 bytes index = bytes[index] := by
    intro index bound
    have put := store_inside stale 0 bytes index bound
    rwa [Nat.zero_add] at put
  have altered : ∀ index (bound : index < bytes.length),
      stale.store 0 (bytes.set idx (~~~(bytes.getD idx 0))) index =
        if idx = index then ~~~bytes[idx] else bytes[index] := by
    intro index bound
    have put := store_inside stale 0 (bytes.set idx (~~~(bytes.getD idx 0))) index
      (by rwa [List.length_set])
    rw [Nat.zero_add, List.getElem_set, first] at put
    rw [first]
    exact put
  have alters : AltersByte (stale.store 0 (bytes.set idx (~~~(bytes.getD idx 0))))
      (stale.store 0 bytes) pkt.wireSize idx := by
    refine ⟨size ▸ inside, ?_, fun other bound apart => ?_⟩
    · rw [altered idx inside, if_pos rfl, stored idx inside]
      exact not_ne_self _
    · rw [altered other (size ▸ bound), if_neg (Ne.symm apart), stored other (size ▸ bound)]
  have rejected := altered_rejected separates decoded alters ?_
  · exact fun decodes => rejected (congrArg Prod.fst decodes)
  · rintro rfl
    rw [altered 0 inside, if_pos rfl, stored 0 inside]
    exact clearTr_not _

/-- What the simulator makes of a packet is the packet, its header with TR set if it has a payload,
or nothing that is decoded. -/
theorem Altered.packet {sys : Sys} (separates : SeparatesBytes sys.crc32) {options : LinkOptions}
    {pkt : Pkt} (valid : pkt.Valid) {buf : List Byte}
    (altered : Altered options ((packetBytes sys.crc32 pkt).take maxPktLen) buf) :
    buf = packetBytes sys.crc32 pkt ∨
      12 < pkt.wireSize ∧ buf = cutToHeader (packetBytes sys.crc32 pkt) ∨
      ∀ stale found, ¬Decodes sys buf stale found := by
  have size := packetBytes_length sys.crc32 pkt valid.payload
  have short := valid.wireSize_le
  rw [List.take_of_length_le (by rw [size]; exact short)] at altered
  cases altered with
  | same => exact Or.inl rfl
  | cut _ long =>
      have nonempty : packetBytes sys.crc32 pkt ≠ [] := by
        rw [packetBytes]
        exact List.cons_ne_nil _ _
      exact Or.inr (Or.inl ⟨size ▸ long, cut_eq_cutToHeader nonempty⟩)
  | inverted idx _ inside =>
      exact Or.inr (Or.inr fun stale found => inverted_rejected separates valid inside stale found)

/-! The three programs. -/

/-- The link simulator as it was started, and the addresses of the two hosts. -/
structure LinkSetup (Addr : Type) where
  sys : LinkSys
  options : LinkOptions
  sender : Addr
  dest : Addr

/-- The three programs, and how far the simulator and the two hosts are in what was sent to them. -/
structure Linked (Addr : Type) where
  joint : Joint
  link : Option (LinkProcess Addr)
  dataTaken : Nat
  answersTaken : Nat
  dataPassed : Nat
  answersPassed : Nat

inductive LinkedEvent (Addr : Type) where
  | other (event : JointEvent)
  | link (event : LinkEvent Addr)
  | takeData (clock : Timespec) (index : Nat)
  | takeAnswer (clock : Timespec) (index : Nat)
  | passData (index : Nat) (stale : Memory)
  | passAnswer (index : Nat) (stale : Memory)

section

variable {Addr : Type}

def Linked.init (input : List Byte) (clock : Timespec) : Linked Addr :=
  ⟨Joint.init input, some ⟨LinkSim.init clock, true⟩, 0, 0, 0, 0⟩

/-- What the simulator has sent in a direction. -/
def outgoing (link : Option (LinkProcess Addr)) (direction : Nat) : List PktSlot :=
  match link with
  | none => []
  | some process => process.state.sent.filter (·.direction = direction)

/-- The simulator is woken and takes a datagram of a host. -/
def takeEvent (clock : Timespec) (source : Addr) (entry : Option (Nat × Datagram)) : LinkEvent Addr :=
  .woken (some clock) (some (match entry with
    | none => .again
    | some entry => .datagram source entry.2))

variable [DecidableEq Addr] (sys : Sys) (setup : LinkSetup Addr)

def LinkSetup.turn (link : Option (LinkProcess Addr)) (event : LinkEvent Addr) :
    Option (LinkProcess Addr) :=
  proxyLoop setup.sys setup.options setup.dest link event

def linkedStep (s : Linked Addr) : LinkedEvent Addr → Linked Addr
  | .other event => { s with joint := jointStep sys s.joint event }
  | .link event => { s with link := setup.turn s.link event }
  | .takeData clock index =>
      { s with
        link := setup.turn s.link
          (takeEvent clock setup.sender s.joint.sender.state.sent[index]?)
        dataTaken := index }
  | .takeAnswer clock index =>
      { s with
        link := setup.turn s.link
          (takeEvent clock setup.dest s.joint.receiver.state.sent[index]?)
        answersTaken := index }
  | .passData index stale =>
      { s with
        joint := jointStep sys s.joint (.receiver (.readable
          ((outgoing s.link linkForward)[index]?.map PktSlot.buf) stale))
        dataPassed := index }
  | .passAnswer index stale =>
      { s with
        joint := jointStep sys s.joint (.sender (.socketReadable
          ((outgoing s.link linkReverse)[index]?.map PktSlot.buf) stale))
        answersPassed := index }

/-- Others may send to the simulator after the sender has, and what no one decodes to the hosts. -/
def LinkedAllowed (s : Linked Addr) : LinkedEvent Addr → Prop
  | .other event => Undecodable sys event
  | .link (.woken _ (some (.datagram source _))) =>
      source ≠ setup.sender ∧ source ≠ setup.dest ∧
        ∀ process ∈ s.link, process.state.srcAddr ≠ none
  | .link _ => True
  | .takeData _ index => s.dataTaken ≤ index ∧ index < s.joint.sender.state.sent.length
  | .takeAnswer _ index => s.answersTaken ≤ index ∧ index < s.joint.receiver.state.sent.length
  | .passData index _ => s.dataPassed ≤ index ∧ index < (outgoing s.link linkForward).length
  | .passAnswer index _ => s.answersPassed ≤ index ∧ index < (outgoing s.link linkReverse).length

abbrev LinkedReachable (input : List Byte) (clock : Timespec) : Linked Addr → Prop :=
  Runs.Reachable (linkedStep sys setup) (LinkedAllowed sys setup) (Linked.init input clock)

end

/-! The invariant. -/

def ImageOf (options : LinkOptions) (entry : Nat × Datagram) (slot : PktSlot) : Prop :=
  Altered options (entry.2.take maxPktLen) slot.buf

/-- Nothing is queued, and the other party is the sender as soon as there is one. -/
structure LinkIdle {Addr : Type} (setup : LinkSetup Addr) (s : Linked Addr)
    (process : LinkProcess Addr) : Prop where
  running : s.link = some process
  queue : process.state.pktQueue.HoldsHeap pktSlotCmp []
  source : process.state.srcAddr = some setup.sender ∨ process.state.srcAddr = none ∧
    process.state.sent = [] ∧ s.joint.receiver.state.sent = []

structure LinkedValid {Addr : Type} (sys : Sys) (setup : LinkSetup Addr) (input : List Byte)
    (s : Linked Addr) : Prop where
  link : ∃ process, LinkIdle setup s process
  hops : ∃ dataBound answerBound, InOrderReachable sys input ⟨s.joint, dataBound, answerBound⟩ ∧
    Relays (ImageOf setup.options) s.joint.sender.state.sent s.dataTaken
      (outgoing s.link linkForward) s.dataPassed dataBound ∧
    Relays (ImageOf setup.options) s.joint.receiver.state.sent s.answersTaken
      (outgoing s.link linkReverse) s.answersPassed answerBound

section

variable {Addr : Type} {sys : Sys} {setup : LinkSetup Addr} {input : List Byte} {s : Linked Addr}

theorem init_linkedValid (sys : Sys) (setup : LinkSetup Addr) (input : List Byte) (clock : Timespec) :
    LinkedValid sys setup input (Linked.init input clock) where
  link := ⟨_, rfl, minqNew_holdsHeap pktSlotCmp, Or.inr ⟨rfl, rfl, rfl⟩⟩
  hops := ⟨0, 0, Runs.Reachable.start, relays_nil _ _, relays_nil _ _⟩

/-! What a step of a host does to the logs. -/

theorem jointStep_logs {joint : Joint} (valid : JointValid sys input joint) (event : JointEvent) :
    ∃ data answers,
      (jointStep sys joint event).sender.state.sent = joint.sender.state.sent ++ data ∧
      (jointStep sys joint event).receiver.state.sent = joint.receiver.state.sent ++ answers := by
  cases event with
  | sender event =>
      obtain ⟨data, sent, _⟩ := (processSender_logs sys valid.sender event).added
      exact ⟨data, [], sent, (List.append_nil _).symm⟩
  | receiver event =>
      obtain ⟨answers, sent, _⟩ := (processReceiver_logs sys joint.receiver event).added
      exact ⟨[], answers, (List.append_nil _).symm, sent⟩

theorem undecodable_silent {joint : Joint} {event : JointEvent} (undecodable : Undecodable sys event) :
    (jointStep sys joint event).receiver.state.sent = joint.receiver.state.sent := by
  cases event with
  | sender event => rfl
  | receiver event =>
      rcases processReceiver_cases sys joint.receiver event with
        same | freed | ⟨_, datagram, stale, pkt, rfl, decodes, _⟩
      · exact congrArg Receiver.sent same
      · show (processReceiver sys joint.receiver event).state.sent = _
        rw [freed]
        rfl
      · exact absurd decodes (undecodable pkt)

/-- A step of a host that the links allow, if the simulator knows the sender or nothing is
answered. -/
theorem LinkedValid.host_step (valid : LinkedValid sys setup input s) {event : JointEvent}
    {dataPassed answersPassed dataBound answerBound : Nat}
    (reached : InOrderReachable sys input ⟨jointStep sys s.joint event, dataBound, answerBound⟩)
    (data : Relays (ImageOf setup.options) s.joint.sender.state.sent s.dataTaken
      (outgoing s.link linkForward) dataPassed dataBound)
    (answers : Relays (ImageOf setup.options) s.joint.receiver.state.sent s.answersTaken
      (outgoing s.link linkReverse) answersPassed answerBound)
    (known : (jointStep sys s.joint event).receiver.state.sent = s.joint.receiver.state.sent ∨
      ∀ process, s.link = some process → process.state.sent ≠ []) :
    LinkedValid sys setup input
      { s with joint := jointStep sys s.joint event, dataPassed, answersPassed } := by
  obtain ⟨process, running, queue, source⟩ := valid.link
  obtain ⟨_, _, before, _⟩ := valid.hops
  have joint := jointReachable_valid (inOrderReachable_valid before).reachable
  obtain ⟨newData, newAnswers, dataLog, answerLog⟩ := jointStep_logs joint event
  refine ⟨⟨process, running, queue, ?_⟩, dataBound, answerBound, reached, ?_, ?_⟩
  · rcases source with sender | ⟨unknown, unsent, unanswered⟩
    · exact Or.inl sender
    · rcases known with same | sent
      · exact Or.inr ⟨unknown, unsent, same.trans unanswered⟩
      · exact absurd unsent (sent process running)
  · rw [dataLog]
    exact data.log_append newData
  · rw [answerLog]
    exact answers.log_append newAnswers

theorem LinkedValid.other (valid : LinkedValid sys setup input s) {event : JointEvent}
    (undecodable : Undecodable sys event) :
    LinkedValid sys setup input { s with joint := jointStep sys s.joint event } := by
  obtain ⟨dataBound, answerBound, reached, data, answers⟩ := valid.hops
  have allowed : InOrderAllowed sys ⟨s.joint, dataBound, answerBound⟩ (.other event) := undecodable
  exact valid.host_step (reached.next allowed) data answers
    (Or.inl (undecodable_silent undecodable))

/-! A datagram passes from the simulator to a host. -/

theorem outgoing_sent {direction index : Nat} (inside : index < (outgoing s.link direction).length) :
    ∀ process, s.link = some process → process.state.sent ≠ [] := by
  intro process running empty
  rw [running, outgoing, empty] at inside
  exact Nat.not_lt_zero _ inside

theorem data_reached {joint : Joint} {dataBound answerBound origin : Nat} {entry : Nat × Datagram}
    (reached : InOrderReachable sys input ⟨joint, dataBound, answerBound⟩) (ahead : dataBound ≤ origin)
    (source : joint.sender.state.sent[origin]? = some entry) (cut : Bool) {buf : List Byte}
    (same : buf = if cut then cutToHeader entry.2 else entry.2) (stale : Memory) :
    InOrderReachable sys input
      ⟨jointStep sys joint (.receiver (.readable (some buf) stale)), origin, answerBound⟩ := by
  have allowed : InOrderAllowed sys ⟨joint, dataBound, answerBound⟩ (.data origin cut stale) :=
    ⟨ahead, (List.getElem?_eq_some_iff.mp source).1⟩
  rw [same, ← dataEvent_found source]
  exact reached.next allowed

theorem answer_reached {joint : Joint} {dataBound answerBound origin : Nat}
    {entry : Nat × Datagram} (reached : InOrderReachable sys input ⟨joint, dataBound, answerBound⟩)
    (ahead : answerBound ≤ origin) (source : joint.receiver.state.sent[origin]? = some entry)
    (stale : Memory) : InOrderReachable sys input
      ⟨jointStep sys joint (.sender (.socketReadable (some entry.2) stale)), dataBound, origin⟩ := by
  have allowed : InOrderAllowed sys ⟨joint, dataBound, answerBound⟩ (.answer origin stale) :=
    ⟨ahead, (List.getElem?_eq_some_iff.mp source).1⟩
  rw [← answerEvent_found source]
  exact reached.next allowed

theorem LinkedValid.passData (valid : LinkedValid sys setup input s)
    (separates : SeparatesBytes sys.crc32) {index : Nat} (later : s.dataPassed ≤ index)
    (inside : index < (outgoing s.link linkForward).length) (stale : Memory) :
    LinkedValid sys setup input
      { s with
        joint := jointStep sys s.joint (.receiver (.readable
          ((outgoing s.link linkForward)[index]?.map PktSlot.buf) stale))
        dataPassed := index } := by
  obtain ⟨dataBound, answerBound, reached, data, answers⟩ := valid.hops
  have joint := jointReachable_valid (inOrderReachable_valid reached).reachable
  have found := List.getElem?_eq_getElem inside
  obtain ⟨origin, entry, source, image, ahead, passed⟩ := data.pass later found
  obtain ⟨number, chunk, timestamp, _, short, bytes, _⟩ :=
    joint.sender.transfers (List.mem_of_getElem? source)
  have known := Or.inr (a := (jointStep sys s.joint (.receiver (.readable (some
    (outgoing s.link linkForward)[index].buf) stale))).receiver.state.sent =
      s.joint.receiver.state.sent) (outgoing_sent inside)
  rw [ImageOf, bytes] at image
  simp only [found, Option.map_some]
  rcases image.packet separates (dataPkt_valid short number timestamp) with
    intact | ⟨_, cut⟩ | rejected
  · rw [← bytes] at intact
    exact valid.host_step (data_reached reached ahead source false intact stale) passed answers known
  · rw [← bytes] at cut
    exact valid.host_step (data_reached reached ahead source true cut stale) passed answers known
  · have allowed : InOrderAllowed sys ⟨s.joint, dataBound, answerBound⟩ (.other (.receiver
        (.readable (some (outgoing s.link linkForward)[index].buf) stale))) := rejected stale
    exact valid.host_step (reached.next allowed) (data.ignore later) answers known

theorem LinkedValid.passAnswer (valid : LinkedValid sys setup input s)
    (separates : SeparatesBytes sys.crc32) {index : Nat} (later : s.answersPassed ≤ index)
    (inside : index < (outgoing s.link linkReverse).length) (stale : Memory) :
    LinkedValid sys setup input
      { s with
        joint := jointStep sys s.joint (.sender (.socketReadable
          ((outgoing s.link linkReverse)[index]?.map PktSlot.buf) stale))
        answersPassed := index } := by
  obtain ⟨dataBound, answerBound, reached, data, answers⟩ := valid.hops
  have joint := jointReachable_valid (inOrderReachable_valid reached).reachable
  have found := List.getElem?_eq_getElem inside
  obtain ⟨origin, entry, source, image, ahead, passed⟩ := answers.pass later found
  obtain ⟨type, seqnum, window, timestamp, bytes, ⟨low, high⟩, _⟩ :=
    joint.answers entry (List.mem_of_getElem? source)
  rw [ImageOf, bytes] at image
  simp only [found, Option.map_some]
  rcases image.packet separates (controlPkt_valid low high seqnum window timestamp) with
    intact | ⟨long, _⟩ | rejected
  · rw [intact, ← bytes]
    exact valid.host_step (answer_reached reached ahead source stale) data passed (Or.inl rfl)
  · exact absurd long (Nat.lt_irrefl 12)
  · have allowed : InOrderAllowed sys ⟨s.joint, dataBound, answerBound⟩ (.other (.sender
        (.socketReadable (some (outgoing s.link linkReverse)[index].buf) stale))) := rejected stale
    exact valid.host_step (reached.next allowed) data (answers.ignore later) (Or.inl rfl)

/-! A turn of the simulator. -/

theorem LinkIdle.knows {process : LinkProcess Addr} (idle : LinkIdle setup s process) :
    process.state.srcAddr.getD setup.sender = setup.sender := by
  rcases idle.source with sender | ⟨unknown, _⟩
  · rw [sender]
    rfl
  · rw [unknown]
    rfl

theorem outgoing_same {process process' : LinkProcess Addr}
    (sent : process'.state.sent = process.state.sent) (direction : Nat) :
    outgoing (some process') direction = outgoing (some process) direction := by
  rw [outgoing, outgoing, sent]

theorem outgoing_added {process process' : LinkProcess Addr} {slot : PktSlot}
    (sent : process'.state.sent = process.state.sent ++ [slot]) (direction : Nat) :
    outgoing (some process') direction =
      outgoing (some process) direction ++ if slot.direction = direction then [slot] else [] := by
  simp only [outgoing, sent, List.filter_append, List.filter_singleton, Bool.cond_decide]

section

variable [DecidableEq Addr]

theorem LinkSetup.turn_idle (setup : LinkSetup Addr) (instant : setup.options.delay = 0)
    {process : LinkProcess Addr} (idle : process.state.pktQueue.HoldsHeap pktSlotCmp [])
    (event : LinkEvent Addr) :
    ∃ process', setup.turn (some process) event = some process' ∧
      process'.state.pktQueue.HoldsHeap pktSlotCmp [] ∧
      (process'.state.srcAddr = process.state.srcAddr ∧ process'.state.sent = process.state.sent ∨
        ∃ clock source bytes, event = .woken (some clock) (some (.datagram source bytes)) ∧
          SentOn setup.options setup.dest source bytes
            { process.state with lastClock := lastClockOf clock } process'.state) := by
  simp only [LinkSetup.turn, proxyLoop, Option.bind_eq_bind, Option.bind_some]
  split
  · exact proxyTurn_instant setup.sys instant setup.dest idle event
  · exact ⟨process, rfl, idle, Or.inl ⟨rfl, rfl⟩⟩

theorem LinkedValid.takeData (valid : LinkedValid sys setup input s)
    (instant : setup.options.delay = 0) {index : Nat} (later : s.dataTaken ≤ index)
    (inside : index < s.joint.sender.state.sent.length) (clock : Timespec) :
    LinkedValid sys setup input (linkedStep sys setup s (.takeData clock index)) := by
  obtain ⟨process, idle⟩ := valid.link
  obtain ⟨dataBound, answerBound, reached, data, answers⟩ := valid.hops
  have found := List.getElem?_eq_getElem inside
  obtain ⟨process', turn, queue, outcome⟩ := setup.turn_idle instant idle.queue
    (takeEvent clock setup.sender (some s.joint.sender.state.sent[index]))
  simp only [linkedStep, found, idle.running, turn]
  rw [idle.running] at data answers
  rcases outcome with ⟨srcAddr, sent⟩ | ⟨_, source, bytes, woken, sentOn⟩
  · refine ⟨⟨process', rfl, queue, ?_⟩, dataBound, answerBound, reached, ?_, ?_⟩
    · rw [srcAddr, sent]
      exact idle.source
    · rw [outgoing_same sent]
      exact data.skip later
    · rw [outgoing_same sent]
      exact answers
  · obtain ⟨rfl, rfl⟩ := RecvfromResult.datagram.inj (Option.some.inj (LinkEvent.woken.inj woken).2)
    have knows : process.state.srcAddr.getD setup.sender = setup.sender := idle.knows
    have srcAddr : process'.state.srcAddr = some setup.sender := sentOn.srcAddr.trans (by rw [knows])
    refine ⟨⟨process', rfl, queue, Or.inl srcAddr⟩, dataBound, answerBound, reached, ?_⟩
    rcases sentOn.sent with sent | ⟨altered, now, direction, image, sent, party⟩
    · rw [outgoing_same sent, outgoing_same sent]
      exact ⟨data.skip later, answers⟩
    · have forward : direction = linkForward :=
        party.elim And.left fun reverse => absurd knows.symm reverse.2.1
      have notReverse : direction ≠ linkReverse := by
        rw [forward]
        decide
      rw [outgoing_added sent, outgoing_added sent, if_pos forward, if_neg notReverse, List.append_nil]
      exact ⟨data.put later found image, answers⟩

theorem LinkedValid.takeAnswer (valid : LinkedValid sys setup input s)
    (instant : setup.options.delay = 0) (apart : setup.sender ≠ setup.dest) {index : Nat}
    (later : s.answersTaken ≤ index) (inside : index < s.joint.receiver.state.sent.length)
    (clock : Timespec) :
    LinkedValid sys setup input (linkedStep sys setup s (.takeAnswer clock index)) := by
  obtain ⟨process, idle⟩ := valid.link
  obtain ⟨dataBound, answerBound, reached, data, answers⟩ := valid.hops
  have found := List.getElem?_eq_getElem inside
  -- an answer is on its way, so that the simulator has seen the sender
  have sender : process.state.srcAddr = some setup.sender := by
    rcases idle.source with known | ⟨_, _, unanswered⟩
    · exact known
    · rw [unanswered] at inside
      exact absurd inside (Nat.not_lt_zero _)
  obtain ⟨process', turn, queue, outcome⟩ := setup.turn_idle instant idle.queue
    (takeEvent clock setup.dest (some s.joint.receiver.state.sent[index]))
  simp only [linkedStep, found, idle.running, turn]
  rw [idle.running] at data answers
  rcases outcome with ⟨srcAddr, sent⟩ | ⟨_, source, bytes, woken, sentOn⟩
  · refine ⟨⟨process', rfl, queue, Or.inl (srcAddr.trans sender)⟩, dataBound, answerBound, reached,
      ?_, ?_⟩
    · rw [outgoing_same sent]
      exact data
    · rw [outgoing_same sent]
      exact answers.skip later
  · obtain ⟨rfl, rfl⟩ := RecvfromResult.datagram.inj (Option.some.inj (LinkEvent.woken.inj woken).2)
    have knows : process.state.srcAddr.getD setup.dest = setup.sender := by
      rw [sender]
      rfl
    have srcAddr : process'.state.srcAddr = some setup.sender := sentOn.srcAddr.trans (by rw [knows])
    refine ⟨⟨process', rfl, queue, Or.inl srcAddr⟩, dataBound, answerBound, reached, ?_⟩
    rcases sentOn.sent with sent | ⟨altered, now, direction, image, sent, party⟩
    · rw [outgoing_same sent, outgoing_same sent]
      exact ⟨data, answers.skip later⟩
    · have reverse : direction = linkReverse :=
        party.elim (fun forward => absurd (forward.2.trans knows).symm apart) And.left
      have notForward : direction ≠ linkForward := by
        rw [reverse]
        decide
      rw [outgoing_added sent, outgoing_added sent, if_pos reverse, if_neg notForward, List.append_nil]
      exact ⟨data, answers.put later found image⟩

theorem LinkedValid.linkStep (valid : LinkedValid sys setup input s)
    (instant : setup.options.delay = 0) {event : LinkEvent Addr}
    (allowed : LinkedAllowed sys setup s (.link event)) :
    LinkedValid sys setup input (linkedStep sys setup s (.link event)) := by
  obtain ⟨process, idle⟩ := valid.link
  obtain ⟨dataBound, answerBound, reached, data, answers⟩ := valid.hops
  obtain ⟨process', turn, queue, outcome⟩ := setup.turn_idle instant idle.queue event
  have unsent : process'.state.srcAddr = process.state.srcAddr ∧
      process'.state.sent = process.state.sent := by
    rcases outcome with same | ⟨clock, source, bytes, rfl, sentOn⟩
    · exact same
    · obtain ⟨notSender, notDest, known⟩ := allowed
      have sender := idle.source.resolve_right fun unknown =>
        known process idle.running unknown.1
      have knows : process.state.srcAddr.getD source = setup.sender := by
        rw [sender]
        rfl
      refine ⟨sentOn.srcAddr.trans (by rw [knows, sender]), ?_⟩
      rcases sentOn.sent with same | ⟨_, _, _, _, _, party⟩
      · exact same
      · rcases party with ⟨_, here⟩ | ⟨_, _, here⟩
        · exact absurd (here.trans knows) notSender
        · exact absurd here notDest
  simp only [linkedStep, idle.running, turn]
  rw [idle.running] at data answers
  refine ⟨⟨process', rfl, queue, ?_⟩, dataBound, answerBound, reached, ?_, ?_⟩
  · rw [unsent.1, unsent.2]
    exact idle.source
  · rw [outgoing_same unsent.2]
    exact data
  · rw [outgoing_same unsent.2]
    exact answers

theorem linkedReachable_valid (separates : SeparatesBytes sys.crc32)
    (instant : setup.options.delay = 0) (apart : setup.sender ≠ setup.dest) {clock : Timespec}
    (reached : LinkedReachable sys setup input clock s) : LinkedValid sys setup input s := by
  refine reached.invariant (LinkedValid sys setup input)
    (init_linkedValid sys setup input clock) ?_
  intro s event valid allowed
  cases event with
  | other event => exact valid.other allowed
  | link event => exact valid.linkStep instant allowed
  | takeData clock index => exact valid.takeData instant allowed.1 allowed.2 clock
  | takeAnswer clock index => exact valid.takeAnswer instant apart allowed.1 allowed.2 clock
  | passData index stale => exact valid.passData separates allowed.1 allowed.2 stale
  | passAnswer index stale => exact valid.passAnswer separates allowed.1 allowed.2 stale

end

end

/-- The sender, the link simulator without a delay and the receiver, whatever the rates and the
draws: each run is one of the two programs over links that do not reorder, no bad access happens in
the simulator, and the bytes written are a prefix of the bytes read, if `write` takes what it is
given. -/
theorem linked_safe {Addr : Type} [DecidableEq Addr] {sys : Sys}
    (separates : SeparatesBytes sys.crc32) {setup : LinkSetup Addr}
    (instant : setup.options.delay = 0) (apart : setup.sender ≠ setup.dest) {input : List Byte}
    {clock : Timespec} {s : Linked Addr} (reached : LinkedReachable sys setup input clock s) :
    (∃ dataBound answerBound, InOrderReachable sys input ⟨s.joint, dataBound, answerBound⟩) ∧
      s.link ≠ none ∧ (sys.WritesAll →
        s.joint.receiver.state.written.flatten <+: s.joint.sender.state.reads.flatten) := by
  have valid := linkedReachable_valid separates instant apart reached
  obtain ⟨process, idle⟩ := valid.link
  obtain ⟨dataBound, answerBound, inOrder, _⟩ := valid.hops
  have joint := jointReachable_valid (inOrderReachable_valid inOrder).reachable
  refine ⟨⟨dataBound, answerBound, inOrder⟩, ?_, joint.written_within⟩
  rw [idle.running]
  exact Option.some_ne_none process

def linkedSetup : LinkSetup Nat := ⟨sampleLinkSys, ⟨0, 0, 0, 0, 0, linkBothWays⟩, 0, 1⟩

def linkedEvents : List (LinkedEvent Nat) :=
  [.other (.sender .fileReadable), .takeData (sampleClock 1) 0, .passData 0 fun _ => 0,
    .takeAnswer (sampleClock 2) 0, .other (.sender .selectTimeout), .other (.sender .selectTimeout),
    .passAnswer 0 fun _ => 0]

def linkedRun : Linked Nat :=
  linkedEvents.foldl (linkedStep Sys.faultless linkedSetup) (Linked.init [0x61] (sampleClock 0))

theorem linkedRun_reachable :
    LinkedReachable Sys.faultless linkedSetup [0x61] (sampleClock 0) linkedRun :=
  reachable_along ⟨trivial, ⟨by decide +kernel, by decide +kernel⟩,
    ⟨by decide +kernel, by decide +kernel⟩, ⟨by decide +kernel, by decide +kernel⟩, trivial, trivial,
    ⟨by decide +kernel, by decide +kernel⟩, trivial⟩

theorem linked_safe_run :
    (∃ dataBound answerBound,
      InOrderReachable Sys.faultless [0x61] ⟨linkedRun.joint, dataBound, answerBound⟩) ∧
      linkedRun.link ≠ none ∧
      linkedRun.joint.receiver.state.written.flatten <+:
        linkedRun.joint.sender.state.reads.flatten := by
  obtain ⟨inOrder, running, safe⟩ :=
    linked_safe crc32_separatesBytes rfl (by decide) linkedRun_reachable
  exact ⟨inOrder, running, safe Sys.faultless_writesAll⟩

end SelectiveRepeat
