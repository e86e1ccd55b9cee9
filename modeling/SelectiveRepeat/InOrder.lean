import SelectiveRepeat.JointSafety
import SelectiveRepeat.Logs

/-! The sender and the receiver over links that never go back: they may lose and repeat datagrams,
cut them to the header and let through what no one decodes, but not reorder. Then no datagram is
ever too old, whatever the delays. -/

namespace SelectiveRepeat

open Bytes Circle Reassembly Runs StampedLog

/-- The two programs, and how far the links are in the logs of what was sent. -/
structure InOrder where
  joint : Joint
  dataPassed : Nat
  answersPassed : Nat

def InOrder.init (input : List Byte) : InOrder := ⟨Joint.init input, 0, 0⟩

inductive InOrderEvent
  | other (event : JointEvent)
  | data (index : Nat) (cut : Bool) (stale : Memory)
  | answer (index : Nat) (stale : Memory)

def dataEvent (joint : Joint) (index : Nat) (cut : Bool) (stale : Memory) : JointEvent :=
  .receiver (.readable (joint.sender.state.sent[index]?.map fun entry =>
    if cut then cutToHeader entry.2 else entry.2) stale)

def answerEvent (joint : Joint) (index : Nat) (stale : Memory) : JointEvent :=
  .sender (.socketReadable (joint.receiver.state.sent[index]?.map Prod.snd) stale)

def inOrderStep (sys : Sys) (s : InOrder) : InOrderEvent → InOrder
  | .other event => { s with joint := jointStep sys s.joint event }
  | .data index cut stale =>
      { s with joint := jointStep sys s.joint (dataEvent s.joint index cut stale), dataPassed := index }
  | .answer index stale =>
      { s with joint := jointStep sys s.joint (answerEvent s.joint index stale), answersPassed := index }

/-- The event brings no datagram that is decoded. -/
def Undecodable (sys : Sys) : JointEvent → Prop
  | .receiver (.readable (some datagram) stale) => ∀ pkt, ¬Decodes sys datagram stale pkt
  | .sender (.socketReadable (some datagram) stale) => ∀ pkt, ¬Decodes sys datagram stale pkt
  | _ => True

def InOrderAllowed (sys : Sys) (s : InOrder) : InOrderEvent → Prop
  | .other event => Undecodable sys event
  | .data index _ _ => s.dataPassed ≤ index ∧ index < s.joint.sender.state.sent.length
  | .answer index _ => s.answersPassed ≤ index ∧ index < s.joint.receiver.state.sent.length

abbrev InOrderReachable (sys : Sys) (input : List Byte) : InOrder → Prop :=
  Runs.Reachable (inOrderStep sys) (InOrderAllowed sys) (InOrder.init input)

/-- The receiver holds nothing from beyond what was passed to it. -/
def HoldsUpTo (r : Receiver) (bound : Nat) : Prop :=
  ∃ out entries, Tracks r out entries ∧ ∀ number pkt, Has out entries number pkt → number ≤ bound

structure InOrderValid (sys : Sys) (input : List Byte) (s : InOrder) : Prop where
  reachable : JointReachable sys input s.joint
  dataLog : Stamped s.joint.sender.state.reads.length s.joint.sender.state.sent
  answerLog : Stamped s.joint.receiver.state.written.length s.joint.receiver.state.sent
  data : ∃ bound, Ahead s.dataPassed bound s.joint.sender.state.reads.length
    s.joint.sender.state.sent ∧ HoldsUpTo s.joint.receiver.state bound
  answers : ∃ bound, Ahead s.answersPassed bound s.joint.receiver.state.written.length
    s.joint.receiver.state.sent ∧
      s.joint.sender.state.reads.length ≤ bound + s.joint.sender.state.list.length

theorem init_inOrderValid (sys : Sys) (input : List Byte) :
    InOrderValid sys input (InOrder.init input) where
  reachable := Runs.Reachable.start
  dataLog := stamped_nil 0
  answerLog := stamped_nil 0
  data := by
    refine ⟨0, ⟨Nat.le_refl 0, fun _ _ _ found => by simp [InOrder.init, Joint.init,
      SenderProcess.init, Sender.init] at found⟩, [], [], init_tracks, ?_⟩
    rintro number pkt (delivered | held)
    · simp at delivered
    · exact absurd held List.not_mem_nil
  answers := ⟨0, ⟨Nat.le_refl 0, fun _ _ _ found => by simp [InOrder.init, Joint.init,
    ReceiverProcess.init, Receiver.init] at found⟩, Nat.zero_le _⟩

theorem HoldsUpTo.written {r : Receiver} {bound : Nat} (holds : HoldsUpTo r bound) :
    r.written.length ≤ bound + 1 := by
  obtain ⟨out, entries, tracks, numbers⟩ := holds
  rw [tracks.written_length]
  cases out using List.reverseRecOn with
  | nil => exact Nat.zero_le _
  | append_singleton before last =>
      have last_number := numbers before.length last (Or.inl (by simp))
      rw [List.length_append, List.length_singleton]
      omega

theorem HoldsUpTo.mono {r : Receiver} {bound bound' : Nat} (holds : HoldsUpTo r bound)
    (le : bound ≤ bound') : HoldsUpTo r bound' := by
  obtain ⟨out, entries, tracks, numbers⟩ := holds
  exact ⟨out, entries, tracks, fun number pkt has => (numbers number pkt has).trans le⟩

section

variable {sys : Sys} {input : List Byte} {s : InOrder}

/-! Nothing that is still to come is too old. -/

theorem InOrderValid.chunkInTime (valid : InOrderValid sys input s) {index : Nat}
    {entry : Nat × Datagram} (behind : s.dataPassed ≤ index)
    (found : s.joint.sender.state.sent[index]? = some entry) : ChunkInTime s.joint entry := by
  have joint := jointReachable_valid valid.reachable
  obtain ⟨bound, ahead, holds⟩ := valid.data
  obtain ⟨number, chunk, timestamp, _, _, bytes, le, near, _⟩ :=
    joint.sender.transfers (List.mem_of_getElem? found)
  have arc := joint.arc.1
  have written := holds.written
  have later := ahead.remaining index entry behind found
  rw [ChunkInTime, chunkNumber_eq sys bytes le near]
  omega

theorem InOrderValid.answerInTime (valid : InOrderValid sys input s) {index : Nat}
    {entry : Nat × Datagram} (behind : s.answersPassed ≤ index)
    (found : s.joint.receiver.state.sent[index]? = some entry) : AnswerInTime s.joint entry := by
  have joint := jointReachable_valid valid.reachable
  obtain ⟨bound, ahead, acknowledged⟩ := valid.answers
  have arc := joint.arc.2
  have transfers := (transfers_length s.joint.sender).2
  have size := joint.sender.list_length
  have later := ahead.remaining index entry behind found
  intro _
  omega

theorem Undecodable.permitted {event : JointEvent} (undecodable : Undecodable sys event)
    (joint : Joint) : Permitted sys joint event := by
  cases event with
  | receiver event =>
      cases event with
      | selectTimeout => exact trivial
      | selectError => exact trivial
      | readable datagram stale =>
          cases datagram with
          | none => exact trivial
          | some datagram => exact Or.inr undecodable
  | sender event =>
      cases event with
      | selectError => exact trivial
      | fileReadable => exact trivial
      | selectTimeout => exact trivial
      | socketReadable datagram stale =>
          cases datagram with
          | none => exact trivial
          | some datagram => exact Or.inr undecodable

theorem dataEvent_found {joint : Joint} {index : Nat} {entry : Nat × Datagram}
    (found : joint.sender.state.sent[index]? = some entry) (cut : Bool) (stale : Memory) :
    dataEvent joint index cut stale =
      .receiver (.readable (some (if cut then cutToHeader entry.2 else entry.2)) stale) := by
  rw [dataEvent, found]
  rfl

theorem answerEvent_found {joint : Joint} {index : Nat} {entry : Nat × Datagram}
    (found : joint.receiver.state.sent[index]? = some entry) (stale : Memory) :
    answerEvent joint index stale = .sender (.socketReadable (some entry.2) stale) := by
  rw [answerEvent, found]
  rfl

theorem InOrderValid.step_reachable (valid : InOrderValid sys input s) {event : InOrderEvent}
    (allowed : InOrderAllowed sys s event) :
    JointReachable sys input (inOrderStep sys s event).joint := by
  cases event with
  | other event => exact valid.reachable.next (Undecodable.permitted allowed s.joint)
  | data index cut stale =>
      obtain ⟨behind, bound⟩ := allowed
      have found := List.getElem?_eq_getElem bound
      suffices permitted : Permitted sys s.joint (dataEvent s.joint index cut stale) from
        valid.reachable.next permitted
      rw [dataEvent_found found]
      refine Or.inl ⟨_, List.getElem_mem bound, valid.chunkInTime behind found, ?_⟩
      cases cut with
      | false => exact Or.inl rfl
      | true => exact Or.inr rfl
  | answer index stale =>
      obtain ⟨behind, bound⟩ := allowed
      have found := List.getElem?_eq_getElem bound
      suffices permitted : Permitted sys s.joint (answerEvent s.joint index stale) from
        valid.reachable.next permitted
      rw [answerEvent_found found]
      exact Or.inl ⟨_, List.getElem_mem bound, valid.answerInTime behind found, rfl⟩

/-! Steps of the receiver. -/

theorem Outcome.has {r after : Receiver} {out : List Pkt} {entries : List (Nat × Pkt)} {pkt : Pkt}
    {code : Int} (outcome : Outcome sys r out entries pkt code after)
    (tracks : Tracks r out entries) :
    ∃ out' entries', Tracks after out' entries' ∧ ∀ number found, Has out' entries' number found →
      Has out entries number found ∨ number = absoluteNumber out.length pkt ∧ pktGetTr pkt ≠ 1 ∧
        r.checkInWindow (pktGetSeqnum pkt) = true := by
  cases outcome with
  | notData _ => exact ⟨out, entries, tracks, fun _ _ => Or.inl⟩
  | truncated _ _ => exact ⟨out, entries, tracks.nacked sys pkt, fun _ _ => Or.inl⟩
  | @accepted _ _ out' rest _ whole inWindow accepted =>
      refine ⟨out', rest, accepted.tracks, fun number found has => ?_⟩
      rw [accepted.drains.has_iff] at has
      rcases has with delivered | held
      · exact Or.inl (Or.inl delivered)
      · rcases insertAt_number_mem _ _ _ _ held with new | before
        · exact Or.inr ⟨(Prod.mk.inj new).1, whole, inWindow⟩
        · exact Or.inl (Or.inr before)
  | closed _ _ _ _ => exact ⟨out, entries, tracks.closed sys pkt, fun _ _ => Or.inl⟩
  | outOfWindow _ _ _ _ => exact ⟨out, entries, tracks.reacknowledged sys pkt, fun _ _ => Or.inl⟩

/-- A step of the receiver keeps what it holds within the bound, if the packet that arrives is. -/
theorem HoldsUpTo.step {process : ReceiverProcess} {bound : Nat}
    (holds : HoldsUpTo process.state bound) {event : ReceiverEvent}
    (within : ∀ datagram stale pkt, event = .readable (some datagram) stale →
      Decodes sys datagram stale pkt → pktGetTr pkt ≠ 1 →
      process.state.checkInWindow (pktGetSeqnum pkt) = true →
      absoluteNumber process.state.written.length pkt ≤ bound) :
    HoldsUpTo (processReceiver sys process event).state bound := by
  obtain ⟨out, entries, tracks, numbers⟩ := holds
  rcases processReceiver_cases sys process event with
    same | freed | ⟨_, datagram, stale, pkt, arrival, decodes, state⟩
  · rw [same]
    exact ⟨out, entries, tracks, numbers⟩
  · rw [freed]
    refine ⟨out, [], tracks.freed, ?_⟩
    rintro number pkt (delivered | held)
    · exact numbers number pkt (Or.inl delivered)
    · exact absurd held List.not_mem_nil
  · obtain ⟨out', entries', tracks', has⟩ :=
      (readPacketR_outcome sys tracks decodes.valid).has tracks
    rw [state]
    refine ⟨out', entries', tracks', fun number found held => ?_⟩
    rcases has number found held with old | ⟨rfl, whole, inWindow⟩
    · exact numbers number found old
    · rw [← tracks.written_length]
      exact within datagram stale pkt arrival decodes whole inWindow

theorem InOrderValid.data_within (valid : InOrderValid sys input s) {index : Nat}
    {entry : Nat × Datagram} (behind : s.dataPassed ≤ index)
    (found : s.joint.sender.state.sent[index]? = some entry) {cut : Bool} {stale : Memory}
    {pkt : Pkt} (decodes : Decodes sys (if cut then cutToHeader entry.2 else entry.2) stale pkt)
    (whole : pktGetTr pkt ≠ 1)
    (inWindow : s.joint.receiver.state.checkInWindow (pktGetSeqnum pkt) = true) :
    absoluteNumber s.joint.receiver.state.written.length pkt ≤ entry.1 := by
  have joint := jointReachable_valid valid.reachable
  have transfers := joint.sender.transfers (List.mem_of_getElem? found)
  have number_le : chunkNumber entry ≤ entry.1 := by
    obtain ⟨number, chunk, timestamp, _, _, bytes, le, near, _⟩ := id transfers
    rwa [chunkNumber_eq sys bytes le near]
  cases cut with
  | true =>
      obtain ⟨_, _, _, _, _, bytes, _⟩ := transfers
      have nonempty : entry.2 ≠ [] := by
        rw [bytes, packetBytes]
        exact List.cons_ne_nil _ _
      exact absurd (decodes.cut_getTr nonempty) whole
  | false =>
      obtain ⟨other, arrives, carries⟩ := transfers.decodes stale
      obtain rfl := decodes.unique arrives
      rw [joint.accepted_number carries.seqnum transfers.number_le (valid.chunkInTime behind found)
        inWindow]
      exact number_le

/-! Steps of the sender. -/

/-- A step of the sender takes nothing off its list that the answers up to the bound do not cover. -/
theorem JointValid.keeps_acknowledged {joint : Joint} (valid : JointValid sys input joint)
    {bound bound' : Nat} (le : bound ≤ bound')
    (acknowledged : joint.sender.state.reads.length ≤ bound + joint.sender.state.list.length)
    {event : SenderEvent}
    (arrives : joint.sender.stage ≠ .returned 0 → ∀ datagram stale pkt,
      event = .socketReadable (some datagram) stale → Decodes sys datagram stale pkt →
      pktGetType pkt = ptypeAck → ∃ ack, pktGetSeqnum pkt = ack % 256 ∧ bound ≤ ack ∧
        ack ≤ bound' ∧ ack ≤ joint.sender.state.reads.length) :
    (processSender sys joint.sender event).state.reads.length ≤
      bound' + (processSender sys joint.sender event).state.list.length := by
  by_cases finished : joint.sender.stage = .returned 0
  · rw [processSender_finished finished]
    omega
  rcases processSender_cases valid.sender event with
    ⟨_, more, reads, length, _⟩ | ⟨arrived, stale, base, code, rfl, outstanding, outcome⟩
  · rw [reads, List.length_append, length]
    omega
  · have size := valid.sender.list_length
    have length := outstanding.length
    have reads := outcome.reads
    generalize (processSender sys joint.sender (.socketReadable arrived stale)).state = after at *
    cases outcome with
    | dropped => omega
    | windowOnly _ _ _ _ =>
        show joint.sender.state.reads.length ≤ bound' + joint.sender.state.list.length
        omega
    | @removed datagram pkt base' rest arrival decodes isAck kept le' removed stopped _ =>
        obtain ⟨ack, seqnum, low, high, read⟩ :=
          arrives finished datagram stale pkt (by rw [arrival]) decodes isAck
        have last := acks_exactly seqnum le' (by have := kept.length; omega) (by omega) read (by omega)
          removed stopped
        have keptLength := kept.length
        show joint.sender.state.reads.length ≤ bound' + rest.length
        omega

/-! The whole system. -/

theorem inOrderStep_valid (event : InOrderEvent) (valid : InOrderValid sys input s)
    (allowed : InOrderAllowed sys s event) : InOrderValid sys input (inOrderStep sys s event) := by
  have joint := jointReachable_valid valid.reachable
  have reachable := valid.step_reachable allowed
  obtain ⟨dataBound, dataAhead, holds⟩ := valid.data
  obtain ⟨answerBound, answersAhead, acknowledged⟩ := valid.answers
  cases event with
  | data index cut stale =>
      obtain ⟨behind, inside⟩ := allowed
      have found := List.getElem?_eq_getElem inside
      have logs := processReceiver_logs sys s.joint.receiver (.readable
        (some (if cut then cutToHeader s.joint.sender.state.sent[index].2
          else s.joint.sender.state.sent[index].2)) stale)
      simp only [inOrderStep, dataEvent_found found] at reachable ⊢
      refine
        { reachable
          dataLog := valid.dataLog
          answerLog := valid.answerLog.extend logs
          data := ⟨_, valid.dataLog.ahead found, ?_⟩
          answers := ⟨answerBound, answersAhead.extend logs, acknowledged⟩ }
      refine (holds.mono (dataAhead.remaining index _ behind found)).step ?_
      intro datagram stale' pkt arrival decodes whole inWindow
      obtain ⟨arrived, rfl⟩ := ReceiverEvent.readable.inj arrival
      obtain rfl := Option.some.inj arrived
      exact valid.data_within behind found decodes whole inWindow
  | answer index stale =>
      obtain ⟨behind, inside⟩ := allowed
      have found := List.getElem?_eq_getElem inside
      have later := answersAhead.remaining index _ behind found
      have logs := processSender_logs sys joint.sender
        (.socketReadable (some s.joint.receiver.state.sent[index].2) stale)
      simp only [inOrderStep, answerEvent_found found] at reachable ⊢
      refine
        { reachable
          dataLog := valid.dataLog.extend logs
          answerLog := valid.answerLog
          data := ⟨dataBound, dataAhead.extend logs, holds⟩
          answers := ⟨_, valid.answerLog.ahead found, ?_⟩ }
      refine joint.keeps_acknowledged later acknowledged ?_
      intro running datagram stale' pkt arrival decodes isAck
      obtain ⟨arrived, rfl⟩ := SenderEvent.socketReadable.inj arrival
      obtain rfl := Option.some.inj arrived
      have answered := (joint.answers _ (List.getElem_mem inside)).decodes (Int.le_refl 31) decodes
      have written := joint.arc.2
      rw [transfers_of_running running] at written
      exact ⟨_, answered.seqnum isAck, later, Nat.le_refl _, answered.old.trans written⟩
  | other event =>
      cases event with
      | receiver event =>
          have logs := processReceiver_logs sys s.joint.receiver event
          refine
            { reachable
              dataLog := valid.dataLog
              answerLog := valid.answerLog.extend logs
              data := ⟨dataBound, dataAhead, holds.step ?_⟩
              answers := ⟨answerBound, answersAhead.extend logs, acknowledged⟩ }
          rintro datagram stale pkt rfl decodes
          exact absurd decodes (allowed pkt)
      | sender event =>
          have logs := processSender_logs sys joint.sender event
          refine
            { reachable
              dataLog := valid.dataLog.extend logs
              answerLog := valid.answerLog
              data := ⟨dataBound, dataAhead.extend logs, holds⟩
              answers := ⟨answerBound, answersAhead,
                joint.keeps_acknowledged (Nat.le_refl _) acknowledged ?_⟩ }
          rintro _ datagram stale pkt rfl decodes
          exact absurd decodes (allowed pkt)

theorem inOrderReachable_valid (reached : InOrderReachable sys input s) :
    InOrderValid sys input s :=
  reached.invariant (InOrderValid sys input) (init_inOrderValid sys input)
    fun _ event valid allowed => inOrderStep_valid event valid allowed

end

/-- A run over links that do not reorder is a run within the lifetimes of the datagrams, so that at
every moment the bytes written are a prefix of the bytes read, if `write` takes what it is given. -/
theorem inOrder_safe {sys : Sys} {input : List Byte} {s : InOrder}
    (reached : InOrderReachable sys input s) :
    JointReachable sys input s.joint ∧ (sys.WritesAll →
      s.joint.receiver.state.written.flatten <+: s.joint.sender.state.reads.flatten) := by
  have reachable := (inOrderReachable_valid reached).reachable
  exact ⟨reachable, (jointReachable_valid reachable).written_within⟩

def inOrderEvents : List InOrderEvent :=
  [.other (.sender .fileReadable), .other (.sender .selectTimeout), .other (.sender .selectTimeout),
    .data 0 false fun _ => 0, .data 0 true fun _ => 0, .answer 0 fun _ => 0]

def inOrderRun : InOrder := inOrderEvents.foldl (inOrderStep Sys.faultless) (InOrder.init [0x61])

theorem inOrderRun_reachable : InOrderReachable Sys.faultless [0x61] inOrderRun :=
  reachable_along ⟨trivial, trivial, trivial, ⟨by decide +kernel, by decide +kernel⟩,
    ⟨by decide +kernel, by decide +kernel⟩, ⟨by decide +kernel, by decide +kernel⟩, trivial⟩

theorem inOrder_safe_events :
    JointReachable Sys.faultless [0x61] inOrderRun.joint ∧
      inOrderRun.joint.receiver.state.written.flatten <+:
        inOrderRun.joint.sender.state.reads.flatten := by
  obtain ⟨reachable, safe⟩ := inOrder_safe inOrderRun_reachable
  exact ⟨reachable, safe Sys.faultless_writesAll⟩

end SelectiveRepeat
