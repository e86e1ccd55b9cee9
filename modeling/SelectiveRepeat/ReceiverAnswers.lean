import Mathlib.Data.List.Find
import SelectiveRepeat.ReceiverAdvance
import SelectiveRepeat.Truncation

/-! What the receiver answers: whether an intact DATA packet is acknowledged, and what
the control packets it sends look like. -/

namespace SelectiveRepeat

open Bytes Circle Reassembly

section

variable (sys : Sys) {r : Receiver} {out : List Pkt} {head : Nat × Pkt} {rest : List (Nat × Pkt)}

/-! `write_in_sequence`, by the first packet of the list. -/

theorem Tracks.afterSequence_wrapped (tracks : Tracks r out (head :: rest))
    (wrapped : (pktGetSeqnum head.2 : Int) < r.waitedSeqnum) :
    afterSequence sys (writeInSequence sys r) = (0, r) := by
  rw [tracks.writeInSequence_eq, if_neg (not_lt_of_gt wrapped), List.map_cons,
    writeInSequenceLoop_cons, if_neg (ne_of_lt wrapped)]
  rfl

theorem Tracks.afterSequence_refused (tracks : Tracks r out (head :: rest))
    (inTurn : (pktGetSeqnum head.2 : Int) = r.waitedSeqnum)
    (refused : sys.write r.writeCalls (pktGetLength head.2) = none) :
    afterSequence sys (writeInSequence sys r) =
      (-1, { r with writeCalls := r.writeCalls + 1 }) := by
  have notAhead : ¬(pktGetSeqnum head.2 : Int) > r.waitedSeqnum := by
    rw [inTurn]
    exact lt_irrefl _
  rw [tracks.writeInSequence_eq, if_neg notAhead, List.map_cons, writeInSequenceLoop_cons,
    if_pos inTurn, refused]
  rfl

theorem Tracks.afterSequence_writes (tracks : Tracks r out (head :: rest))
    (inTurn : (pktGetSeqnum head.2 : Int) = r.waitedSeqnum) {writed : Nat}
    (wrote : sys.write r.writeCalls (pktGetLength head.2) = some writed) :
    (afterSequence sys (writeInSequence sys r)).1 = -2 ∨
      LastAck sys (afterSequence sys (writeInSequence sys r)).2 ∧
        ∃ answer later,
          (afterSequence sys (writeInSequence sys r)).2.sent = r.sent ++ answer :: later := by
  have notAhead : ¬(pktGetSeqnum head.2 : Int) > r.waitedSeqnum := by
    rw [inTurn]
    exact lt_irrefl _
  have due := tracks.head_due_iff.mp inTurn
  have popped := tracks.pop due ((pktGetPayload head.2).take writed)
  rw [tracks.writeInSequence_eq, if_neg notAhead, List.map_cons, writeInSequenceLoop_cons,
    if_pos inTurn, wrote]
  dsimp only
  split_ifs with ended
  · exact Or.inl rfl
  obtain ⟨out', rest', drained⟩ := writeInSequenceLoop_drains sys (popped.acknowledge sys)
  obtain ⟨_, lastAck⟩ := popped.grows_acknowledged sys
  obtain ⟨later, sent, _⟩ := drained.grows.sent
  rw [acknowledged_sent sys popped.window popped.waited_written, List.append_assoc] at sent
  generalize writeInSequenceLoop sys (rest.map Prod.snd) _ = result at drained sent ⊢
  obtain ⟨code, after⟩ := result
  by_cases goes : code = -10
  · left
    rw [goes]
    rfl
  · right
    have same : (afterSequence sys (code, after)).2 = after := by
      rcases drained.ended with rfl | rfl | ⟨ended, _⟩
      · rfl
      · rfl
      · exact absurd ended goes
    rw [same]
    exact ⟨drained.lastAck goes (Or.inl lastAck), _, later, sent⟩

end

/-! The two ways to stay silent. -/

/-- Everything held, the new packet included, has its seqnum behind the wrap while the receiver
still waits before it. -/
def GapWraps (r : Receiver) (pkt : Pkt) : Prop :=
  ∀ held ∈ pkt :: r.list, (pktGetSeqnum held : Int) < r.waitedSeqnum

def WriteRefused (sys : Sys) (r : Receiver) (pkt : Pkt) : Prop :=
  ∃ due, (r.list ++ [pkt]).find? (fun held => (pktGetSeqnum held : Int) = r.waitedSeqnum) = some due ∧
    sys.write r.writeCalls (pktGetLength due) = none

section

variable {r : Receiver} {out : List Pkt} {entries : List (Nat × Pkt)} {pkt : Pkt} {head : Nat × Pkt}
  {rest : List (Nat × Pkt)}

theorem Tracks.entry_due_iff (tracks : Tracks r out entries) {entry : Nat × Pkt}
    (member : entry ∈ entries) :
    (pktGetSeqnum entry.2 : Int) = r.waitedSeqnum ↔ entry.1 = out.length := by
  obtain ⟨due, arc⟩ := tracks.arc entry member
  have seqnum := tracks.numbered entry member
  simp only [Comparable] at arc
  rw [tracks.waited, seqnum]
  omega

theorem Tracks.find_inTurn (tracks : Tracks r out entries) :
    r.list.find? (fun held => (pktGetSeqnum held : Int) = r.waitedSeqnum) =
      (entries.find? fun entry => entry.1 = out.length).map Prod.snd := by
  rw [tracks.list, List.find?_map]
  congr 1
  apply List.find?_congr
  intro entry member
  simp only [Function.comp_apply, decide_eq_decide]
  exact tracks.entry_due_iff member

theorem absoluteNumber_due_iff {written : Nat} (pkt : Pkt) :
    (pktGetSeqnum pkt : Int) = (written % 256 : Nat) ↔ absoluteNumber written pkt = written := by
  have residue := absoluteNumber_mod written pkt
  obtain ⟨due, near⟩ := absoluteNumber_bounds written pkt
  rw [← residue]
  omega

theorem Tracks.inTurn_eq (tracks : Tracks r out entries) (pkt : Pkt) :
    (r.list ++ [pkt]).find? (fun held => (pktGetSeqnum held : Int) = r.waitedSeqnum) =
      ((insertAt (absoluteNumber out.length pkt) pkt entries).find? fun entry =>
        entry.1 = out.length).map Prod.snd := by
  rw [List.find?_append, tracks.find_inTurn, find_insertAt _ _ tracks.sorted, Option.map_or]
  congr 1
  rw [List.find?_singleton, tracks.waited]
  simp only [decide_eq_true_eq, absoluteNumber_due_iff]
  split <;> rfl

theorem Tracks.writeRefused_iff (tracks : Tracks r out entries) (sys : Sys)
    (inserted : insertAt (absoluteNumber out.length pkt) pkt entries = head :: rest)
    (listed : Tracks (taken r pkt) out (head :: rest)) :
    WriteRefused sys r pkt ↔ (pktGetSeqnum head.2 : Int) = r.waitedSeqnum ∧
      sys.write r.writeCalls (pktGetLength head.2) = none := by
  have due : (pktGetSeqnum head.2 : Int) = r.waitedSeqnum ↔ head.1 = out.length :=
    listed.head_due_iff
  rw [WriteRefused, tracks.inTurn_eq, inserted, due]
  by_cases inTurn : head.1 = out.length
  · rw [List.find?_cons_of_pos (by simpa using inTurn)]
    simp [inTurn]
  · have above := (List.pairwise_cons.mp listed.sorted).1
    have low := (listed.arc head List.mem_cons_self).1
    have vacant : rest.find? (fun entry => entry.1 = out.length) = none := by
      rw [List.find?_eq_none]
      intro entry member
      have next := above entry member
      rw [decide_eq_true_eq]
      omega
    rw [List.find?_cons_of_neg (by simpa using inTurn), vacant]
    simp [inTurn]

theorem Tracks.gapWraps_iff (tracks : Tracks r out entries)
    (inserted : insertAt (absoluteNumber out.length pkt) pkt entries = head :: rest)
    (listed : Tracks (taken r pkt) out (head :: rest)) :
    GapWraps r pkt ↔ (pktGetSeqnum head.2 : Int) < r.waitedSeqnum := by
  have members := insertAt_number_mem (absoluteNumber out.length pkt) pkt entries
  rw [inserted] at members
  constructor
  · intro wraps
    rcases members head List.mem_cons_self with rfl | old
    · exact wraps pkt List.mem_cons_self
    · apply wraps
      rw [tracks.list]
      exact List.mem_cons_of_mem pkt (List.mem_map_of_mem old)
  · intro wrapped
    have above := (List.pairwise_cons.mp listed.sorted).1
    have headSeqnum := listed.numbered head List.mem_cons_self
    have headDue := (listed.arc head List.mem_cons_self).1
    rw [headSeqnum, tracks.waited] at wrapped
    have behind : ∀ entry ∈ head :: rest, entry.1 % 256 < out.length % 256 := by
      intro entry member
      have arc := (listed.arc entry member).2
      simp only [Comparable] at arc
      rcases List.mem_cons.mp member with rfl | later
      · omega
      · have next := above entry later
        omega
    intro held member
    rw [tracks.waited]
    rcases List.mem_cons.mp member with rfl | old
    · obtain ⟨found, here⟩ := exists_insertAt (absoluteNumber out.length held) held entries
      rw [inserted] at here
      have wraps := behind _ here
      rw [absoluteNumber_mod] at wraps
      omega
    · rw [tracks.list] at old
      obtain ⟨entry, entryMember, rfl⟩ := List.mem_map.mp old
      have still : entry ∈ head :: rest := by
        rw [← inserted]
        exact (mem_insertAt_iff _ _ tracks.sorted entry).mpr (Or.inl entryMember)
      have wraps := behind entry still
      rw [tracks.numbered entry entryMember]
      omega

end

/-! The last ACK of a step. -/

theorem decodes_controlPkt (sys : Sys) {type window : Nat} (positive : 1 ≤ type) (small : type ≤ 3)
    (fits : window ≤ 31) (seqnum : Nat) (timestamp : BitVec 32) (stale : Memory) :
    ∃ control, Decodes sys (packetBytes sys.crc32 (controlPkt type seqnum window timestamp)) stale
        control ∧
      pktGetTr control ≠ 1 ∧ pktGetType control = type ∧ pktGetSeqnum control = seqnum % 256 ∧
      pktGetLength control = 0 ∧ pktGetWindow control = window ∧ pktGetTimestamp control = timestamp :=
  ⟨_, decodes_packetBytes sys (controlPkt_valid positive small seqnum window timestamp) stale,
    Nat.zero_ne_one, controlPkt_getType small seqnum window timestamp,
    controlPkt_getSeqnum type seqnum window timestamp, rfl,
    controlPkt_getWindow fits type seqnum timestamp, rfl⟩

def IsAck (sys : Sys) (datagram : Datagram) (seqnum : Int) : Prop :=
  ∀ stale, ∃ ack, Decodes sys datagram stale ack ∧ pktGetType ack = ptypeAck ∧
    (pktGetSeqnum ack : Int) = seqnum

/-- At least one ACK was sent, and the last one carries what the receiver waits for afterwards. -/
def AnsweredByAck (sys : Sys) (r after : Receiver) : Prop :=
  ∃ earlier last later, after.sent = r.sent ++ (earlier ++ last :: later) ∧
    IsAck sys last.2 after.waitedSeqnum ∧ ∀ other ∈ later, ∀ seqnum, ¬IsAck sys other.2 seqnum

theorem ackEntry_isAck (sys : Sys) (number : Nat) {window : Nat} (fits : window ≤ 31)
    (timestamp : BitVec 32) :
    IsAck sys (ackEntry sys number window timestamp).2 (number % 256 : Nat) := by
  intro stale
  obtain ⟨ack, decodes, _, type, seqnum, _⟩ :=
    decodes_controlPkt sys (show 1 ≤ ptypeAck by decide) (by decide) fits number timestamp stale
  exact ⟨ack, decodes, type, congrArg Nat.cast seqnum⟩

theorem LastAck.answered {sys : Sys} {r after : Receiver} (lastAck : LastAck sys after)
    (window : after.WindowValid) (waited : after.waitedSeqnum = (after.written.length % 256 : Nat))
    {answer : Nat × Datagram} {later : List (Nat × Datagram)} (sent : after.sent = r.sent ++ answer :: later) :
    AnsweredByAck sys r after := by
  rw [LastAck, sent, List.getLast?_append_of_ne_nil _ (List.cons_ne_nil _ _),
    List.getLast?_eq_some_iff] at lastAck
  obtain ⟨earlier, same⟩ := lastAck
  refine ⟨earlier, _, [], by rw [sent, same], ?_, List.forall_mem_nil _⟩
  have high := window.high
  rw [waited]
  exact ackEntry_isAck sys _ (by omega) _

theorem not_answered_silent {sys : Sys} {r after : Receiver} (silent : after.sent = r.sent) :
    ¬AnsweredByAck sys r after := by
  rintro ⟨earlier, last, later, sent, _⟩
  have size := congrArg List.length sent
  rw [silent] at size
  simp only [List.length_append, List.length_cons] at size
  omega

def DataAnswered (sys : Sys) (r : Receiver) (arrival : Arrival) : Prop :=
  (readToListR sys r arrival.1 arrival.2).1 = -2 ∨
    AnsweredByAck sys r (readToListR sys r arrival.1 arrival.2).2

section

variable {sys : Sys} {r : Receiver} {out : List Pkt} {entries : List (Nat × Pkt)} {arrival : Arrival}
  {pkt : Pkt}

theorem answered_accepted_iff (tracks : Tracks r out entries) (brings : Brings sys arrival pkt)
    (accepts : r.Accepts pkt) :
    DataAnswered sys r arrival ↔ ¬(GapWraps r pkt ∨ WriteRefused sys r pkt) := by
  obtain ⟨head, rest, inserted, listed⟩ := tracks.insertHead brings.valid accepts.inWindow
  have waited : (taken r pkt).waitedSeqnum = r.waitedSeqnum := rfl
  have result := brings.read_accepted accepts
  rw [DataAnswered, tracks.gapWraps_iff inserted listed, tracks.writeRefused_iff sys inserted listed,
    result]
  rcases lt_trichotomy (pktGetSeqnum head.2 : Int) r.waitedSeqnum with wrapped | inTurn | ahead
  · rw [listed.afterSequence_wrapped sys wrapped]
    refine iff_of_false ?_ (not_not.mpr (Or.inl wrapped))
    rintro (ended | answered)
    · exact absurd ended (by simp)
    · exact not_answered_silent rfl answered
  · cases wrote : sys.write r.writeCalls (pktGetLength head.2) with
    | none =>
        rw [listed.afterSequence_refused sys inTurn wrote]
        refine iff_of_false ?_ (not_not.mpr (Or.inr ⟨inTurn, rfl⟩))
        rintro (ended | answered)
        · exact absurd ended (by simp)
        · exact not_answered_silent rfl answered
    | some writed =>
        have notWrapped : ¬(pktGetSeqnum head.2 : Int) < r.waitedSeqnum := by
          rw [inTurn]
          exact lt_irrefl _
        refine iff_of_true ?_ ?_
        · rcases listed.afterSequence_writes sys inTurn wrote with ended | ⟨lastAck, _, _, sent⟩
          · exact Or.inl ended
          · obtain ⟨_, _, accepted⟩ :=
              afterSequence_accepted sys tracks brings.valid accepts.inWindow rfl
            exact Or.inr (lastAck.answered accepted.tracks.window accepted.tracks.waited_written sent)
        · rintro (wrapped | ⟨_, refused⟩)
          · exact notWrapped wrapped
          · exact absurd refused (Option.some_ne_none writed)
  · rw [listed.afterSequence_ahead sys ahead]
    refine iff_of_true (Or.inr ?_) ?_
    · exact LastAck.answered (List.getLast?_concat ..) ⟨listed.window.low, listed.window.high⟩
        listed.waited_written rfl
    · rintro (wrapped | ⟨inTurn, _⟩)
      · exact absurd wrapped (not_lt_of_gt ahead)
      · exact absurd inTurn (ne_of_gt ahead)

theorem answered_outside (tracks : Tracks r out entries) (brings : Brings sys arrival pkt)
    (data : pktGetType pkt = ptypeData) (whole : pktGetTr pkt ≠ 1)
    (outside : r.checkInWindow (pktGetSeqnum pkt) = false) : DataAnswered sys r arrival := by
  have window := tracks.window
  rw [DataAnswered, brings.read]
  by_cases last : (pktGetSeqnum pkt : Int) = r.waitedSeqnum - 1 ∧ pktGetLength pkt = 0
  · rw [readPacketR_closed sys brings.valid data whole outside last.1 last.2 window]
    exact Or.inl rfl
  · have notLast : (pktGetSeqnum pkt : Int) = r.waitedSeqnum - 1 → pktGetLength pkt ≠ 0 :=
      fun seqnum empty => last ⟨seqnum, empty⟩
    rw [readPacketR_outOfWindow sys brings.valid data whole outside notLast window
      tracks.waited_written]
    right
    exact LastAck.answered (List.getLast?_concat ..) ⟨window.low, window.high⟩ tracks.waited_written
      rfl

end

/-- An intact DATA packet stays without an answer when it is taken into the list and everything
there is behind the wrap of the seqnums, or when the `write` of the packet in turn fails. -/
theorem answered_iff (sys : Sys) (arrivals : List Arrival) {arrival : Arrival} {pkt : Pkt}
    (brings : Brings sys arrival pkt) (data : pktGetType pkt = ptypeData)
    (whole : pktGetTr pkt ≠ 1) :
    DataAnswered sys (fed sys arrivals) arrival ↔
      ¬((fed sys arrivals).checkInWindow (pktGetSeqnum pkt) = true ∧
        (GapWraps (fed sys arrivals) pkt ∨ WriteRefused sys (fed sys arrivals) pkt)) := by
  obtain ⟨out, entries, tracks⟩ := fed_tracks sys arrivals
  by_cases inWindow : (fed sys arrivals).checkInWindow (pktGetSeqnum pkt) = true
  · rw [answered_accepted_iff tracks brings ⟨data, whole, inWindow⟩]
    simp only [inWindow, true_and]
  · have outside := Bool.eq_false_iff.mpr inWindow
    exact iff_of_true (answered_outside tracks brings data whole outside) fun silent =>
      inWindow silent.1

theorem onePkt_brings : Brings Sys.faultless (intact Sys.faultless onePkt)
    (decodedPkt Sys.faultless.crc32 onePkt) :=
  brings_intact Sys.faultless onePkt_valid

theorem answered_iff_one :
    DataAnswered Sys.faultless (fed Sys.faultless []) (intact Sys.faultless onePkt) ↔
      ¬((fed Sys.faultless []).checkInWindow
          (pktGetSeqnum (decodedPkt Sys.faultless.crc32 onePkt)) = true ∧
        (GapWraps (fed Sys.faultless []) (decodedPkt Sys.faultless.crc32 onePkt) ∨
          WriteRefused Sys.faultless (fed Sys.faultless [])
            (decodedPkt Sys.faultless.crc32 onePkt))) :=
  answered_iff Sys.faultless [] onePkt_brings rfl Nat.zero_ne_one

def wrappedPkt : Pkt := dataPkt 256 [0x62] 0

theorem wrappedPkt_brings : Brings Sys.faultless (intact Sys.faultless wrappedPkt)
    (decodedPkt Sys.faultless.crc32 wrappedPkt) :=
  brings_intact Sys.faultless (dataPkt_valid (by decide) 256 0)

/-- Packet 256 overtakes packet 255: it is held, and no ACK says that 255 is missing. -/
theorem silent_at_wrap :
    pktGetType (decodedPkt Sys.faultless.crc32 wrappedPkt) = ptypeData ∧
      pktGetTr (decodedPkt Sys.faultless.crc32 wrappedPkt) ≠ 1 ∧
      ¬DataAnswered Sys.faultless (fed Sys.faultless (inOrderFeed Sys.faultless 255))
        (intact Sys.faultless wrappedPkt) := by
  refine ⟨rfl, Nat.zero_ne_one, ?_⟩
  obtain ⟨window, out, size, tracks⟩ := fed_inOrder Sys.faultless_writesAll 255
  have waited := tracks.waited
  have seqnum : pktGetSeqnum (decodedPkt Sys.faultless.crc32 wrappedPkt) = 0 := rfl
  rw [size] at waited
  have inWindow : (fed Sys.faultless (inOrderFeed Sys.faultless 255)).checkInWindow
      (pktGetSeqnum (decodedPkt Sys.faultless.crc32 wrappedPkt)) = true := by
    rw [Receiver.checkInWindow, waited, window, seqnum]
    decide
  rw [answered_accepted_iff tracks wrappedPkt_brings ⟨rfl, Nat.zero_ne_one, inWindow⟩]
  refine not_not.mpr (Or.inl ?_)
  intro held member
  rw [tracks.list] at member
  obtain rfl := List.mem_singleton.mp member
  rw [waited, seqnum]
  decide

end SelectiveRepeat
