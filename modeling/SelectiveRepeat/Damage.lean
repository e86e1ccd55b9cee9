import SelectiveRepeat.JointSafety
import SelectiveRepeat.PacketCorruption
import SelectiveRepeat.Truncation

/-! A network that also alters a byte of a datagram. The checksums reveal it, unless only TR of a
DATA packet was inverted: the receiver takes that for a cut and answers with a NACK. -/

namespace SelectiveRepeat

open Bytes Crc Runs

/-- One byte has another value. -/
def Damaged (arrived sent : Datagram) : Prop :=
  ∃ (index : Nat) (byte : Byte) (inside : index < sent.length),
    byte ≠ sent[index] ∧ arrived = sent.set index byte

/-- A datagram arrives with a byte altered. What lies behind it in the buffer of `recv` is arbitrary. -/
def Alters (joint : Joint) : JointEvent → Prop
  | .receiver (.readable (some datagram) _) =>
      ∃ entry ∈ joint.sender.state.sent, ChunkInTime joint entry ∧ Damaged datagram entry.2
  | .sender (.socketReadable (some datagram) _) =>
      ∃ entry ∈ joint.receiver.state.sent, AnswerInTime joint entry ∧ Damaged datagram entry.2
  | _ => False

/-- The network does what it may, and may alter a byte of what it does not cut. -/
def Damaging (sys : Sys) (joint : Joint) (event : JointEvent) : Prop :=
  Permitted sys joint event ∨ Alters joint event

/-- What altered datagrams can do in this state, whatever lies behind them in the buffer: no more than
a failed `recv`, or the running receiver answers a packet whose TR was inverted with the NACK. -/
structure Harmless (sys : Sys) (joint : Joint) : Prop where
  data : ∀ entry ∈ joint.sender.state.sent, ∀ arrived stale, Damaged arrived entry.2 →
    processReceiver sys joint.receiver (.readable (some arrived) stale) =
        processReceiver sys joint.receiver (.readable none stale) ∨
      ∃ pkt after, entry.2 = packetBytes sys.crc32 pkt ∧
        arrived = packetBytes sys.crc32 (trInverted pkt) ∧
        processReceiver sys joint.receiver (.readable (some arrived) stale) = ⟨after, none⟩ ∧
        AnsweredByNack sys joint.receiver.state after pkt
  answers : ∀ entry ∈ joint.receiver.state.sent, ∀ arrived stale, Damaged arrived entry.2 →
    processSender sys joint.sender (.socketReadable (some arrived) stale) =
      processSender sys joint.sender (.socketReadable none stale)

/-! What a damaged datagram decodes to. -/

section

variable {sys : Sys} {pkt : Pkt} {arrived : Datagram} {stale : Memory}

theorem recvBuffer_inside {datagram : Datagram} (short : datagram.length ≤ 528) (stale : Memory)
    {index : Nat} (inside : index < datagram.length) :
    recvBuffer datagram stale index = datagram[index] := by
  have stored := store_inside stale 0 datagram index inside
  rw [Nat.zero_add] at stored
  rw [recvBuffer, received_eq short, stored]

theorem recvBuffer_set_alters {datagram : Datagram} (short : datagram.length ≤ 528) {index : Nat}
    {byte : Byte} (inside : index < datagram.length) (differs : byte ≠ datagram[index])
    (stale : Memory) :
    AltersByte (recvBuffer (datagram.set index byte) stale) (recvBuffer datagram stale)
      datagram.length index where
  inside := inside
  differs := by
    rw [recvBuffer_inside short stale inside,
      recvBuffer_inside (by rwa [List.length_set]) stale (by rwa [List.length_set]),
      List.getElem_set_self]
    exact differs
  same := by
    intro other bound apart
    rw [recvBuffer_inside short stale bound,
      recvBuffer_inside (by rwa [List.length_set]) stale (by rwa [List.length_set]),
      List.getElem_set_ne (Ne.symm apart)]

/-- Damage is revealed, unless it inverts TR of a DATA packet and nothing else. -/
theorem Damaged.decodes (separates : SeparatesBytes sys.crc32) (valid : pkt.Valid)
    (damaged : Damaged arrived (packetBytes sys.crc32 pkt)) (stale : Memory) :
    (∀ other, ¬Decodes sys arrived stale other) ∨
      pktGetType pkt = ptypeData ∧ arrived = packetBytes sys.crc32 (trInverted pkt) := by
  obtain ⟨index, byte, inside, differs, rfl⟩ := damaged
  have size := packetBytes_length sys.crc32 pkt valid.payload
  have short : (packetBytes sys.crc32 pkt).length ≤ 528 := by
    rw [size]
    exact valid.wireSize_le
  have first : packetBytes sys.crc32 pkt = flagsByte pkt :: (packetBytes sys.crc32 pkt).tail := rfl
  by_cases hidden : index = 0 ∧ byte = flagsByte pkt ^^^ 0x20
  · obtain ⟨rfl, rfl⟩ := hidden
    have flipped : (packetBytes sys.crc32 pkt).set 0 (flagsByte pkt ^^^ 0x20) =
        packetBytes sys.crc32 (trInverted pkt) := by
      rw [packetBytes_trInverted, first, List.set_cons_zero, List.tail_cons]
    by_cases isData : pktGetType pkt = ptypeData
    · exact Or.inr ⟨isData, flipped⟩
    · left
      intro other decodes
      refine trInverted_rejected valid isData ?_ _ (congrArg Prod.fst decodes)
      rw [first]
      rfl
  · left
    intro other decodes
    have alters := recvBuffer_set_alters short inside differs stale
    rw [size] at alters
    have decoded := decodes_packetBytes sys valid stale
    rw [Decodes, received_eq short] at decoded
    rw [Decodes, received_eq (by rwa [List.length_set]), List.length_set] at decodes
    refine altered_rejected separates decoded alters ?_ (congrArg Prod.fst decodes)
    rintro rfl same
    have altered := (clearTr_eq_iff alters.differs).mp same
    rw [recvBuffer_inside short stale inside,
      recvBuffer_inside (by rwa [List.length_set]) stale (by rwa [List.length_set]),
      List.getElem_set_self] at altered
    exact hidden ⟨rfl, altered⟩

theorem leftoverMatches_packetBytes (valid : pkt.Valid) (nonempty : pkt.length ≠ 0) (stale : Memory) :
    LeftoverMatches sys.crc32 (pktGetLength pkt)
      (recvBuffer (packetBytes sys.crc32 pkt) stale) := by
  have decoded := decodes_packetBytes sys valid stale
  obtain ⟨length, _⟩ := pktDecode_slice decoded
  obtain ⟨_, _, body⟩ := (pktDecode_ok_iff sys.crc32 _ _).mp (congrArg Prod.fst decoded)
  have sum := body.resolve_left fun empty => nonempty (length.trans empty)
  rwa [PayloadSumValid, trailerField, ← length] at sum

theorem decodes_trInverted (sys : Sys) (valid : pkt.Valid) (isData : pktGetType pkt = ptypeData)
    (whole : pkt.truncated = 0) (stale : Memory) :
    ∃ inverted, Decodes sys (packetBytes sys.crc32 (trInverted pkt)) stale inverted ∧
      pktGetType inverted = ptypeData ∧ pktGetTr inverted = 1 ∧
      ∀ r, nacked sys r inverted = nacked sys r pkt := by
  refine ⟨_, decodes_packetBytes sys (trInverted_valid valid isData) stale, isData, ?_, fun _ => rfl⟩
  show (~~~pkt.truncated).toNat = 1
  rw [whole]
  rfl

theorem readToListR_trInverted (sys : Sys) {r : Receiver} (window : r.WindowValid) (valid : pkt.Valid)
    (isData : pktGetType pkt = ptypeData) (whole : pkt.truncated = 0) (stale : Memory) :
    readToListR sys r (some (packetBytes sys.crc32 (trInverted pkt))) stale =
      (0, nacked sys r pkt) := by
  obtain ⟨inverted, decodes, type, truncated, sameNack⟩ :=
    decodes_trInverted sys valid isData whole stale
  rw [readToListR_decodes decodes, readPacketR_truncated sys decodes.valid type truncated window,
    sameNack]

end

/-! What it does to the two programs. -/

section

variable {sys : Sys} {input : List Byte} {joint : Joint}

theorem processReceiver_rejected {arrived : Datagram} {stale : Memory}
    (rejected : ∀ pkt, ¬Decodes sys arrived stale pkt) (process : ReceiverProcess) :
    processReceiver sys process (.readable (some arrived) stale) =
      processReceiver sys process (.readable none stale) := by
  simp only [processReceiver]
  split
  · rfl
  · rw [readToListR_rejected rejected]
    rfl

theorem processReceiver_nacked {process : ReceiverProcess} {datagram : Datagram} {stale : Memory}
    {after : Receiver} (nacked : readToListR sys process.state (some datagram) stale = (0, after)) :
    processReceiver sys process (.readable (some datagram) stale) =
      if process.returned = none then ⟨after, none⟩ else process := by
  cases returned : process.returned with
  | some code => simp only [processReceiver, returned, Option.some_ne_none, if_false]
  | none =>
      simp only [processReceiver, returned, nacked, if_true]
      rfl

theorem processSender_ignored {process : SenderProcess} {arrived : Datagram} {stale : Memory}
    (ignored : checkAck sys process.state (some arrived) stale = (-1, process.state)) :
    processSender sys process (.socketReadable (some arrived) stale) =
      processSender sys process (.socketReadable none stale) := by
  simp only [processSender]
  split
  · rw [ignored]
    rfl
  all_goals rfl

theorem JointValid.receiver_window (valid : JointValid sys input joint) :
    joint.receiver.state.WindowValid := by
  obtain ⟨_, _, tracks, _⟩ := valid.receiver
  exact tracks.window

/-- An altered DATA packet is not decoded, or arrives with TR inverted. -/
theorem JointValid.data_damaged (valid : JointValid sys input joint)
    (separates : SeparatesBytes sys.crc32) {arrived : Datagram} (stale : Memory)
    {entry : Nat × Datagram} (sent : entry ∈ joint.sender.state.sent)
    (damaged : Damaged arrived entry.2) :
    (∀ pkt, ¬Decodes sys arrived stale pkt) ∨
      ∃ pkt, pkt.Valid ∧ pktGetType pkt = ptypeData ∧ pkt.truncated = 0 ∧
        entry.2 = packetBytes sys.crc32 pkt ∧ arrived = packetBytes sys.crc32 (trInverted pkt) := by
  obtain ⟨number, chunk, timestamp, _, short, bytes, _⟩ := valid.sender.transfers sent
  have pktValid := dataPkt_valid short number timestamp
  rw [bytes] at damaged
  rcases damaged.decodes separates pktValid stale with rejected | ⟨isData, inverted⟩
  · exact Or.inl rejected
  · exact Or.inr ⟨_, pktValid, isData, rfl, bytes, inverted⟩

theorem JointValid.answer_damaged (valid : JointValid sys input joint)
    (separates : SeparatesBytes sys.crc32) {arrived : Datagram} (stale : Memory)
    {entry : Nat × Datagram} (sent : entry ∈ joint.receiver.state.sent)
    (damaged : Damaged arrived entry.2) :
    processSender sys joint.sender (.socketReadable (some arrived) stale) =
      processSender sys joint.sender (.socketReadable none stale) := by
  obtain ⟨type, seqnum, window, timestamp, bytes, typed, _, _⟩ := valid.answers entry sent
  have pktValid := controlPkt_valid typed.1 typed.2 seqnum window timestamp
  rw [bytes] at damaged
  rcases damaged.decodes separates pktValid stale with rejected | ⟨isData, rfl⟩
  · exact processSender_ignored (checkAck_rejected rejected _)
  · -- only TR of the ACK that closes the transfer, a DATA packet, can be inverted
    obtain ⟨inverted, decodes, _, truncated, _⟩ :=
      decodes_trInverted sys pktValid isData rfl stale
    exact processSender_ignored (checkAck_truncated decodes truncated _)

theorem JointValid.harmless (valid : JointValid sys input joint)
    (separates : SeparatesBytes sys.crc32) : Harmless sys joint where
  data := by
    intro entry sent arrived stale damaged
    rcases valid.data_damaged separates stale sent damaged with
      rejected | ⟨pkt, pktValid, isData, whole, bytes, inverted⟩
    · exact Or.inl (processReceiver_rejected rejected _)
    · have nack := readToListR_trInverted sys valid.receiver_window pktValid isData whole stale
      rw [inverted]
      cases returned : joint.receiver.returned with
      | some code =>
          left
          simp only [processReceiver, returned]
      | none =>
          right
          refine ⟨pkt, nacked sys joint.receiver.state pkt, bytes, rfl, ?_, nacked_answered sys _ pkt⟩
          rw [processReceiver_nacked nack, if_pos returned]
  answers := fun _ sent _ stale damaged => valid.answer_damaged separates stale sent damaged

/-- A step with an altered datagram is one that the network can bring about without. -/
theorem Alters.permitted (separates : SeparatesBytes sys.crc32) (valid : JointValid sys input joint)
    {event : JointEvent} (alters : Alters joint event) :
    ∃ event', Permitted sys joint event' ∧ jointStep sys joint event' = jointStep sys joint event := by
  rcases event with (_ | ⟨_ | arrived, stale⟩ | _ | _) | (_ | _ | ⟨_ | arrived, stale⟩)
  case sender.socketReadable.some =>
    obtain ⟨entry, sent, _, damaged⟩ := alters
    refine ⟨.sender (.socketReadable none stale), trivial, ?_⟩
    rw [jointStep, jointStep, valid.answer_damaged separates stale sent damaged]
  case receiver.readable.some =>
    obtain ⟨entry, sent, inTime, damaged⟩ := alters
    rcases valid.data_damaged separates stale sent damaged with
      rejected | ⟨pkt, pktValid, isData, whole, bytes, inverted⟩
    · exact ⟨.receiver (.readable (some arrived) stale), Or.inr rejected, rfl⟩
    · -- cut to its header, with the packet itself behind it, it has the same effect
      refine ⟨.receiver (.readable (some (cutToHeader entry.2)) (recvBuffer entry.2 stale)),
        Or.inl ⟨entry, sent, inTime, Or.inr rfl⟩, ?_⟩
      have leftover : pkt.length = 0 ∨ LeftoverMatches sys.crc32 (pktGetLength pkt)
          (recvBuffer (packetBytes sys.crc32 pkt) stale) :=
        (eq_or_ne pkt.length 0).imp_right fun nonempty =>
          leftoverMatches_packetBytes pktValid nonempty stale
      have cut := readToListR_cut sys valid.receiver_window pktValid isData leftover
      have nack := readToListR_trInverted sys valid.receiver_window pktValid isData whole stale
      rw [jointStep, jointStep, bytes, inverted, processReceiver_nacked cut,
        processReceiver_nacked nack]
  all_goals exact absurd alters id

end

/-- Whatever byte of whatever datagram the network alters, the altered datagrams are harmless, the
bytes written are a prefix of the bytes read, and a sender that returned 0 has brought all over. -/
theorem damaging_safe {sys : Sys} (separates : SeparatesBytes sys.crc32) {input : List Byte}
    {joint : Joint} (reached : Reachable (jointStep sys) (Damaging sys) (Joint.init input) joint) :
    Harmless sys joint ∧ (sys.WritesAll →
      joint.receiver.state.written.flatten <+: joint.sender.state.reads.flatten ∧
        (joint.sender.stage = .returned 0 → joint.sender.state.reads.flatten = input ∧
          joint.receiver.state.written.flatten = input)) := by
  have permitted : JointReachable sys input joint :=
    reached.instead fun reached damaging => damaging.elim (fun permitted => ⟨_, permitted, rfl⟩)
      fun alters => alters.permitted separates (jointReachable_valid reached)
  have valid := jointReachable_valid permitted
  refine ⟨valid.harmless separates, fun writesAll => ⟨valid.written_within writesAll, ?_⟩⟩
  intro returned
  exact (valid.written_all writesAll returned).2

/-- The payload of the first packet was altered before the packet arrived whole. -/
def damagedArrival : List JointEvent :=
  [.sender .fileReadable, .sender .selectTimeout, .sender .selectTimeout,
    .receiver (.readable (some (firstCopy.set 12 0x62)) fun _ => 0),
    .receiver (.readable (some firstCopy) fun _ => 0)]

theorem damagedArrival_reachable :
    Reachable (jointStep Sys.faultless) (Damaging Sys.faultless) (Joint.init [0x61])
      (jointRun (damagedArrival ++ lastSteps)) := by
  refine reachable_along ⟨Or.inl trivial, Or.inl trivial, Or.inl trivial,
    Or.inr ⟨(1, firstCopy), ?_, ?_, 12, 0x62, by decide, by decide +kernel, rfl⟩,
    Or.inl (Or.inl ⟨(1, firstCopy), ?_, ?_, Or.inl rfl⟩),
    Or.inl (Or.inl ⟨(1, firstAck), ?_, fun _ => ?_, rfl⟩),
    Or.inl trivial, Or.inl trivial, Or.inl trivial, Or.inl trivial, trivial⟩
  · decide +kernel
  · unfold ChunkInTime
    decide +kernel
  · decide +kernel
  · unfold ChunkInTime
    decide +kernel
  · decide +kernel
  · decide +kernel

theorem damaging_safe_arrival :
    Harmless Sys.faultless (jointRun (damagedArrival ++ lastSteps)) ∧
      (jointRun (damagedArrival ++ lastSteps)).receiver.state.written.flatten <+:
        (jointRun (damagedArrival ++ lastSteps)).sender.state.reads.flatten ∧
      (jointRun (damagedArrival ++ lastSteps)).receiver.state.written.flatten = [0x61] := by
  obtain ⟨harmless, safe⟩ := damaging_safe crc32_separatesBytes damagedArrival_reachable
  obtain ⟨before, returned⟩ := safe Sys.faultless_writesAll
  exact ⟨harmless, before, (returned (by decide +kernel)).2⟩

end SelectiveRepeat
