import SelectiveRepeat.Library.Runs
import SelectiveRepeat.SenderWindow

/-! The invariant of the sender over every run, whatever arrives at `check_ack`: the
list is the window of outstanding chunks, and the end of the file leaves last. -/

namespace SelectiveRepeat

open Bytes

/-! `read_to_list`. -/

theorem readToList_full {sys : Sys} {s : Sender} (full : (s.list.length : Int) ≥ s.windowSize) :
    readToList sys s = s := by
  rw [readToList, if_pos full]

theorem readToList_failed {sys : Sys} {s after : Sender}
    (room : ¬(s.list.length : Int) ≥ s.windowSize) (read : readFile sys s = (none, after)) :
    readToList sys s = after := by
  rw [readToList, if_neg room, read]

def endOfFileRead (s : Sender) (number : Nat) : Sender :=
  { s with seqnumEOF := 1, pktFin := some (dataPkt number [] 0) }

def chunkSent (sys : Sys) (s : Sender) (number : Nat) (chunk : List Byte) : Sender :=
  { transmitted sys s (dataPkt number chunk (sys.time s.timeCalls)) with
    list := s.list ++ [dataPkt number chunk (sys.time s.timeCalls)]
    seqnum := (s.seqnum + 1) % 256 }

theorem pktSetPayload_some (pkt : Pkt) {payload : List Byte} (short : payload.length ≤ 512) :
    pktSetPayload pkt (some payload) (BitVec.ofNat 16 payload.length) =
      (.pktOk, { pkt with payload, length := BitVec.ofNat 16 payload.length }) := by
  have size : (BitVec.ofNat 16 payload.length).toNat = payload.length := by
    rw [BitVec.toNat_ofNat]
    exact Nat.mod_eq_of_lt (by omega)
  rw [pktSetPayload, if_neg (by rw [size]; exact Nat.not_lt.mpr short), size]
  simp only [List.take_length]
  split_ifs <;> rfl

theorem readToList_read {sys : Sys} {s after : Sender} {number : Nat} {payload : List Byte}
    (room : ¬(s.list.length : Int) ≥ s.windowSize) (read : readFile sys s = (some payload, after))
    (short : payload.length ≤ 512) (seqnum : after.seqnum = (number % 256 : Nat)) :
    readToList sys s =
      if payload = [] then endOfFileRead after number else chunkSent sys after number payload := by
  have residue : BitVec.ofInt 8 after.seqnum = BitVec.ofNat 8 number := by
    rw [seqnum, BitVec.ofInt_natCast, ofNat_residue]
  have typed : pktSetType pktNew ptypeData = (.pktOk, dataPkt 0 [] 0) := rfl
  have whole : pktSetTr (dataPkt 0 [] 0) 0 = (.pktOk, dataPkt 0 [] 0) := rfl
  have noWindow : pktSetWindow (dataPkt 0 [] 0) 0 = (.pktOk, dataPkt 0 [] 0) := rfl
  have numbered : pktSetSeqnum (dataPkt 0 [] 0) (BitVec.ofNat 8 number) =
      (.pktOk, dataPkt number [] 0) := rfl
  have made : pktSetPayload (dataPkt number [] 0) (some payload) (BitVec.ofNat 16 payload.length) =
      (.pktOk, dataPkt number payload 0) := pktSetPayload_some _ short
  simp only [readToList, if_neg room, read, typed, whole, noWindow, residue, numbered, made,
    sendPacket_dataPkt sys _ number short, ne_eq, not_true_eq_false, or_self, if_false,
    List.length_eq_zero_iff]
  by_cases empty : payload = []
  · subst empty
    rfl
  · simp only [if_neg empty, if_pos empty]
    rfl

/-! `check_ack`. -/

inductive AckOutcome (sys : Sys) (s : Sender) (base : Nat) (datagram : Option Datagram)
    (stale : Memory) : Int → Sender → Prop
  | dropped : AckOutcome sys s base datagram stale (-1) s
  | removed {arrived pkt base' rest} : datagram = some arrived → Decodes sys arrived stale pkt →
      pktGetType pkt = ptypeAck → Outstanding s.reads base' rest → base ≤ base' →
      (∀ number, base ≤ number → number < base' → Acks (pktGetSeqnum pkt) number) →
      (base' < s.reads.length → ¬Acks (pktGetSeqnum pkt) base') → rest <:+ s.list →
      AckOutcome sys s base datagram stale 0 { s with windowSize := pktGetWindow pkt, list := rest }
  | windowOnly {arrived pkt code} : datagram = some arrived → Decodes sys arrived stale pkt →
      pktGetType pkt ≠ ptypeAck → code ≠ 1 →
      AckOutcome sys s base datagram stale code { s with windowSize := pktGetWindow pkt }

theorem checkAck_rejected {sys : Sys} {datagram : Datagram} {stale : Memory}
    (rejected : ∀ pkt, ¬Decodes sys datagram stale pkt) (s : Sender) :
    checkAck sys s (some datagram) stale = (-1, s) := by
  simp only [checkAck]
  rw [if_pos (pktDecode_rejected rejected)]

theorem checkAck_ack {sys : Sys} {datagram : Datagram} {stale : Memory} {pkt : Pkt}
    (decodes : Decodes sys datagram stale pkt) (whole : pktGetTr pkt ≠ 1)
    (isAck : pktGetType pkt = ptypeAck) {s : Sender} {rest : List Pkt}
    (checked : packetCheckedLoop s.seqnumEOF (pktGetSeqnum pkt) s.list s.list = (0, rest)) :
    checkAck sys s (some datagram) stale =
      (0, { s with windowSize := pktGetWindow pkt, list := rest }) := by
  rw [Decodes] at decodes
  simp only [checkAck, decodes, ne_eq, not_true_eq_false, if_false, if_neg whole, if_pos isAck,
    packetChecked, checked]
  rfl

theorem checkAck_truncated {sys : Sys} {bytes : Datagram} {stale : Memory} {pkt : Pkt}
    (decodes : Decodes sys bytes stale pkt) (truncated : pktGetTr pkt = 1) (s : Sender) :
    checkAck sys s (some bytes) stale = (-1, s) := by
  rw [Decodes] at decodes
  simp only [checkAck, decodes, ne_eq, not_true_eq_false, if_false, if_pos truncated]

theorem checkAck_notAck {sys : Sys} {bytes : Datagram} {stale : Memory} {pkt : Pkt}
    (decodes : Decodes sys bytes stale pkt) (whole : pktGetTr pkt ≠ 1)
    (notAck : pktGetType pkt ≠ ptypeAck) (s : Sender) :
    checkAck sys s (some bytes) stale =
      (if pktGetType pkt = ptypeNack then 0 else -1, { s with windowSize := pktGetWindow pkt }) := by
  rw [Decodes] at decodes
  simp only [checkAck, decodes, ne_eq, not_true_eq_false, if_false, if_neg whole, if_neg notAck]
  split <;> rfl

theorem checkAck_outcome (sys : Sys) {s : Sender} {base : Nat} (chunks : ChunksValid s.reads)
    (outstanding : Outstanding s.reads base s.list) (datagram : Option Datagram) (stale : Memory) :
    AckOutcome sys s base datagram stale (checkAck sys s datagram stale).1
      (checkAck sys s datagram stale).2 := by
  cases datagram with
  | none => exact AckOutcome.dropped
  | some datagram =>
      by_cases decoded : ∃ pkt, Decodes sys datagram stale pkt
      · obtain ⟨pkt, decodes⟩ := decoded
        by_cases truncated : pktGetTr pkt = 1
        · rw [checkAck_truncated decodes truncated]
          exact AckOutcome.dropped
        · by_cases isAck : pktGetType pkt = ptypeAck
          · obtain ⟨base', rest, result, kept, le, removed, stopped, suffix⟩ :=
              packetCheckedLoop_outstanding chunks s.seqnumEOF (pktGetSeqnum pkt) outstanding
            rw [checkAck_ack decodes truncated isAck result]
            exact AckOutcome.removed rfl decodes isAck kept le removed stopped suffix
          · have dead : (if pktGetType pkt = ptypeNack then 0 else -1 : Int) ≠ 1 := by
              split_ifs <;> decide
            rw [checkAck_notAck decodes truncated isAck]
            exact AckOutcome.windowOnly rfl decodes isAck dead
      · rw [checkAck_rejected (not_exists.mp decoded)]
        exact AckOutcome.dropped

/-! The invariant. -/

structure SenderValid (sys : Sys) (input : List Byte) (s : Sender) : Prop where
  chunks : ChunksValid s.reads
  input : s.reads.flatten ++ s.fileIn = input
  seqnum : s.seqnum = (s.reads.length % 256 : Nat)
  outstanding : ∃ base, Outstanding s.reads base s.list
  size : s.list.length ≤ 31
  windowSize : 0 ≤ s.windowSize ∧ s.windowSize ≤ 31
  sent : ∀ entry ∈ s.sent, SentChunk sys s.reads entry
  ending : s.seqnumEOF = 0 ∨ s.seqnumEOF = 1 ∧ s.fileIn = [] ∧
    ∃ timestamp, s.pktFin = some (dataPkt s.reads.length [] timestamp)

/-- The sender after its last packet: everything was acknowledged, then the end of the file was
sent, once. -/
structure SenderFinished (sys : Sys) (input : List Byte) (s : Sender) : Prop where
  chunks : ChunksValid s.reads
  input : s.reads.flatten = input
  fileIn : s.fileIn = []
  seqnum : s.seqnum = (s.reads.length % 256 : Nat)
  list : s.list = []
  sent : ∃ before timestamp, (∀ entry ∈ before, SentChunk sys s.reads entry) ∧
    s.sent = before ++ [(s.reads.length, packetBytes sys.crc32 (dataPkt s.reads.length [] timestamp))]

theorem init_senderValid (sys : Sys) (input : List Byte) :
    SenderValid sys input (Sender.init input) where
  chunks := List.forall_mem_nil _
  input := rfl
  seqnum := rfl
  outstanding := ⟨0, rfl⟩
  size := Nat.zero_le _
  windowSize := by
    simp only [Sender.init]
    omega
  sent := List.forall_mem_nil _
  ending := Or.inl rfl

theorem pktGetWindow_bounds (pkt : Pkt) :
    0 ≤ (pktGetWindow pkt : Int) ∧ (pktGetWindow pkt : Int) ≤ 31 := by
  have bound : pktGetWindow pkt < 32 := pkt.window.isLt
  omega

theorem AckOutcome.running {sys : Sys} {s : Sender} {base : Nat} {datagram : Option Datagram}
    {stale : Memory} {code : Int} {after : Sender}
    (outcome : AckOutcome sys s base datagram stale code after) : code ≠ 1 := by
  cases outcome with
  | dropped => decide
  | removed _ _ _ _ _ _ _ _ => decide
  | windowOnly _ _ _ dead => exact dead

theorem AckOutcome.valid {sys : Sys} {input : List Byte} {s : Sender} {base : Nat}
    {datagram : Option Datagram} {stale : Memory} {code : Int} {after : Sender}
    (outcome : AckOutcome sys s base datagram stale code after)
    (valid : SenderValid sys input s) : SenderValid sys input after := by
  cases outcome with
  | dropped => exact valid
  | @removed _ pkt base' rest _ _ _ kept _ _ _ suffix =>
      exact
        { valid with
          outstanding := ⟨base', kept⟩
          size := suffix.length_le.trans valid.size
          windowSize := pktGetWindow_bounds pkt }
  | @windowOnly _ pkt _ _ _ _ _ => exact { valid with windowSize := pktGetWindow_bounds pkt }

theorem Resends.valid {sys : Sys} {input : List Byte} {s after : Sender}
    (resends : Resends sys s after) (valid : SenderValid sys input s) :
    SenderValid sys input after := by
  obtain ⟨new, sent, chunks⟩ := resends.sent
  have all : ∀ entry ∈ after.sent, SentChunk sys s.reads entry := by
    intro entry member
    rw [sent] at member
    rcases List.mem_append.mp member with old | added
    · exact valid.sent entry old
    · exact chunks entry added
  rw [resends.same]
  exact { valid with sent := all }

def ticked (s : Sender) : Sender := { s with timeCalls := s.timeCalls + 1 }

theorem checkTimeout_cons {sys : Sys} {s : Sender} {head : Pkt} {next : List Pkt}
    (nodes : s.list = head :: next) {code : Int} {list' : List Pkt} {after : Sender}
    (loop : checkTimeoutLoop sys (sys.time s.timeCalls) (pktGetSeqnum head) (head :: next).length
      (head :: next) (ticked s) = (code, list', after)) :
    checkTimeout sys s = (code, { after with list := list' }) := by
  obtain ⟨seqnum, windowSize, seqnumEOF, pktFin, list, fileIn, reads, readCalls, timeCalls, sendCalls,
    sent⟩ := s
  subst nodes
  simp only [ticked] at loop
  simp only [checkTimeout, loop]

theorem checkTimeout_retransmits (sys : Sys) {s : Sender} {base : Nat} (chunks : ChunksValid s.reads)
    (outstanding : Outstanding s.reads base s.list) :
    ∃ list' after, checkTimeout sys s = (0, { after with list := list' }) ∧
      Retransmits sys (sys.time s.timeCalls) base s.list (ticked s) list' after := by
  cases nodes : s.list with
  | nil =>
      refine ⟨[], ticked s, ?_, Retransmits.stops⟩
      simp only [checkTimeout, nodes, ticked]
  | cons head next =>
      rw [nodes] at outstanding
      obtain ⟨list', after, result, retransmits⟩ := checkTimeoutLoop_retransmits
        (s := ticked s) sys (sys.time s.timeCalls) (pktGetSeqnum head) (head :: next).length chunks
        outstanding
      exact ⟨list', after, checkTimeout_cons nodes result, retransmits⟩

theorem Resends.ticked {sys : Sys} {s after : Sender} (resends : Resends sys (ticked s) after) :
    Resends sys s after :=
  Resends.trans ⟨rfl, [], by simp [SelectiveRepeat.ticked]⟩ resends

theorem Retransmits.valid {sys : Sys} {input : List Byte} {aLo : BitVec 32} {s after : Sender}
    {base : Nat} {list' : List Pkt}
    (retransmits : Retransmits sys aLo base s.list (ticked s) list' after)
    (valid : SenderValid sys input s) (outstanding : Outstanding s.reads base s.list) :
    SenderValid sys input { after with list := list' } := by
  have kept : Outstanding s.reads base list' := retransmits.outstanding outstanding
  have length := outstanding.length
  have size := valid.size
  have near : s.reads.length ≤ base + 31 := by omega
  have resends := (retransmits.resends near).ticked
  have still := resends.valid valid
  refine { still with outstanding := ⟨base, ?_⟩, size := retransmits.length.trans_le size }
  rw [← resends.reads] at kept
  exact kept

theorem checkTimeout_valid {sys : Sys} {input : List Byte} {s : Sender}
    (valid : SenderValid sys input s) :
    (checkTimeout sys s).1 = 0 ∧ SenderValid sys input (checkTimeout sys s).2 := by
  obtain ⟨base, outstanding⟩ := valid.outstanding
  obtain ⟨list', after, result, retransmits⟩ := checkTimeout_retransmits sys valid.chunks outstanding
  rw [result]
  exact ⟨rfl, retransmits.valid valid outstanding⟩

theorem packetChecked_valid {sys : Sys} {input : List Byte} {s : Sender}
    (valid : SenderValid sys input s) (seqnumAck : Int) : (packetChecked s seqnumAck).1 = 0 := by
  obtain ⟨base, outstanding⟩ := valid.outstanding
  obtain ⟨_, rest, result, _⟩ :=
    packetCheckedLoop_outstanding valid.chunks s.seqnumEOF seqnumAck outstanding
  simp only [packetChecked, result]

def readTried (s : Sender) : Sender := { s with readCalls := s.readCalls + 1 }

def chunkTaken (s : Sender) (chunk rest : List Byte) : Sender :=
  { s with readCalls := s.readCalls + 1, fileIn := rest, reads := s.reads ++ [chunk] }

theorem readFile_cases (sys : Sys) (s : Sender) :
    readFile sys s = (none, readTried s) ∨
      (s.fileIn = [] ∧ readFile sys s = (some [], readTried s)) ∨
      ∃ chunk rest, (1 ≤ chunk.length ∧ chunk.length ≤ 512) ∧ s.fileIn = chunk ++ rest ∧
        readFile sys s = (some chunk, chunkTaken s chunk rest) := by
  cases read : sys.read s.readCalls with
  | none =>
      left
      simp only [readFile, read, readTried]
  | some most =>
      right
      have count : 1 ≤ max 1 (min most maxPayloadSize) ∧ max 1 (min most maxPayloadSize) ≤ 512 := by
        simp only [maxPayloadSize]
        omega
      by_cases ended : s.fileIn = []
      · left
        refine ⟨ended, ?_⟩
        simp only [readFile, readTried, read, ended, List.take_nil, List.length_nil, List.drop_nil,
          if_true]
      · right
        have positive := List.length_pos_of_ne_nil ended
        have size := List.length_take (i := max 1 (min most maxPayloadSize)) (l := s.fileIn)
        refine ⟨s.fileIn.take (max 1 (min most maxPayloadSize)),
          s.fileIn.drop (s.fileIn.take (max 1 (min most maxPayloadSize))).length, by omega, ?_, ?_⟩
        · have whole := List.take_append_drop
            (min (max 1 (min most maxPayloadSize)) s.fileIn.length) s.fileIn
          rw [← List.take_eq_take_min] at whole
          rw [size, whole]
        · have some : s.fileIn.take (max 1 (min most maxPayloadSize)) ≠ [] := by
            apply List.ne_nil_of_length_pos
            omega
          simp only [readFile, chunkTaken, read, if_neg some]

theorem readTried_valid {sys : Sys} {input : List Byte} {s : Sender}
    (valid : SenderValid sys input s) : SenderValid sys input (readTried s) := { valid with }

theorem endOfFileRead_valid {sys : Sys} {input : List Byte} {s : Sender}
    (valid : SenderValid sys input s) (ended : s.fileIn = []) :
    SenderValid sys input (endOfFileRead (readTried s) s.reads.length) :=
  { valid with ending := Or.inr ⟨rfl, ended, 0, rfl⟩ }

theorem chunkSent_valid {sys : Sys} {input : List Byte} {s : Sender} (valid : SenderValid sys input s)
    (reading : s.seqnumEOF = 0) (room : ¬(s.list.length : Int) ≥ s.windowSize) {chunk rest : List Byte}
    (bounds : 1 ≤ chunk.length ∧ chunk.length ≤ 512) (parts : s.fileIn = chunk ++ rest) :
    SenderValid sys input (chunkSent sys (chunkTaken s chunk rest) s.reads.length chunk) := by
  obtain ⟨base, outstanding⟩ := valid.outstanding
  have length := outstanding.length
  have high := valid.windowSize.2
  refine
    { chunks := ?_
      input := ?_
      seqnum := ?_
      outstanding := ⟨base, outstanding.append chunk _⟩
      size := ?_
      windowSize := valid.windowSize
      sent := ?_
      ending := Or.inl reading }
  · intro other member
    rcases List.mem_append.mp member with old | new
    · exact valid.chunks other old
    · obtain rfl := List.mem_singleton.mp new
      exact bounds
  · show (s.reads ++ [chunk]).flatten ++ rest = input
    rw [List.flatten_append, List.append_assoc, ← valid.input, parts]
    simp
  · show (s.seqnum + 1) % 256 = ((s.reads ++ [chunk]).length % 256 : Nat)
    rw [valid.seqnum, List.length_append, List.length_singleton]
    omega
  · show (s.list ++ [_]).length ≤ 31
    rw [List.length_append, List.length_singleton]
    omega
  · have last : (s.reads ++ [chunk])[s.reads.length]? = Option.some chunk := by simp
    have near : (s.reads ++ [chunk]).length ≤ s.reads.length + 31 := by simp
    obtain ⟨new, sent, chunks⟩ := (resends_transmitted sys (chunkTaken s chunk rest) last near
      (sys.time s.timeCalls)).sent
    intro entry member
    rw [chunkSent] at member
    replace member : entry ∈ s.sent ++ new := sent ▸ member
    rcases List.mem_append.mp member with old | first
    · exact (valid.sent entry old).append chunk
    · exact chunks entry first

/-! `final_send`. -/

theorem finalSend_waiting {sys : Sys} {s : Sender} (waiting : s.list ≠ []) :
    finalSend sys s = (1, s) := by
  rw [finalSend, if_neg fun empty => waiting (List.length_eq_zero_iff.mp empty)]

theorem finalSend_empty {sys : Sys} {s : Sender} (empty : s.list = []) {number : Nat}
    {timestamp : BitVec 32} (fin : s.pktFin = some (dataPkt number [] timestamp)) :
    finalSend sys s =
      if sys.send s.sendCalls then
        (0, { transmitted sys s (dataPkt number [] (sys.time s.timeCalls)) with pktFin := none })
      else
        (-1, { transmitted sys s (dataPkt number [] (sys.time s.timeCalls)) with
          pktFin := some (dataPkt number [] (sys.time s.timeCalls)) }) := by
  have short : ([] : List Byte).length ≤ 512 := by decide
  rw [finalSend, if_pos (List.length_eq_zero_iff.mpr empty)]
  by_cases sends : sys.send s.sendCalls = true <;>
    simp [fin, sendPacket_dataPkt sys s number short, sends]

def finTransmitted (sys : Sys) (s : Sender) : Sender :=
  transmitted sys s (dataPkt s.reads.length [] (sys.time s.timeCalls))

theorem finTransmitted_finished {sys : Sys} {input : List Byte} {s : Sender}
    (valid : SenderValid sys input s) (ended : s.seqnumEOF = 1) (empty : s.list = [])
    (sends : sys.send s.sendCalls = true) :
    SenderFinished sys input { finTransmitted sys s with pktFin := none } := by
  obtain ⟨_, fileIn, _⟩ := valid.ending.resolve_left (by rw [ended]; decide)
  refine ⟨valid.chunks, ?_, fileIn, valid.seqnum, empty, s.sent, sys.time s.timeCalls, valid.sent,
    if_pos sends⟩
  have whole := valid.input
  rw [fileIn, List.append_nil] at whole
  exact whole

theorem finTransmitted_valid {sys : Sys} {input : List Byte} {s : Sender}
    (valid : SenderValid sys input s) (ended : s.seqnumEOF = 1)
    (fails : ¬sys.send s.sendCalls = true) (timestamp : BitVec 32) :
    SenderValid sys input
      { finTransmitted sys s with pktFin := some (dataPkt s.reads.length [] timestamp) } := by
  obtain ⟨_, fileIn, _⟩ := valid.ending.resolve_left (by rw [ended]; decide)
  refine { valid with sent := ?_, ending := Or.inr ⟨ended, fileIn, timestamp, rfl⟩ }
  rw [finTransmitted, transmitted, if_neg fails]
  exact valid.sent

/-! The process. -/

/-- The sender process: in its loop, ended for an error of `select`, or finished. -/
def SenderProcess.Valid (sys : Sys) (input : List Byte) (process : SenderProcess) : Prop :=
  if process.stage = .returned 0 then SenderFinished sys input process.state
  else SenderValid sys input process.state

theorem SenderProcess.Valid.running {sys : Sys} {input : List Byte} {process : SenderProcess}
    (valid : process.Valid sys input) (running : process.stage ≠ .returned 0) :
    SenderValid sys input process.state := by
  rwa [SenderProcess.Valid, if_neg running] at valid

theorem SenderValid.process {sys : Sys} {input : List Byte} {s : Sender}
    (valid : SenderValid sys input s) {stage : SenderStage} (running : stage ≠ .returned 0) :
    SenderProcess.Valid sys input ⟨s, stage⟩ := by
  rwa [SenderProcess.Valid, if_neg running]

/-- What a step of the sender comes to, with the packets from number `base` on in its list. -/
inductive SenderOutcome (sys : Sys) (s : Sender) (base : Nat) :
    SenderStage → SenderEvent → SenderStage → Sender → Prop
  | rests {stage event stage'} : stage ≠ .timeouts → (stage' = .returned 0 ↔ stage = .returned 0) →
      SenderOutcome sys s base stage event stage' s
  | answered {datagram stale code after} : AckOutcome sys s base datagram stale code after →
      SenderOutcome sys s base .select (.socketReadable datagram stale) .endOfFile after
  | readFailed : SenderOutcome sys s base .select .fileReadable .endOfFile (readTried s)
  | endRead : s.fileIn = [] → SenderOutcome sys s base .select .fileReadable .endOfFile
      (endOfFileRead (readTried s) s.reads.length)
  | chunkRead {chunk rest} : s.seqnumEOF = 0 → ¬(s.list.length : Int) ≥ s.windowSize →
      1 ≤ chunk.length ∧ chunk.length ≤ 512 → s.fileIn = chunk ++ rest →
      SenderOutcome sys s base .select .fileReadable .endOfFile
        (chunkSent sys (chunkTaken s chunk rest) s.reads.length chunk)
  | finFailed {event} : s.seqnumEOF = 1 → s.list = [] → ¬sys.send s.sendCalls = true →
      SenderOutcome sys s base .endOfFile event .timeouts { finTransmitted sys s with
        pktFin := some (dataPkt s.reads.length [] (sys.time s.timeCalls)) }
  | finSent {event} : s.seqnumEOF = 1 → s.list = [] → sys.send s.sendCalls = true →
      SenderOutcome sys s base .endOfFile event (.returned 0)
        { finTransmitted sys s with pktFin := none }
  | retransmits {event list' after} :
      Retransmits sys (sys.time s.timeCalls) base s.list (ticked s) list' after →
      SenderOutcome sys s base .timeouts event .select { after with list := list' }

theorem readToList_outcome {sys : Sys} {input : List Byte} {s : Sender}
    (valid : SenderValid sys input s) (reading : s.seqnumEOF = 0) (base : Nat) :
    SenderOutcome sys s base .select .fileReadable .endOfFile (readToList sys s) := by
  by_cases full : (s.list.length : Int) ≥ s.windowSize
  · rw [readToList_full full]
    exact SenderOutcome.rests (by decide) (by decide)
  rcases readFile_cases sys s with failed | ⟨ended, read⟩ | ⟨chunk, rest, bounds, parts, read⟩
  · rw [readToList_failed full failed]
    exact SenderOutcome.readFailed
  · rw [readToList_read full read (by decide) valid.seqnum, if_pos rfl]
    exact SenderOutcome.endRead ended
  · rw [readToList_read full read bounds.2 valid.seqnum,
      if_neg (List.ne_nil_of_length_pos bounds.1)]
    exact SenderOutcome.chunkRead reading full bounds parts

theorem finalSend_outcome {sys : Sys} {input : List Byte} {s : Sender}
    (valid : SenderValid sys input s) (ended : s.seqnumEOF = 1) (base : Nat) (event : SenderEvent) :
    SenderOutcome sys s base .endOfFile event
      (if (finalSend sys s).1 = 0 then .returned 0 else .timeouts) (finalSend sys s).2 := by
  obtain ⟨_, _, timestamp, fin⟩ := valid.ending.resolve_left (by rw [ended]; decide)
  by_cases empty : s.list = []
  · rw [finalSend_empty empty fin]
    by_cases sends : sys.send s.sendCalls = true
    · rw [if_pos sends]
      exact SenderOutcome.finSent ended empty sends
    · rw [if_neg sends]
      exact SenderOutcome.finFailed ended empty sends
  · rw [finalSend_waiting empty]
    show SenderOutcome sys s base .endOfFile event .timeouts s
    exact SenderOutcome.rests (by decide) (by decide)

theorem processSender_outcome (sys : Sys) {input : List Byte} {process : SenderProcess}
    (valid : process.Valid sys input) (event : SenderEvent) :
    ∃ base, Outstanding process.state.reads base process.state.list ∧
      SenderOutcome sys process.state base process.stage event (processSender sys process event).stage
        (processSender sys process event).state := by
  obtain ⟨s, stage⟩ := process
  by_cases finished : stage = .returned 0
  · subst finished
    have ended : SenderFinished sys input s := valid
    refine ⟨s.reads.length, ?_, SenderOutcome.rests SenderStage.noConfusion Iff.rfl⟩
    show Outstanding s.reads s.reads.length s.list
    rw [ended.list]
    rfl
  have inLoop : SenderValid sys input s := valid.running finished
  obtain ⟨base, outstanding⟩ := inLoop.outstanding
  refine ⟨base, outstanding, ?_⟩
  cases stage with
  | returned code => exact SenderOutcome.rests SenderStage.noConfusion Iff.rfl
  | select =>
      cases event with
      | selectError =>
          show SenderOutcome sys s base .select .selectError (.returned (-1)) s
          exact SenderOutcome.rests (by decide) (by decide)
      | selectTimeout =>
          show SenderOutcome sys s base .select .selectTimeout .endOfFile s
          exact SenderOutcome.rests (by decide) (by decide)
      | socketReadable datagram stale =>
          have outcome := checkAck_outcome sys inLoop.chunks outstanding datagram stale
          simp only [processSender, if_neg outcome.running]
          exact SenderOutcome.answered outcome
      | fileReadable =>
          by_cases reading : s.seqnumEOF = 0
          · simp only [processSender, if_pos reading]
            exact readToList_outcome inLoop reading base
          · simp only [processSender, if_neg reading]
            exact SenderOutcome.rests (by decide) (by decide)
  | endOfFile =>
      by_cases ended : s.seqnumEOF = 1
      · simp only [processSender, if_pos ended]
        exact finalSend_outcome inLoop ended base event
      · simp only [processSender, if_neg ended]
        exact SenderOutcome.rests (by decide) (by decide)
  | timeouts =>
      obtain ⟨list', after, result, retransmits⟩ :=
        checkTimeout_retransmits sys inLoop.chunks outstanding
      simp only [processSender, result]
      exact SenderOutcome.retransmits retransmits

section

variable {sys : Sys} {input : List Byte} {s after : Sender} {base : Nat} {stage stage' : SenderStage}
  {event : SenderEvent}

theorem SenderOutcome.valid (outcome : SenderOutcome sys s base stage event stage' after)
    (valid : SenderProcess.Valid sys input ⟨s, stage⟩)
    (outstanding : Outstanding s.reads base s.list) :
    SenderProcess.Valid sys input ⟨after, stage'⟩ := by
  have inLoop : stage ≠ .returned 0 → SenderValid sys input s := fun running => valid.running running
  cases outcome with
  | rests _ same => simpa only [SenderProcess.Valid, same] using valid
  | answered outcome => exact (outcome.valid (inLoop (by decide))).process (by decide)
  | readFailed => exact (readTried_valid (inLoop (by decide))).process (by decide)
  | endRead ended => exact (endOfFileRead_valid (inLoop (by decide)) ended).process (by decide)
  | chunkRead reading room bounds parts =>
      exact (chunkSent_valid (inLoop (by decide)) reading room bounds parts).process (by decide)
  | finFailed ended _ fails =>
      exact (finTransmitted_valid (inLoop (by decide)) ended fails _).process (by decide)
  | finSent ended empty sends =>
      exact finTransmitted_finished (inLoop (by decide)) ended empty sends
  | retransmits retransmits =>
      exact (retransmits.valid (inLoop (by decide)) outstanding).process (by decide)

theorem SenderOutcome.returns (outcome : SenderOutcome sys s base stage event stage' after)
    (running : stage ≠ .returned 0) (returned : stage' = .returned 0) :
    stage = .endOfFile ∧ s.seqnumEOF = 1 ∧ s.list = [] ∧ sys.send s.sendCalls = true := by
  cases outcome with
  | rests _ same => exact absurd (same.mp returned) running
  | finSent ended empty sends => exact ⟨rfl, ended, empty, sends⟩
  | answered _ => exact absurd returned (by decide)
  | readFailed => exact absurd returned (by decide)
  | endRead _ => exact absurd returned (by decide)
  | chunkRead _ _ _ _ => exact absurd returned (by decide)
  | finFailed _ _ _ => exact absurd returned (by decide)
  | retransmits _ => exact absurd returned (by decide)

theorem processSender_valid (sys : Sys) {process : SenderProcess} (valid : process.Valid sys input)
    (event : SenderEvent) :
    (processSender sys process event).Valid sys input ∧
      (process.stage ≠ .returned 0 → (processSender sys process event).stage = .returned 0 →
        process.stage = .endOfFile ∧ process.state.seqnumEOF = 1 ∧
          (finalSend sys process.state).1 = 0 ∧ process.state.list = []) := by
  obtain ⟨base, outstanding, outcome⟩ := processSender_outcome sys valid event
  refine ⟨outcome.valid valid outstanding, fun running returned => ?_⟩
  obtain ⟨stage, ended, empty, sends⟩ := outcome.returns running returned
  obtain ⟨_, _, timestamp, fin⟩ := (valid.running running).ending.resolve_left (by rw [ended]; decide)
  refine ⟨stage, ended, ?_, empty⟩
  rw [finalSend_empty empty fin, if_pos sends]

end

def senderRun (sys : Sys) (input : List Byte) (events : List SenderEvent) : SenderProcess :=
  events.foldl (processSender sys) (SenderProcess.init input)

theorem senderRun_concat (sys : Sys) (input : List Byte) (events : List SenderEvent)
    (event : SenderEvent) :
    senderRun sys input (events ++ [event]) = processSender sys (senderRun sys input events) event := by
  simp [senderRun]

theorem senderRun_valid (sys : Sys) (input : List Byte) (events : List SenderEvent) :
    (senderRun sys input events).Valid sys input := by
  induction events using List.reverseRecOn with
  | nil => exact (init_senderValid sys input).process (by decide)
  | append_singleton events event ih =>
      rw [senderRun_concat]
      exact (processSender_valid sys ih event).1

theorem sentChunk_size {sys : Sys} {reads : List (List Byte)} (chunks : ChunksValid reads)
    {entry : Nat × Datagram} (sent : SentChunk sys reads entry) : 12 < entry.2.length := by
  obtain ⟨number, chunk, timestamp, found, bytes, _⟩ := sent
  have valid := chunks.get found
  have size := packetBytes_length sys.crc32 _ (dataPkt_valid valid.2 number timestamp).payload
  have nonempty := mt (pktGetLength_eq_zero_iff _).mpr (dataPkt_nonempty valid number timestamp)
  rw [bytes, size, Pkt.wireSize, if_neg nonempty]
  omega

theorem packetBytes_empty_length (crc32 : List Byte → BitVec 32) {pkt : Pkt}
    (empty : pktGetLength pkt = 0) : (packetBytes crc32 pkt).length = 12 := by
  have zero : pkt.length = 0 := (pktGetLength_eq_zero_iff pkt).mp empty
  rw [packetBytes, if_pos zero, List.append_nil, headerBytes_length]

theorem SenderValid.seqnums {sys : Sys} {input : List Byte} {s : Sender}
    (valid : SenderValid sys input s) {index : Nat} {pkt : Pkt} (found : s.list[index]? = some pkt) :
    (pktGetSeqnum pkt : Int) = (s.seqnum - s.list.length + index) % 256 := by
  obtain ⟨base, outstanding⟩ := valid.outstanding
  obtain ⟨chunk, timestamp, _, rfl⟩ := outstanding.get found
  have length := outstanding.length
  rw [dataPkt_getSeqnum, valid.seqnum]
  omega

theorem SenderValid.packets {sys : Sys} {input : List Byte} {s : Sender}
    (valid : SenderValid sys input s) {pkt : Pkt} (member : pkt ∈ s.list) :
    pktGetType pkt = ptypeData ∧ 1 ≤ pktGetLength pkt ∧ pktGetLength pkt ≤ maxPayloadSize := by
  obtain ⟨base, outstanding⟩ := valid.outstanding
  obtain ⟨index, found⟩ := List.mem_iff_getElem?.mp member
  obtain ⟨chunk, timestamp, read, rfl⟩ := outstanding.get found
  obtain ⟨low, high⟩ := valid.chunks.get read
  rw [dataPkt_getLength high]
  exact ⟨rfl, low, high⟩

theorem SenderFinished.last {sys : Sys} {input : List Byte} {s : Sender}
    (finished : SenderFinished sys input s) : ∃ before fin,
      s.sent = before ++ [(s.reads.length, packetBytes sys.crc32 fin)] ∧
        pktGetType fin = ptypeData ∧ pktGetLength fin = 0 ∧
        pktGetSeqnum fin = s.reads.length % 256 ∧
        ∀ entry ∈ before, ∀ other, pktGetLength other = 0 → entry.2 ≠ packetBytes sys.crc32 other := by
  obtain ⟨before, timestamp, sent, whole⟩ := finished.sent
  refine ⟨before, dataPkt s.reads.length [] timestamp, whole, rfl, rfl, dataPkt_getSeqnum _ _ _, ?_⟩
  intro entry member other empty same
  have long := sentChunk_size finished.chunks (sent entry member)
  rw [same, packetBytes_empty_length sys.crc32 empty] at long
  exact Nat.lt_irrefl 12 long

/-- In every state of every run, whatever arrives: the list is the last chunks made into packets;
neither `packet_checked` nor `check_timeout` reports the end; and the process returns 0 only through
`final_send`, with nothing outstanding, after sending the packet of the end once. -/
theorem senderRun_window (sys : Sys) (input : List Byte) (events : List SenderEvent) :
    let process := senderRun sys input events
    let s := process.state
    (∀ (index : Nat) pkt, s.list[index]? = some pkt →
        (pktGetSeqnum pkt : Int) = (s.seqnum - s.list.length + index) % 256) ∧
      s.list.length ≤ maxWindowSize ∧
      (∀ pkt ∈ s.list, pktGetType pkt = ptypeData ∧ 1 ≤ pktGetLength pkt ∧
        pktGetLength pkt ≤ maxPayloadSize) ∧
      (∀ seqnumAck, (packetChecked s seqnumAck).1 ≠ 1) ∧ (checkTimeout sys s).1 ≠ 1 ∧
      (∀ event, process.stage ≠ .returned 0 →
        (processSender sys process event).stage = .returned 0 →
          process.stage = .endOfFile ∧ (finalSend sys s).1 = 0 ∧ s.list = []) ∧
      (process.stage = .returned 0 → s.list = [] ∧ ∃ before fin,
        s.sent = before ++ [(s.reads.length, packetBytes sys.crc32 fin)] ∧
          pktGetType fin = ptypeData ∧ pktGetLength fin = 0 ∧
          pktGetSeqnum fin = s.reads.length % 256 ∧
          ∀ entry ∈ before, ∀ other, pktGetLength other = 0 →
            entry.2 ≠ packetBytes sys.crc32 other) := by
  have valid := senderRun_valid sys input events
  have step := fun event => (processSender_valid sys valid event).2
  generalize senderRun sys input events = process at valid step
  dsimp only
  by_cases running : process.stage = .returned 0
  · have finished : SenderFinished sys input process.state := by
      rwa [SenderProcess.Valid, if_pos running] at valid
    have empty := finished.list
    refine ⟨?_, ?_, ?_, ?_, ?_, fun _ going => absurd running going, fun _ => ⟨empty, finished.last⟩⟩
    · simp [empty]
    · simp [empty]
    · simp [empty]
    · simp [packetChecked, empty, packetCheckedLoop]
    · simp [checkTimeout, empty]
  · have inLoop := valid.running running
    refine ⟨fun index pkt found => inLoop.seqnums found, inLoop.size,
      fun pkt member => inLoop.packets member, fun seqnumAck => ?_, ?_, ?_,
      fun returned => absurd returned running⟩
    · rw [packetChecked_valid inLoop]
      decide
    · rw [(checkTimeout_valid inLoop).1]
      decide
    · intro event going returned
      obtain ⟨stage, _, zero, empty⟩ := step event going returned
      exact ⟨stage, zero, empty⟩

end SelectiveRepeat
