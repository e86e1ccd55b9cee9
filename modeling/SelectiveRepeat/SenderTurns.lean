import SelectiveRepeat.Progress

/-! What one step of the sender does to its system calls, to what remains to be done, and to the
oldest packet of its list. -/

namespace SelectiveRepeat

open Bytes

/-- The calls between two states, at most so many of them to `time`. -/
structure Calls (most : Nat) (s after : Sender) : Prop where
  time : s.timeCalls ≤ after.timeCalls ∧ after.timeCalls ≤ s.timeCalls + most
  send : s.sendCalls ≤ after.sendCalls
  read : s.readCalls ≤ after.readCalls

theorem Calls.refl (most : Nat) (s : Sender) : Calls most s s :=
  ⟨⟨Nat.le_refl _, Nat.le_add_right _ _⟩, Nat.le_refl _, Nat.le_refl _⟩

theorem Calls.trans {early late : Nat} {first second third : Sender}
    (one : Calls early first second) (two : Calls late second third) :
    Calls (early + late) first third where
  time := by
    have oneTime := one.time
    have twoTime := two.time
    omega
  send := one.send.trans two.send
  read := one.read.trans two.read

theorem Calls.mono {most more : Nat} {s after : Sender} (calls : Calls most s after)
    (le : most ≤ more) : Calls more s after :=
  { calls with time := ⟨calls.time.1, calls.time.2.trans (Nat.add_le_add_left le _)⟩ }

section

variable {sys : Sys} {input : List Byte} {s after : Sender} {base : Nat}

theorem transmitted_calls (sys : Sys) (s : Sender) (pkt : Pkt) : Calls 1 s (transmitted sys s pkt) :=
  ⟨⟨Nat.le_succ _, Nat.le_refl _⟩, Nat.le_succ _, Nat.le_refl _⟩

theorem Retransmits.calls {aLo : BitVec 32} {nodes nodes' : List Pkt}
    (retransmits : Retransmits sys aLo base nodes s nodes' after) : Calls nodes.length s after := by
  induction retransmits with
  | stops => exact Calls.refl _ _
  | passes _ ih => exact ih.mono (Nat.le_succ _)
  | again _ _ _ ih =>
      refine ((transmitted_calls sys _ _).trans ih).mono ?_
      rw [List.length_cons, Nat.add_comm]

theorem ticked_calls (s : Sender) : Calls 1 s (ticked s) :=
  ⟨⟨Nat.le_succ _, Nat.le_refl _⟩, Nat.le_refl _, Nat.le_refl _⟩

theorem SenderOutcome.calls {stage stage' : SenderStage} {event : SenderEvent}
    (outcome : SenderOutcome sys s base stage event stage' after) (size : s.list.length ≤ 31) :
    Calls 32 s after := by
  have tried : Calls 0 s (readTried s) := ⟨⟨Nat.le_refl _, Nat.le_refl _⟩, Nat.le_refl _, Nat.le_succ _⟩
  have fin : Calls 1 s (finTransmitted sys s) := transmitted_calls sys s _
  cases outcome with
  | rests _ _ => exact Calls.refl _ _
  | answered outcome => cases outcome <;> exact { Calls.refl 32 s with }
  | readFailed => exact tried.mono (Nat.zero_le _)
  | endRead _ => exact { tried.mono (Nat.zero_le 32) with }
  | @chunkRead chunk rest _ _ _ _ =>
      have taken : Calls 0 s (chunkTaken s chunk rest) := { tried with }
      have sent := taken.trans (transmitted_calls sys (chunkTaken s chunk rest)
        (dataPkt s.reads.length chunk (sys.time s.timeCalls)))
      exact { sent.mono (by decide : 0 + 1 ≤ 32) with }
  | finFailed _ _ _ => exact { fin.mono (by decide : 1 ≤ 32) with }
  | finSent _ _ _ => exact { fin.mono (by decide : 1 ≤ 32) with }
  | retransmits retransmits =>
      exact { ((ticked_calls s).trans retransmits.calls).mono (by omega : 1 + s.list.length ≤ 32) with }

theorem processSender_calls {process : SenderProcess} (valid : process.Valid sys input)
    (event : SenderEvent) : Calls 32 process.state (processSender sys process event).state := by
  obtain ⟨base, _, outcome⟩ := processSender_outcome sys valid event
  exact outcome.calls valid.list_length

theorem processSender_ticks {process : SenderProcess} (valid : process.Valid sys input)
    (stage : process.stage = .timeouts) (event : SenderEvent) :
    process.state.timeCalls < (processSender sys process event).state.timeCalls := by
  obtain ⟨base, _, outcome⟩ := processSender_outcome sys valid event
  rw [stage] at outcome
  generalize (processSender sys process event).stage = stage' at outcome
  generalize (processSender sys process event).state = after at outcome
  cases outcome with
  | rests elsewhere _ => exact absurd rfl elsewhere
  | retransmits retransmits => exact Nat.lt_of_lt_of_le (Nat.lt_succ_self _) retransmits.calls.time.1

/-! What remains: twice the bytes that are not read, and the packets that are outstanding. -/

def remaining (s : Sender) : Nat := 2 * s.fileIn.length + s.list.length

theorem SenderProcess.Valid.whole {process : SenderProcess} (valid : process.Valid sys input) :
    ChunksValid process.state.reads ∧ process.state.reads.flatten ++ process.state.fileIn = input := by
  by_cases finished : process.stage = .returned 0
  · rw [SenderProcess.Valid, if_pos finished] at valid
    exact ⟨valid.chunks, by rw [valid.fileIn, List.append_nil, valid.input]⟩
  · exact ⟨(valid.running finished).chunks, (valid.running finished).input⟩

theorem ChunksValid.flatten_length {chunks : List (List Byte)} (valid : ChunksValid chunks) :
    chunks.length ≤ chunks.flatten.length := by
  induction chunks with
  | nil => exact Nat.le_refl 0
  | cons chunk rest ih =>
      have first := (valid chunk (List.mem_cons_self ..)).1
      have later := ih fun other member => valid other (List.mem_cons_of_mem _ member)
      rw [List.flatten_cons, List.length_append, List.length_cons]
      omega

theorem AckOutcome.kept {arrived : Option Datagram} {stale : Memory} {code : Int}
    (outcome : AckOutcome sys s base arrived stale code after) :
    after.fileIn = s.fileIn ∧ after.timeCalls = s.timeCalls ∧ after.list <:+ s.list := by
  cases outcome with
  | dropped => exact ⟨rfl, rfl, List.suffix_refl _⟩
  | removed _ _ _ _ _ _ _ suffix => exact ⟨rfl, rfl, suffix⟩
  | windowOnly _ _ _ _ => exact ⟨rfl, rfl, List.suffix_refl _⟩

/-- Either less remains, or nothing was read and nothing was acknowledged. -/
structure Quiet (s after : Sender) : Prop where
  reads : after.reads = s.reads
  fileIn : after.fileIn = s.fileIn
  list : after.list.length = s.list.length

theorem processSender_remaining {process : SenderProcess} (valid : process.Valid sys input)
    (event : SenderEvent) :
    remaining (processSender sys process event).state < remaining process.state ∨
      Quiet process.state (processSender sys process event).state := by
  have kept := (processSender_valid sys valid event).1
  obtain ⟨chunks, after⟩ := kept.whole
  have before := valid.whole.2
  rcases processSender_cases valid event with
    ⟨_, more, reads, length, _⟩ | ⟨datagram, stale, base, code, _, _, outcome⟩
  · rw [reads] at chunks after
    rw [List.flatten_append, List.append_assoc, ← before, List.append_cancel_left_eq] at after
    have positive := ChunksValid.flatten_length fun chunk member =>
      chunks chunk (List.mem_append_right _ member)
    have sizes := congrArg List.length after
    rw [List.length_append] at sizes
    cases more with
    | nil =>
        right
        exact ⟨reads.trans (List.append_nil _), after, length⟩
    | cons chunk rest =>
        left
        rw [List.length_cons] at positive length
        rw [remaining, remaining]
        omega
  · obtain ⟨fileIn, _, suffix⟩ := outcome.kept
    rcases Nat.lt_or_eq_of_le suffix.length_le with less | same
    · left
      rw [remaining, remaining, fileIn]
      omega
    · right
      exact ⟨outcome.reads, fileIn, same⟩

end

/-! The oldest packet. -/

section

variable {sys : Sys} {input : List Byte} {s : Sender}

/-- While chunks are outstanding, only `check_timeout` looks at the clock or stamps a packet anew. -/
theorem processSender_rests {process : SenderProcess} (valid : process.Valid sys input)
    (some : process.state.list ≠ []) (elsewhere : process.stage ≠ .timeouts) {event : SenderEvent}
    (quiet : Quiet process.state (processSender sys process event).state) :
    (processSender sys process event).state.list = process.state.list ∧
      (processSender sys process event).state.timeCalls = process.state.timeCalls := by
  obtain ⟨base, _, outcome⟩ := processSender_outcome sys valid event
  obtain ⟨s, stage⟩ := process
  generalize (processSender sys ⟨s, stage⟩ event).stage = stage' at outcome
  generalize (processSender sys ⟨s, stage⟩ event).state = after at outcome quiet ⊢
  cases outcome with
  | rests _ _ => exact ⟨rfl, rfl⟩
  | answered outcome =>
      obtain ⟨_, same, suffix⟩ := outcome.kept
      exact ⟨suffix.eq_of_length quiet.list, same⟩
  | readFailed => exact ⟨rfl, rfl⟩
  | endRead _ => exact ⟨rfl, rfl⟩
  | @chunkRead chunk rest _ _ _ _ =>
      have longer : (s.reads ++ [chunk]).length = s.reads.length := congrArg List.length quiet.reads
      simp at longer
  | finFailed _ empty _ => exact absurd empty some
  | finSent _ empty _ => exact absurd empty some
  | retransmits _ => exact absurd rfl elsewhere

def HeadDue (sys : Sys) (s : Sender) : Prop :=
  ∃ head next, s.list = head :: next ∧
    (sys.time s.timeCalls - pktGetTimestamp head).toNat ≥ retransmissionTimer

theorem checkTimeoutLoop_early {aLo : BitVec 32} {head : Pkt}
    (early : ¬(aLo - pktGetTimestamp head).toNat ≥ retransmissionTimer) (first : Int) (size : Nat)
    (next : List Pkt) (s : Sender) :
    ∃ next', (checkTimeoutLoop sys aLo first size (head :: next) s).2.1 = head :: next' := by
  simp only [checkTimeoutLoop, if_neg early]
  split
  · exact ⟨next, rfl⟩
  · exact ⟨_, rfl⟩

theorem checkTimeout_early {head : Pkt} {next : List Pkt} (nodes : s.list = head :: next)
    (early : ¬HeadDue sys s) : ∃ next', (checkTimeout sys s).2.list = head :: next' := by
  have notLate : ¬(sys.time s.timeCalls - pktGetTimestamp head).toNat ≥ retransmissionTimer :=
    fun late => early ⟨head, next, nodes, late⟩
  rw [checkTimeout_cons nodes rfl]
  exact checkTimeoutLoop_early notLate _ _ _ _

/-- The copies of the chunk with this number. -/
def Copies (sys : Sys) (reads : List (List Byte)) (number : Nat) : Set Datagram :=
  { datagram | ∃ chunk timestamp, reads[number]? = some chunk ∧
    datagram = packetBytes sys.crc32 (dataPkt number chunk timestamp) }

theorem checkTimeout_due (valid : SenderValid sys input s) (window : 1 ≤ s.windowSize) {base : Nat}
    (outstanding : Outstanding s.reads base s.list) (due : HeadDue sys s) :
    s.sendCalls < (checkTimeout sys s).2.sendCalls ∧
      (sys.send s.sendCalls = true → ∃ copy ∈ Copies sys s.reads base, ∃ later,
        (checkTimeout sys s).2.sent = s.sent ++ (s.reads.length, copy) :: later) := by
  obtain ⟨head, next, nodes, late⟩ := due
  have length := outstanding.length
  have size := valid.size
  rw [nodes] at outstanding
  obtain ⟨⟨chunk, timestamp, found, rfl⟩, rest⟩ := outstanding
  have near : s.reads.length ≤ base + 31 := by omega
  constructor
  · have inside : (ticked s).checkInWindow (pktGetSeqnum (dataPkt base chunk timestamp))
        (pktGetSeqnum (dataPkt base chunk timestamp)) = true := by
      rw [Sender.checkInWindow, if_pos (Int.le_refl _), decide_eq_true_eq, Int.sub_self]
      show 0 ≤ s.windowSize - 1
      omega
    obtain ⟨_, after, loop, retransmits⟩ := checkTimeoutLoop_retransmits
      (s := transmitted sys (ticked s) (dataPkt base chunk (sys.time (s.timeCalls + 1)))) sys
      (sys.time s.timeCalls) (pktGetSeqnum (dataPkt base chunk timestamp))
      (dataPkt base chunk timestamp :: next).length valid.chunks rest
    rw [checkTimeout_cons nodes (checkTimeoutLoop_due (valid.chunks.get found) inside late loop)]
    exact Nat.lt_of_lt_of_le (Nat.lt_succ_self _) retransmits.calls.send
  · intro sends
    obtain ⟨later, sent⟩ := checkTimeout_resends valid.chunks found rest near window nodes late
    refine ⟨_, ⟨chunk, sys.time (s.timeCalls + 1), found, rfl⟩, later, ?_⟩
    rw [sent, if_pos sends, List.append_assoc, List.singleton_append]

end

end SelectiveRepeat
