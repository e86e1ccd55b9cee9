import SelectiveRepeat.Control
import SelectiveRepeat.QueueOrder

/-! The receiver seen through absolute packet numbers: `check_in_window`, one turn of
the loop of `write_in_sequence`, and the whole loop as the draining of a buffer. -/

namespace SelectiveRepeat

open Bytes Circle Reassembly

theorem Receiver.checkInWindow_iff {r : Receiver} {base number : Nat}
    (waited : r.waitedSeqnum = (base % 256 : Nat)) (due : base ≤ number)
    (near : number < base + 256) :
    r.checkInWindow (number % 256 : Nat) = true ↔
      ((number - base : Nat) : Int) ≤ r.windowSize ∨
        number % 256 < base % 256 ∧ ((number - base : Nat) : Int) ≤ r.windowSize + 1 := by
  rw [Receiver.checkInWindow, waited]
  rcases mod_or_wrap 256 due near with ⟨same, inside⟩ | wrapped
  · rw [if_pos (by omega), decide_eq_true_eq]
    omega
  · have lower : number % 256 < base % 256 := by omega
    rw [if_neg (by omega), decide_eq_true_eq]
    omega

theorem Receiver.checkInWindow_comparable {r : Receiver} {base number : Nat}
    (waited : r.waitedSeqnum = (base % 256 : Nat)) (valid : r.WindowValid) (due : base ≤ number)
    (near : number < base + 256) (accepted : r.checkInWindow (number % 256 : Nat) = true) :
    Comparable 256 31 base number := by
  have high := valid.high
  rw [Comparable]
  rcases (checkInWindow_iff waited due near).mp accepted with inside | ⟨wrapped, inside⟩
  · left
    omega
  · by_cases close : number - base ≤ 31
    · exact Or.inl close
    · exact Or.inr ⟨by omega, wrapped⟩

theorem Comparable.of_arc {base low high : Nat} (due : base ≤ low) (lt : low < high)
    (arc : Comparable 256 31 base high) : Comparable 256 31 low high := by
  rcases arc with close | ⟨far, wrapped⟩
  · exact Or.inl (by omega)
  · by_cases same : low = base
    · subst same
      exact Or.inr ⟨far, wrapped⟩
    · exact Or.inl (by omega)

theorem Comparable.advance {base next number : Nat} (le : base ≤ next) (due : next ≤ number)
    (arc : Comparable 256 31 base number) : Comparable 256 31 next number := by
  rcases Nat.lt_or_eq_of_le due with lt | rfl
  · exact Comparable.of_arc le lt arc
  · exact Or.inl (by omega)

structure Tracks (r : Receiver) (out : List Pkt) (entries : List (Nat × Pkt)) : Prop where
  written_length : r.written.length = out.length
  list : r.list = entries.map Prod.snd
  waited : r.waitedSeqnum = (out.length % 256 : Nat)
  window : r.WindowValid
  sorted : Sorted entries
  numbered : Numbered entries
  valid : ∀ entry ∈ entries, entry.2.Valid
  arc : ∀ entry ∈ entries, out.length ≤ entry.1 ∧ Comparable 256 31 out.length entry.1

theorem Tracks.waited_written {r : Receiver} {out : List Pkt} {entries : List (Nat × Pkt)}
    (tracks : Tracks r out entries) : r.waitedSeqnum = (r.written.length % 256 : Nat) := by
  rw [tracks.waited, tracks.written_length]

theorem Tracks.of_same {r after : Receiver} {out : List Pkt} {entries : List (Nat × Pkt)}
    (tracks : Tracks r out entries) (written : after.written = r.written)
    (list : after.list = r.list) (waited : after.waitedSeqnum = r.waitedSeqnum)
    (window : after.WindowValid) : Tracks after out entries :=
  { tracks with
    written_length := by rw [written, tracks.written_length]
    list := list.trans tracks.list
    waited := waited.trans tracks.waited
    window }

theorem Tracks.head_due_iff {r : Receiver} {out : List Pkt} {entry : Nat × Pkt}
    {rest : List (Nat × Pkt)} (tracks : Tracks r out (entry :: rest)) :
    (pktGetSeqnum entry.2 : Int) = r.waitedSeqnum ↔ entry.1 = out.length := by
  obtain ⟨due, arc⟩ := tracks.arc entry List.mem_cons_self
  have seqnum := tracks.numbered entry List.mem_cons_self
  simp only [Comparable] at arc
  rw [tracks.waited, seqnum]
  omega

theorem Tracks.separated {r : Receiver} {out : List Pkt} {entries : List (Nat × Pkt)}
    (tracks : Tracks r out entries) {number : Nat} (due : out.length ≤ number)
    (arc : Comparable 256 31 out.length number) : Separated number entries := by
  intro entry member
  obtain ⟨entryDue, entryArc⟩ := tracks.arc entry member
  exact ⟨fun lower => Comparable.of_arc entryDue lower arc,
    fun higher => Comparable.of_arc due higher entryArc⟩

/-! One turn of the loop. -/

def delivered (r : Receiver) (bytes : List Byte) : Receiver :=
  { r with
    writeCalls := r.writeCalls + 1
    written := r.written ++ [bytes]
    waitedSeqnum := (r.waitedSeqnum + 1) % 256
    list := r.list.tail }

def acknowledged (sys : Sys) (r : Receiver) : Receiver :=
  sendAck sys (windowAdd r) (createAck (windowAdd r) (windowAdd r).waitedSeqnum ptypeAck)
    (windowAdd r).lastTimestamp

/-- The test of `write_in_sequence` for the end of the transfer, once the packet is written. -/
def EndOfTransfer (r : Receiver) (packet : Pkt) : Prop :=
  r.list.length = 0 ∧ pktGetLength packet = 0 ∧ (pktGetSeqnum packet : Int) = r.waitedSeqnum - 1

instance (r : Receiver) (packet : Pkt) : Decidable (EndOfTransfer r packet) :=
  inferInstanceAs (Decidable (_ ∧ _ ∧ _))

theorem popElementQueue_snd (list : List Pkt) : (popElementQueue list).2 = list.tail := by
  cases list <;> rfl

theorem writeInSequenceLoop_cons (sys : Sys) (packet : Pkt) (runner : List Pkt) (r : Receiver) :
    writeInSequenceLoop sys (packet :: runner) r =
      if (pktGetSeqnum packet : Int) = r.waitedSeqnum then
        match sys.write r.writeCalls (pktGetLength packet) with
        | none => (-1, { r with writeCalls := r.writeCalls + 1 })
        | some writed =>
          let r := delivered r ((pktGetPayload packet).take writed)
          if EndOfTransfer r packet then (-10, r)
          else writeInSequenceLoop sys runner (acknowledged sys r)
      else (0, r) := by
  rw [writeInSequenceLoop]
  split_ifs
  · cases sys.write r.writeCalls (pktGetLength packet) with
    | none => rfl
    | some writed =>
        simp only [popElementQueue_snd]
        rfl
  · rfl

theorem windowAdd_valid {r : Receiver} (valid : r.WindowValid) : (windowAdd r).WindowValid := by
  obtain ⟨low, high⟩ := valid
  rw [windowAdd]
  split
  · next room =>
    refine ⟨?_, ?_⟩
    · show 1 ≤ r.windowSize + 1
      omega
    · show r.windowSize + 1 ≤ 31
      have small : r.windowSize < 31 := room
      omega
  · exact ⟨low, high⟩

theorem windowAdd_le (r : Receiver) : r.windowSize ≤ (windowAdd r).windowSize := by
  rw [windowAdd]
  split
  · show r.windowSize ≤ r.windowSize + 1
    omega
  · exact Int.le_refl _

theorem windowAdd_eq (r : Receiver) :
    windowAdd r = { r with windowSize := (windowAdd r).windowSize } := by
  rw [windowAdd]
  split <;> rfl

theorem acknowledged_eq (sys : Sys) {r : Receiver} (valid : r.WindowValid)
    (waited : r.waitedSeqnum = (r.written.length % 256 : Nat)) :
    acknowledged sys r =
      { r with
        windowSize := (windowAdd r).windowSize
        sent := r.sent ++
          [ackEntry sys r.written.length (windowAdd r).windowSize.toNat r.lastTimestamp] } := by
  have grown := windowAdd_eq r
  have same : (windowAdd r).waitedSeqnum = ((windowAdd r).written.length % 256 : Nat) := by
    rw [grown]
    exact waited
  rw [acknowledged, sendAck_waited sys (windowAdd_valid valid) same, grown]

theorem acknowledged_sent (sys : Sys) {r : Receiver} (valid : r.WindowValid)
    (waited : r.waitedSeqnum = (r.written.length % 256 : Nat)) :
    (acknowledged sys r).sent = r.sent ++
      [ackEntry sys r.written.length (windowAdd r).windowSize.toNat r.lastTimestamp] := by
  rw [acknowledged_eq sys valid waited]

theorem Tracks.pop {r : Receiver} {out : List Pkt} {entry : Nat × Pkt}
    {rest : List (Nat × Pkt)} (tracks : Tracks r out (entry :: rest)) (due : entry.1 = out.length)
    (bytes : List Byte) : Tracks (delivered r bytes) (out ++ [entry.2]) rest := by
  have grown : (out ++ [entry.2]).length = out.length + 1 := by simp
  obtain ⟨above, sortedRest⟩ := List.pairwise_cons.mp tracks.sorted
  refine ⟨?_, ?_, ?_, ⟨tracks.window.low, tracks.window.high⟩, sortedRest, ?_, ?_, ?_⟩
  · show (r.written ++ [bytes]).length = (out ++ [entry.2]).length
    rw [grown, List.length_append, tracks.written_length, List.length_singleton]
  · show r.list.tail = rest.map Prod.snd
    rw [tracks.list, List.map_cons, List.tail_cons]
  · show (r.waitedSeqnum + 1) % 256 = ((out ++ [entry.2]).length % 256 : Nat)
    rw [tracks.waited, grown]
    omega
  · exact fun later member => tracks.numbered later (List.mem_cons_of_mem _ member)
  · exact fun later member => tracks.valid later (List.mem_cons_of_mem _ member)
  · intro later member
    have next := above later member
    have arc := (tracks.arc later (List.mem_cons_of_mem _ member)).2
    rw [grown]
    exact ⟨by omega, Comparable.advance (Nat.le_succ _) (by omega) arc⟩

theorem Tracks.acknowledge {r : Receiver} {out : List Pkt} {entries : List (Nat × Pkt)}
    (tracks : Tracks r out entries) (sys : Sys) : Tracks (acknowledged sys r) out entries := by
  have valid := windowAdd_valid tracks.window
  rw [acknowledged_eq sys tracks.window tracks.waited_written]
  exact tracks.of_same rfl rfl rfl ⟨valid.low, valid.high⟩

end SelectiveRepeat
