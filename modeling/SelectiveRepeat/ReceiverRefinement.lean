import SelectiveRepeat.ReceiverWindow

/-! What `write_in_sequence` and `read_to_list_r` can do with a packet, in terms of the
packets written and held. -/

namespace SelectiveRepeat

open Bytes Circle Reassembly

/-- A datagram of the receiver: a control packet with a usable window, and if it is an ACK,
the one that counts the payloads written before it. -/
def Answer (sys : Sys) (written : Nat) (limit : Int) (entry : Nat × Datagram) : Prop :=
  ∃ type seqnum window timestamp,
    entry.2 = packetBytes sys.crc32 (controlPkt type seqnum window timestamp) ∧
      (1 ≤ type ∧ type ≤ 3) ∧ (1 ≤ window ∧ (window : Int) ≤ limit) ∧
        entry.1 ≤ written ∧ (type = ptypeAck → seqnum = entry.1)

theorem Answer.mono {sys : Sys} {written written' : Nat} {limit limit' : Int}
    {entry : Nat × Datagram} (answer : Answer sys written limit entry) (more : written ≤ written')
    (wider : limit ≤ limit') : Answer sys written' limit' entry := by
  obtain ⟨type, seqnum, window, timestamp, bytes, typed, ⟨low, high⟩, old, counted⟩ := answer
  exact ⟨type, seqnum, window, timestamp, bytes, typed, ⟨low, high.trans wider⟩, old.trans more,
    counted⟩

theorem ackEntry_answer (sys : Sys) {number : Nat} {r : Receiver} (valid : r.WindowValid)
    (timestamp : BitVec 32) (old : number ≤ r.written.length) :
    Answer sys r.written.length r.windowSize
      (ackEntry sys number r.windowSize.toNat timestamp) := by
  obtain ⟨low, high⟩ := valid
  exact ⟨ptypeAck, number, r.windowSize.toNat, timestamp, rfl, ⟨by decide, by decide⟩,
    ⟨by omega, by omega⟩, old, fun _ => rfl⟩

theorem control_answer (sys : Sys) {type : Nat} (typed : 1 ≤ type ∧ type ≤ 3)
    (notAck : type ≠ ptypeAck) {r : Receiver} (valid : r.WindowValid) (seqnum : Nat)
    (timestamp : BitVec 32) :
    Answer sys r.written.length r.windowSize (r.written.length,
      packetBytes sys.crc32 (controlPkt type seqnum r.windowSize.toNat timestamp)) := by
  obtain ⟨low, high⟩ := valid
  exact ⟨type, seqnum, r.windowSize.toNat, timestamp, rfl, typed, ⟨by omega, by omega⟩,
    Nat.le_refl _, fun isAck => absurd isAck notAck⟩

def LastAck (sys : Sys) (r : Receiver) : Prop :=
  r.sent.getLast? = some (ackEntry sys r.written.length r.windowSize.toNat r.lastTimestamp)

structure Grows (sys : Sys) (r after : Receiver) : Prop where
  window : r.windowSize ≤ after.windowSize
  written : r.written.length ≤ after.written.length
  sent : ∃ answers, after.sent = r.sent ++ answers ∧
    ∀ answer ∈ answers, Answer sys after.written.length after.windowSize answer

theorem Grows.refl (sys : Sys) (r : Receiver) : Grows sys r r :=
  ⟨Int.le_refl _, Nat.le_refl _, [], by simp⟩

theorem Grows.trans {sys : Sys} {first second third : Receiver} (one : Grows sys first second)
    (two : Grows sys second third) : Grows sys first third := by
  obtain ⟨early, sentEarly, answersEarly⟩ := one.sent
  obtain ⟨late, sentLate, answersLate⟩ := two.sent
  refine ⟨one.window.trans two.window, one.written.trans two.written, early ++ late, ?_, ?_⟩
  · rw [sentLate, sentEarly, List.append_assoc]
  · intro answer member
    rcases List.mem_append.mp member with old | new
    · exact (answersEarly answer old).mono two.written two.window
    · exact answersLate answer new

theorem Grows.answers {sys : Sys} {r after : Receiver} (grows : Grows sys r after) {limit limit' : Int}
    (old : ∀ entry ∈ r.sent, Answer sys r.written.length limit entry) (wider : limit ≤ limit')
    (window : after.windowSize ≤ limit') :
    ∀ entry ∈ after.sent, Answer sys after.written.length limit' entry := by
  obtain ⟨answers, sent, new⟩ := grows.sent
  intro entry member
  rw [sent] at member
  rcases List.mem_append.mp member with before | added
  · exact (old entry before).mono grows.written wider
  · exact (new entry added).mono (Nat.le_refl _) window

theorem grows_delivered (sys : Sys) (r : Receiver) (bytes : List Byte) :
    Grows sys r (delivered r bytes) :=
  ⟨Int.le_refl _, by simp [delivered], [], by simp [delivered]⟩

theorem Tracks.grows_acknowledged {r : Receiver} {out : List Pkt} {entries : List (Nat × Pkt)}
    (tracks : Tracks r out entries) (sys : Sys) :
    Grows sys r (acknowledged sys r) ∧
      LastAck sys (acknowledged sys r) := by
  have valid := windowAdd_valid tracks.window
  rw [acknowledged_eq sys tracks.window tracks.waited_written]
  refine ⟨⟨windowAdd_le r, Nat.le_refl _, _, rfl, ?_⟩, by simp [LastAck]⟩
  intro answer member
  obtain rfl := List.mem_singleton.mp member
  exact ackEntry_answer sys (r := { r with windowSize := (windowAdd r).windowSize })
    ⟨valid.low, valid.high⟩ _ (Nat.le_refl _)

def WriteFails (sys : Sys) (r : Receiver) : Prop := ∃ count, sys.write r.writeCalls count = none

structure Drained (sys : Sys) (r : Receiver) (out : List Pkt) (entries : List (Nat × Pkt))
    (code : Int) (after : Receiver) (out' : List Pkt) (rest : List (Nat × Pkt)) : Prop where
  tracks : Tracks after out' rest
  drains : Drains out entries out' rest
  grows : Grows sys r after
  lastTimestamp : after.lastTimestamp = r.lastTimestamp
  /-- It stops for the end of the transfer at an empty packet only. -/
  ended : code = 0 ∨ code = -1 ∨ code = -10 ∧ ∃ entry ∈ entries, pktGetLength entry.2 = 0
  /-- Unless a `write` fails, nothing that is due stays behind. -/
  whole : code ≠ -1 → (out', rest) = drain out entries
  succeeds : sys.WritesAll → code ≠ -1
  /-- It writes nothing only if nothing is due or the first `write` fails. -/
  starts : out.length < out'.length ∨ drain out entries = (out, entries) ∨
    after.sent = r.sent ∧ WriteFails sys r
  lastAck : code ≠ -10 → LastAck sys r ∨ out.length < out'.length → LastAck sys after
  payloads : sys.WritesAll → r.written = out.map pktGetPayload →
    after.written = out'.map pktGetPayload

theorem Tracks.written_whole {r : Receiver} {out : List Pkt} {entry : Nat × Pkt}
    {rest : List (Nat × Pkt)} (tracks : Tracks r out (entry :: rest))
    (same : r.written = out.map pktGetPayload) :
    (delivered r ((pktGetPayload entry.2).take (pktGetLength entry.2))).written =
      (out ++ [entry.2]).map pktGetPayload := by
  have valid := tracks.valid entry List.mem_cons_self
  rw [delivered, ← valid.getPayload_length, List.take_length, List.map_append, same]
  rfl

section

variable {sys : Sys} {r : Receiver} {out : List Pkt}

/-! One turn of the loop: nothing is due, the `write` fails, the transfer ends, or the loop goes
on with the next node. -/

theorem drained_none {entries : List (Nat × Pkt)} (tracks : Tracks r out entries)
    (stopped : drain out entries = (out, entries)) : Drained sys r out entries 0 r out entries where
  tracks := tracks
  drains := Drains.stop
  grows := Grows.refl sys r
  lastTimestamp := rfl
  ended := Or.inl rfl
  whole := fun _ => stopped.symm
  succeeds := fun _ => by decide
  starts := Or.inr (Or.inl stopped)
  lastAck := by
    intro _ last
    exact last.resolve_right (Nat.lt_irrefl _)
  payloads := fun _ same => same

theorem drained_failed {entries : List (Nat × Pkt)} (tracks : Tracks r out entries) {count : Nat}
    (failed : sys.write r.writeCalls count = none) :
    Drained sys r out entries (-1) { r with writeCalls := r.writeCalls + 1 } out entries where
  tracks := tracks.of_same rfl rfl rfl ⟨tracks.window.low, tracks.window.high⟩
  drains := Drains.stop
  grows := ⟨Int.le_refl _, Nat.le_refl _, [], by simp⟩
  lastTimestamp := rfl
  ended := Or.inr (Or.inl rfl)
  whole := by
    intro succeeded
    exact absurd rfl succeeded
  succeeds := by
    intro writesAll
    rw [writesAll] at failed
    exact absurd failed (Option.some_ne_none _)
  starts := Or.inr (Or.inr ⟨rfl, count, failed⟩)
  lastAck := by
    intro _ last
    exact last.resolve_right (Nat.lt_irrefl _)
  payloads := fun _ same => same

variable {entry : Nat × Pkt} {bytes : List Byte}

theorem drained_ended (due : entry.1 = out.length)
    (popped : Tracks (delivered r bytes) (out ++ [entry.2]) [])
    (payloads : sys.WritesAll → r.written = out.map pktGetPayload →
      (delivered r bytes).written = (out ++ [entry.2]).map pktGetPayload)
    (empty : pktGetLength entry.2 = 0) :
    Drained sys r out [entry] (-10) (delivered r bytes) (out ++ [entry.2]) [] where
  tracks := popped
  drains := Drains.next due Drains.stop
  grows := grows_delivered sys r bytes
  lastTimestamp := rfl
  ended := Or.inr (Or.inr ⟨rfl, entry, List.mem_cons_self, empty⟩)
  whole := by
    intro _
    rw [drain, if_pos due, drain]
  succeeds := fun _ => by decide
  starts := Or.inl (by simp)
  lastAck := by
    intro goes
    exact absurd rfl goes
  payloads := payloads

theorem Drained.next {rest rest' : List (Nat × Pkt)} {code : Int} {after : Receiver}
    {out' : List Pkt} (due : entry.1 = out.length)
    (popped : Tracks (delivered r bytes) (out ++ [entry.2]) rest)
    (payloads : sys.WritesAll → r.written = out.map pktGetPayload →
      (delivered r bytes).written = (out ++ [entry.2]).map pktGetPayload)
    (drained : Drained sys (acknowledged sys (delivered r bytes)) (out ++ [entry.2]) rest code after
      out' rest') :
    Drained sys r out (entry :: rest) code after out' rest' := by
  obtain ⟨grown, lastAck⟩ := popped.grows_acknowledged sys
  have acked := acknowledged_eq sys popped.window popped.waited_written
  have more := drained.drains.length_le
  rw [List.length_append, List.length_singleton] at more
  exact
    { tracks := drained.tracks
      drains := Drains.next due drained.drains
      grows := ((grows_delivered sys r bytes).trans grown).trans drained.grows
      lastTimestamp := by
        rw [drained.lastTimestamp, acked]
        rfl
      ended := by
        rcases drained.ended with zero | failed | ⟨code, last, member, empty⟩
        · exact Or.inl zero
        · exact Or.inr (Or.inl failed)
        · exact Or.inr (Or.inr ⟨code, last, List.mem_cons_of_mem entry member, empty⟩)
      whole := by
        intro succeeded
        rw [drained.whole succeeded, drain, if_pos due]
      succeeds := drained.succeeds
      starts := Or.inl more
      lastAck := by
        intro goes _
        exact drained.lastAck goes (Or.inl lastAck)
      payloads := by
        intro writesAll same
        apply drained.payloads writesAll
        rw [acked]
        exact payloads writesAll same }

end

theorem writeInSequenceLoop_drains (sys : Sys) {entries : List (Nat × Pkt)} {r : Receiver}
    {out : List Pkt} (tracks : Tracks r out entries) :
    ∃ out' rest, Drained sys r out entries (writeInSequenceLoop sys (entries.map Prod.snd) r).1
      (writeInSequenceLoop sys (entries.map Prod.snd) r).2 out' rest := by
  induction entries generalizing r out with
  | nil => exact ⟨out, [], drained_none tracks rfl⟩
  | cons entry rest ih =>
      rw [List.map_cons, writeInSequenceLoop_cons]
      by_cases due : entry.1 = out.length
      · rw [if_pos (tracks.head_due_iff.mpr due)]
        cases wrote : sys.write r.writeCalls (pktGetLength entry.2) with
        | none => exact ⟨out, entry :: rest, drained_failed tracks wrote⟩
        | some writed =>
            have popped := tracks.pop due ((pktGetPayload entry.2).take writed)
            have payloads : sys.WritesAll → r.written = out.map pktGetPayload →
                (delivered r ((pktGetPayload entry.2).take writed)).written =
                  (out ++ [entry.2]).map pktGetPayload := by
              intro writesAll same
              rw [writesAll, Option.some_inj] at wrote
              rw [← wrote]
              exact tracks.written_whole same
            dsimp only
            split_ifs with ended
            · have noRest : rest = [] := by
                have empty := ended.1
                rw [popped.list, List.length_map] at empty
                exact List.eq_nil_of_length_eq_zero empty
              subst noRest
              exact ⟨_, _, drained_ended due popped payloads ended.2.1⟩
            · obtain ⟨out', rest', drained⟩ := ih (popped.acknowledge sys)
              exact ⟨out', rest', drained.next due popped payloads⟩
      · have stopped : drain out (entry :: rest) = (out, entry :: rest) := by rw [drain, if_neg due]
        rw [if_neg (mt tracks.head_due_iff.mp due)]
        exact ⟨out, entry :: rest, drained_none tracks stopped⟩

theorem writeInSequence_drains (sys : Sys) {entries : List (Nat × Pkt)} {r : Receiver}
    {out : List Pkt} (tracks : Tracks r out entries) :
    (writeInSequence sys r = (1, r) ∧ drain out entries = (out, entries)) ∨
      ∃ out' rest, Drained sys r out entries (writeInSequence sys r).1 (writeInSequence sys r).2
        out' rest := by
  have drains := writeInSequenceLoop_drains sys tracks
  cases entries with
  | nil =>
      have noNodes : writeInSequence sys r = (0, r) := by
        simp only [writeInSequence, tracks.list, List.map_nil]
      rw [noNodes]
      exact Or.inr drains
  | cons entry rest =>
      have nodes : writeInSequence sys r =
          if (pktGetSeqnum entry.2 : Int) > r.waitedSeqnum then (1, r)
          else writeInSequenceLoop sys ((entry :: rest).map Prod.snd) r := by
        simp only [writeInSequence, tracks.list, List.map_cons]
      rw [nodes]
      by_cases ahead : (pktGetSeqnum entry.2 : Int) > r.waitedSeqnum
      · have notDue : entry.1 ≠ out.length := mt tracks.head_due_iff.mpr (ne_of_gt ahead)
        rw [if_pos ahead, drain, if_neg notDue]
        exact Or.inl ⟨rfl, rfl⟩
      · rw [if_neg ahead]
        exact Or.inr drains

/-! One packet. -/

/-- What is left of a receiver that tracked `out` and `entries` when the packet is taken into the
list and what is in sequence is written. -/
structure Accepted (sys : Sys) (r : Receiver) (out : List Pkt) (entries : List (Nat × Pkt))
    (pkt : Pkt) (code : Int) (after : Receiver) (out' : List Pkt) (rest : List (Nat × Pkt)) :
    Prop where
  tracks : Tracks after out' rest
  drains : Drains out (insertAt (absoluteNumber out.length pkt) pkt entries) out' rest
  grows : Grows sys r after
  lastTimestamp : after.lastTimestamp = pktGetTimestamp pkt
  ended : code = 0 ∨ code = -1 ∨ code = -2 ∧
    (pktGetLength pkt = 0 ∨ ∃ entry ∈ entries, pktGetLength entry.2 = 0)
  whole : code ≠ -1 →
    (out', rest) = drain out (insertAt (absoluteNumber out.length pkt) pkt entries)
  succeeds : sys.WritesAll → code ≠ -1
  starts : out.length < out'.length ∨
    drain out (insertAt (absoluteNumber out.length pkt) pkt entries) =
      (out, insertAt (absoluteNumber out.length pkt) pkt entries) ∨
    after.sent = r.sent ∧ WriteFails sys r
  lastAck : code ≠ -2 → out.length < out'.length → LastAck sys after
  payloads : sys.WritesAll → r.written = out.map pktGetPayload →
    after.written = out'.map pktGetPayload

def nacked (sys : Sys) (r : Receiver) (pkt : Pkt) : Receiver :=
  { r with
    lastTimestamp := pktGetTimestamp pkt
    windowSize := (windowDivide r).windowSize
    sent := r.sent ++ [(r.written.length, packetBytes sys.crc32
      (controlPkt ptypeNack (pktGetSeqnum pkt) (windowDivide r).windowSize.toNat
        (pktGetTimestamp pkt)))] }

def reacknowledged (sys : Sys) (r : Receiver) (pkt : Pkt) : Receiver :=
  { r with
    lastTimestamp := pktGetTimestamp pkt
    sent := r.sent ++ [ackEntry sys r.written.length r.windowSize.toNat (pktGetTimestamp pkt)] }

def closed (sys : Sys) (r : Receiver) (pkt : Pkt) : Receiver :=
  { r with
    lastTimestamp := pktGetTimestamp pkt
    sent := r.sent ++ [(r.written.length, packetBytes sys.crc32
      (controlPkt ptypeData (pktGetSeqnum pkt) r.windowSize.toNat (pktGetTimestamp pkt)))] }

theorem grows_reacknowledged (sys : Sys) {r : Receiver} (valid : r.WindowValid) (pkt : Pkt) :
    Grows sys r (reacknowledged sys r pkt) := by
  refine ⟨Int.le_refl _, Nat.le_refl _, _, rfl, fun answer member => ?_⟩
  obtain rfl := List.mem_singleton.mp member
  exact ackEntry_answer sys valid _ (Nat.le_refl _)

theorem grows_closed (sys : Sys) {r : Receiver} (valid : r.WindowValid) (pkt : Pkt) :
    Grows sys r (closed sys r pkt) := by
  refine ⟨Int.le_refl _, Nat.le_refl _, _, rfl, fun answer member => ?_⟩
  obtain rfl := List.mem_singleton.mp member
  exact control_answer sys (by decide) (by decide) valid _ _

inductive Outcome (sys : Sys) (r : Receiver) (out : List Pkt) (entries : List (Nat × Pkt))
    (pkt : Pkt) : Int → Receiver → Prop
  | notData : pktGetType pkt ≠ ptypeData → Outcome sys r out entries pkt (-1) r
  | truncated : pktGetType pkt = ptypeData → pktGetTr pkt = 1 →
      Outcome sys r out entries pkt 0 (nacked sys r pkt)
  | accepted {code after out' rest} : pktGetType pkt = ptypeData → pktGetTr pkt ≠ 1 →
      r.checkInWindow (pktGetSeqnum pkt) = true →
      Accepted sys r out entries pkt code after out' rest → Outcome sys r out entries pkt code after
  | closed : pktGetType pkt = ptypeData → pktGetTr pkt ≠ 1 →
      r.checkInWindow (pktGetSeqnum pkt) = false → pktGetLength pkt = 0 →
      Outcome sys r out entries pkt (-2) (closed sys r pkt)
  | outOfWindow : pktGetType pkt = ptypeData → pktGetTr pkt ≠ 1 →
      r.checkInWindow (pktGetSeqnum pkt) = false →
      ((pktGetSeqnum pkt : Int) = r.waitedSeqnum - 1 → pktGetLength pkt ≠ 0) →
      Outcome sys r out entries pkt 0 (reacknowledged sys r pkt)

theorem windowDivide_valid {r : Receiver} (valid : r.WindowValid) : (windowDivide r).WindowValid := by
  obtain ⟨low, high⟩ := valid
  rw [windowDivide]
  split
  · refine ⟨?_, ?_⟩
    · show 1 ≤ r.windowSize / 2
      omega
    · show r.windowSize / 2 ≤ 31
      omega
  · exact ⟨low, high⟩

section

variable (sys : Sys) {r : Receiver} {out : List Pkt} {entries : List (Nat × Pkt)}

theorem Tracks.insert (tracks : Tracks r out entries) {pkt : Pkt} (valid : pkt.Valid)
    (inWindow : r.checkInWindow (pktGetSeqnum pkt) = true) (timestamp : BitVec 32) :
    Tracks { r with lastTimestamp := timestamp, list := addSpecificQueue r.list pkt } out
      (insertAt (absoluteNumber out.length pkt) pkt entries) := by
  obtain ⟨due, near⟩ := absoluteNumber_bounds out.length pkt
  have residue := absoluteNumber_mod out.length pkt
  have arc : Comparable 256 31 out.length (absoluteNumber out.length pkt) := by
    apply Receiver.checkInWindow_comparable tracks.waited tracks.window due near
    rw [residue]
    exact inWindow
  have members := insertAt_number_mem (absoluteNumber out.length pkt) pkt entries
  refine ⟨tracks.written_length, ?_, tracks.waited, ⟨tracks.window.low, tracks.window.high⟩,
    insertAt_sorted _ _ tracks.sorted, ?_, ?_, ?_⟩
  · rw [← addSpecificQueue_insertAt residue.symm tracks.numbered (tracks.separated due arc),
      ← tracks.list]
  · intro entry member
    rcases members entry member with rfl | old
    · exact residue.symm
    · exact tracks.numbered entry old
  · intro entry member
    rcases members entry member with rfl | old
    · exact valid
    · exact tracks.valid entry old
  · intro entry member
    rcases members entry member with rfl | old
    · exact ⟨due, arc⟩
    · exact tracks.arc entry old

def afterSequence (result : Int × Receiver) : Int × Receiver :=
  if result.1 = -1 then (-1, result.2)
  else if result.1 = -10 then (-2, result.2)
  else if result.1 = 1 then
    (0, sendAck sys result.2 (createAck result.2 result.2.waitedSeqnum ptypeAck)
      result.2.lastTimestamp)
  else (0, result.2)

theorem afterSequence_waiting (r : Receiver) :
    afterSequence sys (1, r) =
      (0, sendAck sys r (createAck r r.waitedSeqnum ptypeAck) r.lastTimestamp) := rfl

theorem accepted_waiting {pkt : Pkt} {after : Receiver}
    (inserted : Tracks { r with
      lastTimestamp := pktGetTimestamp pkt, list := addSpecificQueue r.list pkt } out
      (insertAt (absoluteNumber out.length pkt) pkt entries))
    (stopped : drain out (insertAt (absoluteNumber out.length pkt) pkt entries) =
      (out, insertAt (absoluteNumber out.length pkt) pkt entries))
    (same : after = { r with
      lastTimestamp := pktGetTimestamp pkt
      list := addSpecificQueue r.list pkt
      sent := r.sent ++ [ackEntry sys r.written.length r.windowSize.toNat (pktGetTimestamp pkt)] }) :
    Accepted sys r out entries pkt 0 after out
      (insertAt (absoluteNumber out.length pkt) pkt entries) := by
  subst same
  exact
    { tracks := inserted.of_same rfl rfl rfl ⟨inserted.window.low, inserted.window.high⟩
      drains := Drains.stop
      grows := by
        refine ⟨Int.le_refl _, Nat.le_refl _, _, rfl, ?_⟩
        intro answer member
        obtain rfl := List.mem_singleton.mp member
        exact ackEntry_answer sys (r := r) ⟨inserted.window.low, inserted.window.high⟩ _
          (Nat.le_refl _)
      lastTimestamp := rfl
      ended := Or.inl rfl
      whole := fun _ => stopped.symm
      succeeds := fun _ => by decide
      starts := Or.inr (Or.inl stopped)
      lastAck := by
        intro _ more
        exact absurd more (Nat.lt_irrefl _)
      payloads := fun _ same => same }

theorem Drained.accepted {pkt : Pkt} {code : Int} {after : Receiver} {out' : List Pkt}
    {rest : List (Nat × Pkt)}
    (drained : Drained sys { r with
      lastTimestamp := pktGetTimestamp pkt, list := addSpecificQueue r.list pkt } out
      (insertAt (absoluteNumber out.length pkt) pkt entries) code after out' rest) :
    Accepted sys r out entries pkt (afterSequence sys (code, after)).1
      (afterSequence sys (code, after)).2 out' rest := by
  have grows : Grows sys r
      { r with lastTimestamp := pktGetTimestamp pkt, list := addSpecificQueue r.list pkt } :=
    ⟨Int.le_refl _, Nat.le_refl _, [], by simp⟩
  have codes : (afterSequence sys (code, after)).2 = after ∧
      (code = 0 ∧ (afterSequence sys (code, after)).1 = 0 ∨
        code = -1 ∧ (afterSequence sys (code, after)).1 = -1 ∨
        code = -10 ∧ (afterSequence sys (code, after)).1 = -2) := by
    rcases drained.ended with rfl | rfl | ⟨rfl, _⟩
    · exact ⟨rfl, Or.inl ⟨rfl, rfl⟩⟩
    · exact ⟨rfl, Or.inr (Or.inl ⟨rfl, rfl⟩)⟩
    · exact ⟨rfl, Or.inr (Or.inr ⟨rfl, rfl⟩)⟩
  obtain ⟨same, codes⟩ := codes
  rw [same]
  exact
    { tracks := drained.tracks
      drains := drained.drains
      grows := grows.trans drained.grows
      lastTimestamp := drained.lastTimestamp
      ended := by
        rcases drained.ended with zero | failed | ⟨ten, entry, member, empty⟩
        · left
          omega
        · right; left
          omega
        · refine Or.inr (Or.inr ⟨by omega, ?_⟩)
          rcases insertAt_number_mem _ _ _ entry member with rfl | old
          · exact Or.inl empty
          · exact Or.inr ⟨entry, old, empty⟩
      whole := by
        intro succeeded
        exact drained.whole (by omega)
      succeeds := by
        intro writesAll
        have succeeded := drained.succeeds writesAll
        omega
      starts := drained.starts
      lastAck := by
        intro goes more
        exact drained.lastAck (by omega) (Or.inr more)
      payloads := drained.payloads }

theorem afterSequence_accepted (tracks : Tracks r out entries) {pkt : Pkt} (valid : pkt.Valid)
    (inWindow : r.checkInWindow (pktGetSeqnum pkt) = true) {result : Int × Receiver}
    (same : result = afterSequence sys (writeInSequence sys
      { r with lastTimestamp := pktGetTimestamp pkt, list := addSpecificQueue r.list pkt })) :
    ∃ out' rest, Accepted sys r out entries pkt result.1 result.2 out' rest := by
  have inserted := tracks.insert valid inWindow (pktGetTimestamp pkt)
  rcases writeInSequence_drains sys inserted with ⟨waits, stopped⟩ | ⟨out', rest, drained⟩
  · rw [waits, afterSequence_waiting, sendAck_waited sys inserted.window inserted.waited_written]
      at same
    subst same
    exact ⟨out, _, accepted_waiting sys inserted stopped rfl⟩
  · subst same
    exact ⟨out', rest, drained.accepted⟩

def stamped (r : Receiver) (pkt : Pkt) : Receiver :=
  { r with lastTimestamp := pktGetTimestamp pkt }

theorem stamped_valid (valid : r.WindowValid) (pkt : Pkt) : (stamped r pkt).WindowValid :=
  ⟨valid.low, valid.high⟩

theorem sendAck_nacked (valid : r.WindowValid) (pkt : Pkt) :
    sendAck sys (windowDivide (stamped r pkt))
      (createAck (windowDivide (stamped r pkt)) (pktGetSeqnum pkt) ptypeNack)
      (windowDivide (stamped r pkt)).lastTimestamp = nacked sys r pkt := by
  have divided : windowDivide (stamped r pkt) =
      { stamped r pkt with windowSize := (windowDivide r).windowSize } := by
    by_cases wide : r.windowSize > 1 <;> simp [windowDivide, stamped, wide]
  rw [createAck_eq (windowDivide_valid (stamped_valid valid pkt)) _ (by decide), sendAck_eq, divided]
  rfl

theorem sendAck_closed (valid : r.WindowValid) {pkt : Pkt}
    (last : (pktGetSeqnum pkt : Int) = r.waitedSeqnum - 1) :
    sendAck sys (stamped r pkt)
      (createAck (stamped r pkt) ((stamped r pkt).waitedSeqnum - 1) ptypeData)
      (stamped r pkt).lastTimestamp = closed sys r pkt := by
  have waited : (stamped r pkt).waitedSeqnum - 1 = (pktGetSeqnum pkt : Int) := last.symm
  rw [waited, createAck_eq (stamped_valid valid pkt) _ (by decide), sendAck_eq]
  rfl

theorem sendAck_reacknowledged (valid : r.WindowValid)
    (waited : r.waitedSeqnum = (r.written.length % 256 : Nat)) (pkt : Pkt) :
    sendAck sys (stamped r pkt)
      (createAck (stamped r pkt) (stamped r pkt).waitedSeqnum ptypeAck)
      (stamped r pkt).lastTimestamp = reacknowledged sys r pkt :=
  sendAck_waited sys (stamped_valid valid pkt) waited _

theorem readPacketR_eq (r : Receiver) (pkt : Pkt) :
    readPacketR sys r pkt =
      if pktGetLength pkt > maxPayloadSize then (-1, r)
      else if pktGetType pkt ≠ ptypeData then (-1, r)
      else if pktGetTr pkt = 1 then
        (0, sendAck sys (windowDivide (stamped r pkt))
          (createAck (windowDivide (stamped r pkt)) (pktGetSeqnum pkt) ptypeNack)
          (windowDivide (stamped r pkt)).lastTimestamp)
      else if r.checkInWindow (pktGetSeqnum pkt) then
        afterSequence sys (writeInSequence sys
          { r with lastTimestamp := pktGetTimestamp pkt, list := addSpecificQueue r.list pkt })
      else if (pktGetSeqnum pkt : Int) = r.waitedSeqnum - 1 ∧ pktGetLength pkt = 0 ∧
          pktGetType pkt = ptypeData then
        (-2, sendAck sys (stamped r pkt)
          (createAck (stamped r pkt) ((stamped r pkt).waitedSeqnum - 1) ptypeData)
          (stamped r pkt).lastTimestamp)
      else
        (0, sendAck sys (stamped r pkt)
          (createAck (stamped r pkt) (stamped r pkt).waitedSeqnum ptypeAck)
          (stamped r pkt).lastTimestamp) := rfl

theorem Pkt.Valid.getLength_le {pkt : Pkt} (valid : pkt.Valid) : ¬pktGetLength pkt > maxPayloadSize :=
  Nat.not_lt.mpr valid.length

theorem readPacketR_notData {pkt : Pkt} (valid : pkt.Valid) (other : pktGetType pkt ≠ ptypeData)
    (r : Receiver) : readPacketR sys r pkt = (-1, r) := by
  rw [readPacketR_eq, if_neg valid.getLength_le, if_pos other]

theorem readPacketR_truncated {pkt : Pkt} (valid : pkt.Valid) (data : pktGetType pkt = ptypeData)
    (truncated : pktGetTr pkt = 1) (window : r.WindowValid) :
    readPacketR sys r pkt = (0, nacked sys r pkt) := by
  rw [readPacketR_eq, if_neg valid.getLength_le, if_neg (not_not.mpr data), if_pos truncated,
    sendAck_nacked sys window]

theorem readPacketR_accepted {pkt : Pkt} (valid : pkt.Valid) (data : pktGetType pkt = ptypeData)
    (whole : pktGetTr pkt ≠ 1) (inWindow : r.checkInWindow (pktGetSeqnum pkt) = true) :
    readPacketR sys r pkt = afterSequence sys (writeInSequence sys
      { r with lastTimestamp := pktGetTimestamp pkt, list := addSpecificQueue r.list pkt }) := by
  rw [readPacketR_eq, if_neg valid.getLength_le, if_neg (not_not.mpr data), if_neg whole,
    if_pos inWindow]

theorem readPacketR_closed {pkt : Pkt} (valid : pkt.Valid) (data : pktGetType pkt = ptypeData)
    (whole : pktGetTr pkt ≠ 1) (outside : r.checkInWindow (pktGetSeqnum pkt) = false)
    (last : (pktGetSeqnum pkt : Int) = r.waitedSeqnum - 1) (empty : pktGetLength pkt = 0)
    (window : r.WindowValid) : readPacketR sys r pkt = (-2, closed sys r pkt) := by
  rw [readPacketR_eq, if_neg valid.getLength_le, if_neg (not_not.mpr data), if_neg whole,
    if_neg (Bool.eq_false_iff.mp outside), if_pos ⟨last, empty, data⟩, sendAck_closed sys window last]

theorem readPacketR_outOfWindow {pkt : Pkt} (valid : pkt.Valid) (data : pktGetType pkt = ptypeData)
    (whole : pktGetTr pkt ≠ 1) (outside : r.checkInWindow (pktGetSeqnum pkt) = false)
    (notLast : (pktGetSeqnum pkt : Int) = r.waitedSeqnum - 1 → pktGetLength pkt ≠ 0)
    (window : r.WindowValid) (waited : r.waitedSeqnum = (r.written.length % 256 : Nat)) :
    readPacketR sys r pkt = (0, reacknowledged sys r pkt) := by
  rw [readPacketR_eq, if_neg valid.getLength_le, if_neg (not_not.mpr data), if_neg whole,
    if_neg (Bool.eq_false_iff.mp outside), if_neg fun repeated => notLast repeated.1 repeated.2.1,
    sendAck_reacknowledged sys window waited]

theorem readPacketR_outcome (tracks : Tracks r out entries) {pkt : Pkt} (valid : pkt.Valid) :
    Outcome sys r out entries pkt (readPacketR sys r pkt).1 (readPacketR sys r pkt).2 := by
  have window := tracks.window
  by_cases data : pktGetType pkt = ptypeData
  swap
  · rw [readPacketR_notData sys valid data]
    exact Outcome.notData data
  by_cases truncated : pktGetTr pkt = 1
  · rw [readPacketR_truncated sys valid data truncated window]
    exact Outcome.truncated data truncated
  by_cases inWindow : r.checkInWindow (pktGetSeqnum pkt) = true
  · obtain ⟨out', rest, accepted⟩ := afterSequence_accepted sys tracks valid inWindow
      (readPacketR_accepted sys valid data truncated inWindow)
    exact Outcome.accepted data truncated inWindow accepted
  have outside := Bool.eq_false_iff.mpr inWindow
  by_cases last : (pktGetSeqnum pkt : Int) = r.waitedSeqnum - 1 ∧ pktGetLength pkt = 0
  · rw [readPacketR_closed sys valid data truncated outside last.1 last.2 window]
    exact Outcome.closed data truncated outside last.2
  · have notLast : (pktGetSeqnum pkt : Int) = r.waitedSeqnum - 1 → pktGetLength pkt ≠ 0 :=
      fun seqnum empty => last ⟨seqnum, empty⟩
    rw [readPacketR_outOfWindow sys valid data truncated outside notLast window tracks.waited_written]
    exact Outcome.outOfWindow data truncated outside notLast

end

end SelectiveRepeat
