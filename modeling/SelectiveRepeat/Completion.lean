import SelectiveRepeat.JointSafety
import SelectiveRepeat.Library.Fairness
import SelectiveRepeat.SenderTurns

/-! Every fair run ends: if the links let through again and again what is sent again and again, the
sender returns, and the whole input is written. -/

namespace SelectiveRepeat

open Bytes Fairness Filter

/-- The clock is never set back and never stops, and less than 18 hours pass between two calls. -/
def Sys.ClockRuns (sys : Sys) : Prop :=
  ∃ seconds : Nat → Nat, (∀ call, sys.time call = BitVec.ofNat 32 (seconds call)) ∧
    Monotone seconds ∧ (∀ call, seconds (call + 1) ≤ seconds call + 65536) ∧
    ∀ bound, ∃ call, bound < seconds call

/-- Whatever the stamp, its timer runs out, and stays so for longer than one turn of the loop. -/
theorem Sys.ClockRuns.late {sys : Sys} (clock : sys.ClockRuns) (stamp : BitVec 32) (call : Nat) :
    ∃ later, call ≤ later ∧
      ∀ within ≤ 32, (sys.time (later + within) - stamp).toNat ≥ retransmissionTimer := by
  obtain ⟨seconds, times, mono, slow, endless⟩ := clock
  have target : ∃ target, seconds call ≤ target ∧ target % 4294967296 =
      (stamp.toNat + retransmissionTimer) % 4294967296 :=
    ⟨stamp.toNat + retransmissionTimer + 4294967296 * seconds call, by omega, by omega⟩
  obtain ⟨target, ahead, residue⟩ := target
  obtain ⟨last, passed⟩ := endless target
  have order : call ≤ last := by
    by_contra earlier
    have less := mono (Nat.le_of_not_le earlier)
    omega
  obtain ⟨n, behind, below, above⟩ := exists_crossing seconds order ahead passed
  refine ⟨n + 1, by omega, fun within small => ?_⟩
  have reached : seconds (n + 1) ≤ seconds (n + 1 + within) := mono (Nat.le_add_right _ _)
  have close := count_add_le slow n (within + 1)
  rw [← Nat.add_assoc, Nat.add_right_comm] at close
  have size := stamp.isLt
  rw [times, BitVec.toNat_sub, BitVec.toNat_ofNat]
  simp only [retransmissionTimer] at residue ⊢
  omega

/-- The system calls fail finitely often. -/
structure Sys.Recovers (sys : Sys) : Prop where
  sends : ∀ᶠ call in atTop, sys.send call = true
  reads : ∀ᶠ call in atTop, sys.read call ≠ none
  clock : sys.ClockRuns

/-- A `select` that fails, or the timeout of the receiver. -/
def GivesUp : JointEvent → Prop
  | .sender .selectError => True
  | .receiver .selectError => True
  | .receiver .selectTimeout => True
  | _ => False

def Appends (before after : List (Nat × Datagram)) (datagram : Datagram) : Prop :=
  ∃ entry ∈ after.drop before.length, datagram = entry.2

/-- A run in which nobody gives up before the sender has returned, the file is readable again and
again, and each link is fair. What arrives is `Permitted`, as in the runs of `JointReachable`: a copy
arrives within its lifetime (`ChunkInTime`, `AnswerInTime`), whole or cut to its header, or else its
corruption shows. -/
structure FairRun (sys : Sys) (input : List Byte) (events : Nat → JointEvent) (run : Nat → Joint) :
    Prop where
  follows : Follows (jointStep sys) (Joint.init input) events run
  permitted : ∀ n, Permitted sys (run n) (events n)
  patient : ∀ n, (run n).sender.stage ≠ .returned 0 → ¬GivesUp (events n)
  reads : ∃ᶠ n in atTop, (run n).sender.stage = .returned 0 ∨
    (run n).sender.stage = .select ∧ events n = .sender .fileReadable
  data : FairLink
    (fun n => Appends (run n).sender.state.sent (run (n + 1)).sender.state.sent)
    (fun n datagram => ∃ stale, events n = .receiver (.readable (some datagram) stale))
  answers : FairLink
    (fun n => Appends (run n).receiver.state.sent (run (n + 1)).receiver.state.sent)
    (fun n datagram => (run n).sender.stage = .select ∧
      ∃ stale, events n = .sender (.socketReadable (some datagram) stale))

section

variable {sys : Sys} {input : List Byte}

/-! The end of the file comes last, so no run of the receiver ends before the sender has returned. -/

theorem JointValid.arrives_nonempty {joint : Joint} (valid : JointValid sys input joint)
    (running : joint.sender.stage ≠ .returned 0) {datagram : Datagram} {stale : Memory}
    (permitted : Permitted sys joint (.receiver (.readable (some datagram) stale))) {pkt : Pkt}
    (decodes : Decodes sys datagram stale pkt) (whole : pktGetTr pkt ≠ 1) : pktGetLength pkt ≠ 0 := by
  rcases permitted with ⟨entry, sent, _, intact | cut⟩ | rejected
  · subst intact
    obtain ⟨other, arrives, carries⟩ := (valid.sender.transfers sent).decodes stale
    obtain rfl := decodes.unique arrives
    exact valid.nonempty running decodes.valid carries.payload
  · subst cut
    obtain ⟨_, _, _, _, _, bytes, _⟩ := valid.sender.transfers sent
    have nonempty : entry.2 ≠ [] := by
      rw [bytes, packetBytes]
      exact List.cons_ne_nil _ _
    exact absurd (decodes.cut_getTr nonempty) whole
  · exact absurd decodes (rejected pkt)

theorem JointValid.goes_on {joint : Joint} (valid : JointValid sys input joint)
    (running : joint.sender.stage ≠ .returned 0) {datagram : Datagram} {stale : Memory}
    (permitted : Permitted sys joint (.receiver (.readable (some datagram) stale))) :
    (readToListR sys joint.receiver.state (some datagram) stale).1 ≠ -2 := by
  by_cases decoded : ∃ pkt, Decodes sys datagram stale pkt
  · obtain ⟨pkt, decodes⟩ := decoded
    obtain ⟨out, entries, tracks, transfers, _⟩ := valid.receiver
    have outcome := readPacketR_outcome sys tracks decodes.valid
    rw [readToListR_decodes decodes]
    generalize readPacketR sys joint.receiver.state pkt = result at outcome
    obtain ⟨code, after⟩ := result
    cases outcome with
    | notData _ => exact show (-1 : Int) ≠ -2 by decide
    | truncated _ _ => exact show (0 : Int) ≠ -2 by decide
    | outOfWindow _ _ _ _ => exact show (0 : Int) ≠ -2 by decide
    | closed _ whole _ empty =>
        exact absurd empty (valid.arrives_nonempty running permitted decodes whole)
    | accepted _ whole _ accepted =>
        rcases accepted.ended with zero | failed | ⟨_, empty | ⟨entry, held, empty⟩⟩
        · show code ≠ -2
          omega
        · show code ≠ -2
          omega
        · exact absurd empty (valid.arrives_nonempty running permitted decodes whole)
        · exact absurd empty (valid.nonempty running (tracks.valid entry held)
            (transfers entry.1 entry.2 (Or.inr held)))
  · rw [readToListR_rejected (not_exists.mp decoded)]
    exact show (-1 : Int) ≠ -2 by decide


variable {events : Nat → JointEvent} {run : Nat → Joint}

theorem FairRun.valid (fair : FairRun sys input events run) (n : Nat) :
    JointValid sys input (run n) :=
  fair.follows.invariant (JointValid sys input) (init_jointValid sys input) jointStep_valid
    fair.permitted n

/-- From this time on nothing more is read or acknowledged, and the sender never returns. -/
structure Stuck (first : Nat) (run : Nat → Joint) : Prop where
  running : ∀ n, (run n).sender.stage ≠ .returned 0
  quiet : ∀ n, first ≤ n → Quiet (run n).sender.state (run (n + 1)).sender.state

theorem FairRun.stuck (fair : FairRun sys input events run)
    (running : ∀ n, (run n).sender.stage ≠ .returned 0) : ∃ first, Stuck first run := by
  have cases (n : Nat) : remaining (run (n + 1)).sender.state < remaining (run n).sender.state ∨
      Quiet (run n).sender.state (run (n + 1)).sender.state := by
    rw [fair.follows.next]
    cases events n with
    | sender event => exact processSender_remaining (fair.valid n).sender event
    | receiver event => exact Or.inr ⟨rfl, rfl, rfl⟩
  have less (n : Nat) : remaining (run (n + 1)).sender.state ≤ remaining (run n).sender.state := by
    rcases cases n with fewer | quiet
    · exact Nat.le_of_lt fewer
    · rw [remaining, remaining, quiet.fileIn, quiet.list]
  obtain ⟨first, same⟩ :=
    eventually_constant (fun n => remaining (run n).sender.state) less
  refine ⟨first, running, fun n later => (cases n).resolve_left ?_⟩
  have now := same n later
  have next := same (n + 1) (by omega)
  omega

/-! A turn of the sender comes again and again. -/

theorem FairRun.calls (fair : FairRun sys input events run) (n : Nat) :
    Calls 32 (run n).sender.state (run (n + 1)).sender.state := by
  rw [fair.follows.next]
  cases events n with
  | sender event => exact processSender_calls (fair.valid n).sender event
  | receiver event => exact Calls.refl _ _

/-- The n-th step is one of the sender, at this stage. -/
def StepsAt (stage : SenderStage) (events : Nat → JointEvent) (run : Nat → Joint) (n : Nat) : Prop :=
  (run n).sender.stage = stage ∧ ∃ event, events n = .sender event

theorem FairRun.reading (fair : FairRun sys input events run)
    (running : ∀ n, (run n).sender.stage ≠ .returned 0) :
    ∃ᶠ n in atTop, (run n).sender.stage = .select ∧ events n = .sender .fileReadable :=
  fair.reads.mono fun n reads => reads.resolve_left (running n)

theorem FairRun.left (fair : FairRun sys input events run) {n : Nat}
    (reading : (run n).sender.stage = .select ∧ events n = .sender .fileReadable) :
    (run (n + 1)).sender.stage = .endOfFile := by
  rw [fair.follows.next, reading.2]
  show (processSender sys (run n).sender .fileReadable).stage = .endOfFile
  simp only [processSender, reading.1]

theorem FairRun.stays (fair : FairRun sys input events run) {n : Nat}
    (elsewhere : ¬StepsAt (run n).sender.stage events run n) :
    (run (n + 1)).sender = (run n).sender := by
  cases event : events n with
  | sender event' => exact absurd ⟨rfl, event', event⟩ elsewhere
  | receiver event' => rw [fair.follows.next, event, jointStep]

theorem FairRun.ends (fair : FairRun sys input events run)
    (running : ∀ n, (run n).sender.stage ≠ .returned 0) :
    ∃ᶠ n in atTop, StepsAt .endOfFile events run n := by
  apply frequently_through fun n => (run n).sender.stage ≠ .endOfFile
  · refine (fair.reading running).mono fun n reading => ⟨?_, not_not.mpr (fair.left reading)⟩
    rw [reading.1]
    decide
  · intro n here elsewhere
    rw [not_not] at here ⊢
    rw [← here] at elsewhere
    rw [fair.stays elsewhere, here]

theorem processSender_back {process : SenderProcess} {event : SenderEvent}
    (back : (processSender sys process event).stage = .select) : process.stage = .timeouts := by
  obtain ⟨s, stage⟩ := process
  cases stage with
  | timeouts => rfl
  | returned code => exact absurd back (by simp [processSender])
  | endOfFile =>
      simp only [processSender] at back
      split at back
      · dsimp only at back
        split at back <;> exact absurd back (by decide)
      · exact absurd back (by simp)
  | select =>
      cases event with
      | socketReadable datagram stale =>
          simp only [processSender] at back
          split at back <;> exact absurd back (by decide)
      | selectError => exact absurd back (by simp [processSender])
      | selectTimeout => exact absurd back (by simp [processSender])
      | fileReadable => exact absurd back (by simp [processSender])

theorem FairRun.passes (fair : FairRun sys input events run)
    (running : ∀ n, (run n).sender.stage ≠ .returned 0) :
    ∃ᶠ n in atTop, StepsAt .timeouts events run n := by
  apply frequently_through fun n => (run n).sender.stage = .select
  · refine (fair.reading running).mono fun n reading => ⟨reading.1, ?_⟩
    rw [fair.left reading]
    decide
  · intro n here elsewhere back
    by_cases steps : StepsAt (run n).sender.stage events run n
    · obtain ⟨_, event, same⟩ := steps
      rw [fair.follows.next, same] at back
      exact elsewhere ⟨processSender_back back, event, same⟩
    · rw [fair.stays steps] at back
      exact here back

/-! The oldest packet is sent again and again. -/

theorem Stuck.same {first : Nat} (stuck : Stuck first run) {n : Nat} (later : first ≤ n) :
    Quiet (run first).sender.state (run n).sender.state := by
  induction n, later using Nat.le_induction with
  | base => exact ⟨rfl, rfl, rfl⟩
  | succ n later ih =>
      obtain ⟨reads, fileIn, list⟩ := stuck.quiet n later
      exact ⟨reads.trans ih.reads, fileIn.trans ih.fileIn, list.trans ih.list⟩

theorem Stuck.outstanding {first : Nat} (stuck : Stuck first run)
    (waiting : (run first).sender.state.list ≠ []) {n : Nat} (later : first ≤ n) :
    (run n).sender.state.list ≠ [] := by
  have positive := List.length_pos_of_ne_nil waiting
  have same := (stuck.same later).list
  exact List.ne_nil_of_length_pos (by omega)

theorem FairRun.step_cases (fair : FairRun sys input events run) {first : Nat}
    (stuck : Stuck first run) (waiting : (run first).sender.state.list ≠ []) {n : Nat}
    (later : first ≤ n) :
    (run (n + 1)).sender.state.list = (run n).sender.state.list ∧
        (run (n + 1)).sender.state.timeCalls = (run n).sender.state.timeCalls ∨
      StepsAt .timeouts events run n ∧
        (run (n + 1)).sender.state = (checkTimeout sys (run n).sender.state).2 := by
  have quiet := stuck.quiet n later
  have outstanding := stuck.outstanding waiting later
  rw [fair.follows.next] at quiet ⊢
  cases same : events n with
  | receiver event => exact Or.inl ⟨rfl, rfl⟩
  | sender event =>
      rw [same] at quiet
      by_cases stage : (run n).sender.stage = .timeouts
      · right
        refine ⟨⟨stage, event, same⟩, ?_⟩
        show (processSender sys (run n).sender event).state = _
        simp only [processSender, stage]
      · exact Or.inl (processSender_rests (fair.valid n).sender outstanding stage quiet)

theorem FairRun.head_kept (fair : FairRun sys input events run) {first : Nat}
    (stuck : Stuck first run) {start : Nat} (late : first ≤ start) {head : Pkt} {next : List Pkt}
    (nodes : (run start).sender.state.list = head :: next)
    (early : ∀ n, start ≤ n → ¬(StepsAt .timeouts events run n ∧ HeadDue sys (run n).sender.state))
    {n : Nat} (later : start ≤ n) : ∃ next', (run n).sender.state.list = head :: next' := by
  have waiting : (run first).sender.state.list ≠ [] := by
    have same := (stuck.same late).list
    rw [nodes, List.length_cons] at same
    exact List.ne_nil_of_length_pos (by omega)
  induction n, later using Nat.le_induction with
  | base => exact ⟨next, nodes⟩
  | succ n later ih =>
      obtain ⟨next', kept⟩ := ih
      rcases fair.step_cases stuck waiting (late.trans later) with ⟨list, _⟩ | ⟨pass, state⟩
      · exact ⟨next', list.trans kept⟩
      · rw [state]
        exact checkTimeout_early kept fun due => early n later ⟨pass, due⟩

theorem FairRun.times (fair : FairRun sys input events run) {first : Nat}
    (stuck : Stuck first run) (bound : Nat) :
    ∀ᶠ n in atTop, bound ≤ (run n).sender.state.timeCalls := by
  refine eventually_ge (monotone_nat_of_le_succ fun n => (fair.calls n).time.1) ?_ bound
  refine ((fair.passes stuck.running).and_eventually (eventually_ge_atTop first)).mono ?_
  rintro n ⟨pass, later⟩
  obtain ⟨stage, event, same⟩ := pass
  rw [fair.follows.next, same]
  exact processSender_ticks (fair.valid n).sender stage event

theorem FairRun.due_again (fair : FairRun sys input events run) (clock : sys.ClockRuns) {first : Nat}
    (stuck : Stuck first run) (waiting : (run first).sender.state.list ≠ []) :
    ∃ᶠ n in atTop, first ≤ n ∧ StepsAt .timeouts events run n ∧ HeadDue sys (run n).sender.state := by
  refine frequently_atTop.mpr fun bound => ?_
  by_contra never
  push Not at never
  have late : first ≤ max bound first := le_max_right _ _
  obtain ⟨head, next, nodes⟩ := List.exists_cons_of_ne_nil (stuck.outstanding waiting late)
  have early (n : Nat) (later : max bound first ≤ n) :
      ¬(StepsAt .timeouts events run n ∧ HeadDue sys (run n).sender.state) := fun both =>
    never n ((le_max_left _ _).trans later) (late.trans later) both.1 both.2
  obtain ⟨call, ahead, due⟩ := clock.late (pktGetTimestamp head)
    (run (max bound first)).sender.state.timeCalls
  obtain ⟨last, order, above⟩ :=
    ((eventually_ge_atTop (max bound first)).and (fair.times stuck (call + 32 + 1))).exists
  have below : (run (max bound first)).sender.state.timeCalls ≤ call + 32 := by omega
  obtain ⟨n, later, below, passed⟩ :=
    exists_crossing (fun n => (run n).sender.state.timeCalls) order below above
  have calls := (fair.calls n).time
  obtain ⟨next', kept⟩ := fair.head_kept stuck late nodes early later
  rcases fair.step_cases stuck waiting (late.trans later) with ⟨_, same⟩ | ⟨pass, _⟩
  · omega
  · refine early n later ⟨pass, head, next', kept, ?_⟩
    have timer := due ((run n).sender.state.timeCalls - call) (by omega)
    rwa [Nat.add_sub_cancel' (by omega)] at timer

theorem FairRun.sends (fair : FairRun sys input events run) (recovers : sys.Recovers)
    (moves : ∃ᶠ n in atTop,
      (run n).sender.state.sendCalls < (run (n + 1)).sender.state.sendCalls) :
    ∀ᶠ n in atTop, sys.send (run n).sender.state.sendCalls = true := by
  obtain ⟨bound, succeeds⟩ := eventually_atTop.mp recovers.sends
  have mono := monotone_nat_of_le_succ fun n => (fair.calls n).send
  exact (eventually_ge mono moves bound).mono fun n passed => succeeds _ passed

theorem Stuck.base {first : Nat} (stuck : Stuck first run) {base : Nat}
    (outstanding : Outstanding (run first).sender.state.reads base (run first).sender.state.list)
    {n : Nat} (later : first ≤ n) (valid : SenderValid sys input (run n).sender.state) :
    Outstanding (run n).sender.state.reads base (run n).sender.state.list := by
  obtain ⟨base', kept⟩ := valid.outstanding
  obtain ⟨reads, _, list⟩ := stuck.same later
  have before := outstanding.length
  have after := kept.length
  rw [reads] at after
  obtain rfl : base' = base := by omega
  exact kept

theorem FairRun.copies (fair : FairRun sys input events run) (recovers : sys.Recovers) {first : Nat}
    (stuck : Stuck first run) (waiting : (run first).sender.state.list ≠ []) {base : Nat}
    (outstanding : Outstanding (run first).sender.state.reads base (run first).sender.state.list) :
    ∃ᶠ n in atTop, ∃ copy ∈ Copies sys (run first).sender.state.reads base,
      Appends (run n).sender.state.sent (run (n + 1)).sender.state.sent copy := by
  have step {n : Nat} (due : first ≤ n ∧ StepsAt .timeouts events run n ∧
      HeadDue sys (run n).sender.state) :
      (run n).sender.state.sendCalls < (run (n + 1)).sender.state.sendCalls ∧
        (sys.send (run n).sender.state.sendCalls = true →
          ∃ copy ∈ Copies sys (run first).sender.state.reads base,
            Appends (run n).sender.state.sent (run (n + 1)).sender.state.sent copy) := by
    obtain ⟨later, ⟨stage, event, same⟩, due⟩ := due
    have valid := (fair.valid n).sender.running (stuck.running n)
    have pass : (run (n + 1)).sender.state = (checkTimeout sys (run n).sender.state).2 := by
      rw [fair.follows.next, same]
      show (processSender sys (run n).sender event).state = _
      simp only [processSender, stage]
    obtain ⟨moves, resent⟩ := checkTimeout_due valid (fair.valid n).window
      (stuck.base outstanding later valid) due
    rw [pass, ← (stuck.same later).reads]
    refine ⟨moves, fun sends => ?_⟩
    obtain ⟨copy, copied, later, sent⟩ := resent sends
    refine ⟨copy, copied, ((run n).sender.state.reads.length, copy), ?_, rfl⟩
    rw [sent, List.drop_left]
    exact List.mem_cons_self ..
  have again := fair.due_again recovers.clock stuck waiting
  have succeeds := fair.sends recovers (again.mono fun n due => (step due).1)
  exact (again.and_eventually succeeds).mono fun n both => (step both.1).2 both.2

/-! Every copy that arrives is answered. -/

theorem FairRun.listens (fair : FairRun sys input events run)
    (running : ∀ n, (run n).sender.stage ≠ .returned 0) (n : Nat) :
    (run n).receiver.returned = none := by
  induction n with
  | zero => rw [fair.follows.start]; rfl
  | succ n ih =>
      have patient := fair.patient n (running n)
      have permitted := fair.permitted n
      rw [fair.follows.next]
      cases same : events n with
      | sender event => exact ih
      | receiver event =>
          rw [same] at patient permitted
          cases event with
          | selectTimeout => exact absurd trivial patient
          | selectError => exact absurd trivial patient
          | readable datagram stale =>
              rw [jointStep, processReceiver_readable sys ih]
              cases datagram with
              | none => rfl
              | some datagram => exact if_neg ((fair.valid n).goes_on (running n) permitted)

def Confirmations (sys : Sys) (reads : List (List Byte)) (base : Nat) : Set Datagram :=
  { datagram | ∃ entry, Confirms sys reads base entry ∧ datagram = entry.2 }

theorem FairRun.answered (fair : FairRun sys input events run) (writesAll : sys.WritesAll)
    {first : Nat} (stuck : Stuck first run) {base : Nat}
    (outstanding : Outstanding (run first).sender.state.reads base (run first).sender.state.list)
    {n : Nat} (later : first ≤ n) {copy : Datagram}
    (copied : copy ∈ Copies sys (run first).sender.state.reads base) {stale : Memory}
    (arrives : events n = .receiver (.readable (some copy) stale)) :
    ∃ answer ∈ Confirmations sys (run first).sender.state.reads base,
      Appends (run n).receiver.state.sent (run (n + 1)).receiver.state.sent answer := by
  obtain ⟨chunk, timestamp, found, rfl⟩ := copied
  have valid := fair.valid n
  have running := stuck.running n
  have inLoop := valid.sender.running running
  have length := (stuck.base outstanding later inLoop).length
  have acknowledged := valid.acknowledged
  have size := inLoop.size
  rw [← (stuck.same later).reads] at found ⊢
  have short := (inLoop.chunks.get found).2
  have pending := (List.getElem?_eq_some_iff.mp found).1
  have decodes := decodes_packetBytes sys (dataPkt_valid short base timestamp) stale
  have carries : Carries (run n).sender base (decodedPkt sys.crc32 (dataPkt base chunk timestamp)) :=
    carries_dataPkt (by rw [transfers_of_running running, found]) short _
  rcases valid.answers_copy running decodes.valid carries pending (by omega) (by omega) with
    ⟨_, count, failed⟩ | ⟨answers, answer, sent, confirms⟩
  · rw [writesAll] at failed
    exact absurd failed (Option.some_ne_none count)
  · refine ⟨answer.2, ⟨answer, confirms, rfl⟩, answer, ?_, rfl⟩
    rw [fair.follows.next, arrives, jointStep, processReceiver_readable sys
      (fair.listens stuck.running n), readToListR_decodes decodes]
    show answer ∈ List.drop _ (readPacketR sys (run n).receiver.state _).2.sent
    rw [sent, List.append_assoc, List.drop_left]
    simp

theorem FairRun.not_outstanding (fair : FairRun sys input events run) (recovers : sys.Recovers)
    (writesAll : sys.WritesAll) {first : Nat} (stuck : Stuck first run) :
    (run first).sender.state.list = [] := by
  by_contra waiting
  obtain ⟨base, outstanding⟩ :=
    ((fair.valid first).sender.running (stuck.running first)).outstanding
  have arrive := fair.data _ (fair.copies recovers stuck waiting outstanding)
  have answered := (arrive.and_eventually (eventually_ge_atTop first)).mono
    fun n ⟨⟨copy, copied, stale, arrives⟩, later⟩ =>
      fair.answered writesAll stuck outstanding later copied arrives
  obtain ⟨n, ⟨answer, ⟨entry, confirms, rfl⟩, stage, stale, arrives⟩, later⟩ :=
    ((fair.answers _ answered).and_eventually (eventually_ge_atTop first)).exists
  have inLoop := (fair.valid n).sender.running (stuck.running n)
  have list := (stuck.quiet n later).list
  rw [← (stuck.same later).reads] at confirms
  have shorter := confirms.shrinks inLoop.chunks (stuck.base outstanding later inLoop) inLoop.size
    stale
  rw [fair.follows.next, arrives] at list
  have state : (processSender sys (run n).sender (.socketReadable (some entry.2) stale)).state =
      (checkAck sys (run n).sender.state (some entry.2) stale).2 := by
    simp only [processSender, stage]
  rw [jointStep, state] at list
  exact absurd list (Nat.ne_of_lt shorter)

/-! Nothing is outstanding: either there is more to read, or the end of the file is sent. -/

theorem SenderOutcome.ended {s after : Sender} {base : Nat} {stage stage' : SenderStage}
    {event : SenderEvent} (outcome : SenderOutcome sys s base stage event stage' after)
    (ended : s.seqnumEOF = 1) : after.seqnumEOF = 1 := by
  cases outcome with
  | rests _ _ => exact ended
  | answered outcome => cases outcome <;> exact ended
  | readFailed => exact ended
  | endRead _ => rfl
  | chunkRead reading _ _ _ => exact absurd (reading.symm.trans ended) (by decide)
  | finFailed _ _ _ => exact ended
  | finSent _ _ _ => exact ended
  | retransmits retransmits =>
      rw [retransmits.same]
      exact ended

theorem FairRun.stays_ended (fair : FairRun sys input events run) {first : Nat}
    (ended : (run first).sender.state.seqnumEOF = 1) {n : Nat} (later : first ≤ n) :
    (run n).sender.state.seqnumEOF = 1 := by
  induction n, later using Nat.le_induction with
  | base => exact ended
  | succ n later ih =>
      rw [fair.follows.next]
      cases events n with
      | receiver event => exact ih
      | sender event =>
          obtain ⟨_, _, outcome⟩ := processSender_outcome sys (fair.valid n).sender event
          exact outcome.ended ih

/-- With nothing outstanding, the end of the file cannot be refused for ever. -/
theorem FairRun.not_ended (fair : FairRun sys input events run) (recovers : sys.Recovers)
    {first : Nat} (stuck : Stuck first run) (empty : (run first).sender.state.list = []) :
    (run first).sender.state.seqnumEOF ≠ 1 := by
  intro ended
  have refused {n : Nat} (turn : StepsAt .endOfFile events run n ∧ first ≤ n) :
      ¬sys.send (run n).sender.state.sendCalls = true ∧
        (run n).sender.state.sendCalls < (run (n + 1)).sender.state.sendCalls := by
    obtain ⟨⟨stage, event, same⟩, later⟩ := turn
    have running := stuck.running (n + 1)
    have still := fair.stays_ended ended later
    have none : (run n).sender.state.list = [] :=
      List.eq_nil_of_length_eq_zero (by rw [(stuck.same later).list, empty]; rfl)
    have inLoop := (fair.valid n).sender.running (stuck.running n)
    obtain ⟨_, _, timestamp, fin⟩ := inLoop.ending.resolve_left (by rw [still]; decide)
    rw [fair.follows.next, same] at running ⊢
    simp only [jointStep, processSender, stage, if_pos still, finalSend_empty none fin] at running ⊢
    by_cases sends : sys.send (run n).sender.state.sendCalls = true
    · simp [sends] at running
    · rw [if_neg sends]
      exact ⟨sends, Nat.lt_succ_self _⟩
  have again := (fair.ends stuck.running).and_eventually (eventually_ge_atTop first)
  have succeeds := fair.sends recovers (again.mono fun n turn => (refused turn).2)
  obtain ⟨n, turn, sends⟩ := (again.and_eventually succeeds).exists
  exact (refused turn).1 sends

theorem FairRun.not_stuck (fair : FairRun sys input events run) (recovers : sys.Recovers)
    (writesAll : sys.WritesAll) {first : Nat} (stuck : Stuck first run) : False := by
  have later_stuck {n : Nat} (later : first ≤ n) : Stuck n run :=
    ⟨stuck.running, fun m after => stuck.quiet m (later.trans after)⟩
  have empty {n : Nat} (later : first ≤ n) :=
    fair.not_outstanding recovers writesAll (later_stuck later)
  have reading {n : Nat} (later : first ≤ n) : (run n).sender.state.seqnumEOF = 0 :=
    ((fair.valid n).sender.running (stuck.running n)).ending.resolve_right fun ended =>
      fair.not_ended recovers (later_stuck later) (empty later) ended.1
  have failed {n : Nat} (turn : ((run n).sender.stage = .select ∧
      events n = .sender .fileReadable) ∧ first ≤ n) :
      sys.read (run n).sender.state.readCalls = none ∧
        (run n).sender.state.readCalls < (run (n + 1)).sender.state.readCalls := by
    obtain ⟨⟨stage, same⟩, later⟩ := turn
    have inLoop := (fair.valid n).sender.running (stuck.running n)
    have window := (fair.valid n).window
    have still := reading (later.trans (Nat.le_succ n))
    have reads := (stuck.quiet n later).reads
    have room : ¬((run n).sender.state.list.length : Int) ≥ (run n).sender.state.windowSize := by
      rw [empty later]
      show ¬(0 : Int) ≥ _
      omega
    rw [fair.follows.next, same] at still reads ⊢
    simp only [jointStep, processSender, stage, if_pos (reading later)] at still reads ⊢
    rcases readFile_cases sys (run n).sender.state with
      failed | ⟨_, read⟩ | ⟨chunk, rest, bounds, _, read⟩
    · rw [readToList_failed room failed]
      refine ⟨?_, Nat.lt_succ_self _⟩
      by_contra some
      obtain ⟨most, most_eq⟩ := Option.ne_none_iff_exists'.mp some
      simp [readFile, most_eq] at failed
    · rw [readToList_read room read (by decide) inLoop.seqnum, if_pos rfl] at still
      exact absurd still Int.one_ne_zero
    · rw [readToList_read room read bounds.2 inLoop.seqnum,
        if_neg (List.ne_nil_of_length_pos bounds.1)] at reads
      have longer := congrArg List.length reads
      simp [chunkSent, transmitted, chunkTaken] at longer
  have again := (fair.reading stuck.running).and_eventually (eventually_ge_atTop first)
  obtain ⟨bound, succeeds⟩ := eventually_atTop.mp recovers.reads
  have passed := eventually_ge (monotone_nat_of_le_succ fun n => (fair.calls n).read)
    (again.mono fun n turn => (failed turn).2) bound
  obtain ⟨n, turn, enough⟩ := (again.and_eventually passed).exists
  exact succeeds _ enough (failed turn).1

end

/-- Every fair run ends: once the system calls no longer fail, and as long as each kind of datagram
that is sent again and again arrives again and again, the sender returns 0, and the receiver has
written the whole input by then. -/
theorem fair_run_completes {sys : Sys} (recovers : sys.Recovers) (writesAll : sys.WritesAll)
    {input : List Byte} {events : Nat → JointEvent} {run : Nat → Joint}
    (fair : FairRun sys input events run) :
    ∃ n, (run n).sender.stage = .returned 0 ∧ (run n).receiver.state.written.flatten = input := by
  by_contra never
  push Not at never
  have running (n : Nat) : (run n).sender.stage ≠ .returned 0 := fun returned =>
    never n returned ((fair.valid n).written_all writesAll returned).2.2
  obtain ⟨first, stuck⟩ := fair.stuck running
  exact fair.not_stuck recovers writesAll stuck

/-! The transfer of one byte, after which nothing happens any more. -/

theorem Sys.faultless_recovers : Sys.faultless.Recovers where
  sends := Eventually.of_forall fun _ => rfl
  reads := Eventually.of_forall fun _ => Option.some_ne_none 512
  clock := by
    refine ⟨fun call => 2 * call, fun _ => rfl, fun early late => Nat.mul_le_mul_left 2,
      fun call => ?_, fun bound => ⟨bound + 1, ?_⟩⟩
    · dsimp only
      omega
    · dsimp only
      omega

def oneByteEvents (n : Nat) : JointEvent :=
  (firstArrival ++ lastSteps).getD n (.sender .selectTimeout)

def oneByteRun : Nat → Joint := states (jointStep Sys.faultless) (Joint.init [0x61]) oneByteEvents

theorem oneByteRun_follows :
    Follows (jointStep Sys.faultless) (Joint.init [0x61]) oneByteEvents oneByteRun :=
  states_follows _ _ _

theorem oneByteEvents_later {n : Nat} (later : 9 ≤ n) :
    oneByteEvents n = .sender .selectTimeout := by
  rw [oneByteEvents, List.getD_eq_getElem?_getD, List.getElem?_eq_none later]
  rfl

theorem oneByteRun_returned : (oneByteRun 9).sender.stage = .returned 0 := by decide +kernel

theorem oneByteRun_later {n : Nat} (later : 9 ≤ n) : oneByteRun n = oneByteRun 9 := by
  refine oneByteRun_follows.settled (fun n later => ?_) later
  rw [oneByteEvents_later later, jointStep, processSender_finished oneByteRun_returned]

theorem oneByteRun_permitted (n : Nat) :
    Permitted Sys.faultless (oneByteRun n) (oneByteEvents n) := by
  by_cases later : 9 ≤ n
  · rw [oneByteEvents_later later]
    trivial
  · have early : n < 9 := Nat.not_le.mp later
    interval_cases n
    · trivial
    · trivial
    · trivial
    · refine Or.inl ⟨(1, firstCopy), by decide +kernel, ?_, Or.inl rfl⟩
      unfold ChunkInTime
      decide +kernel
    · exact Or.inl ⟨(1, firstAck), by decide +kernel, fun _ => by decide +kernel, rfl⟩
    · trivial
    · trivial
    · trivial
    · trivial

theorem oneByteEvents_patient (n : Nat) : ¬GivesUp (oneByteEvents n) := by
  by_cases later : 9 ≤ n
  · rw [oneByteEvents_later later]
    exact id
  · have early : n < 9 := Nat.not_le.mp later
    interval_cases n <;> exact id

theorem oneByteRun_fair : FairRun Sys.faultless [0x61] oneByteEvents oneByteRun where
  follows := oneByteRun_follows
  permitted := oneByteRun_permitted
  patient := fun n _ => oneByteEvents_patient n
  reads := (eventually_ge_atTop 9).frequently.mono fun n later => by
    rw [oneByteRun_later later]
    exact Or.inl oneByteRun_returned
  data := fairLink_silent <| (eventually_ge_atTop 9).mono fun n later message sent => by
    rw [oneByteRun_later later, oneByteRun_later (later.trans (Nat.le_succ n)), Appends,
      List.drop_length] at sent
    obtain ⟨_, absurdly, _⟩ := sent
    exact List.not_mem_nil absurdly
  answers := fairLink_silent <| (eventually_ge_atTop 9).mono fun n later message sent => by
    rw [oneByteRun_later later, oneByteRun_later (later.trans (Nat.le_succ n)), Appends,
      List.drop_length] at sent
    obtain ⟨_, absurdly, _⟩ := sent
    exact List.not_mem_nil absurdly

theorem fair_run_completes_one : ∃ n, (oneByteRun n).sender.stage = .returned 0 ∧
    (oneByteRun n).receiver.state.written.flatten = [0x61] :=
  fair_run_completes Sys.faultless_recovers Sys.faultless_writesAll oneByteRun_fair

/-! The end of the receiver. -/

theorem JointValid.ends_last {sys : Sys} {input : List Byte} {joint : Joint}
    (valid : JointValid sys input joint) {event : ReceiverEvent}
    (permitted : Permitted sys joint (.receiver event)) (patient : ¬GivesUp (.receiver event))
    (going : joint.receiver.returned = none)
    (ended : (processReceiver sys joint.receiver event).returned ≠ none) :
    joint.sender.stage = .returned 0 := by
  by_contra running
  cases event with
  | selectTimeout => exact patient trivial
  | selectError => exact patient trivial
  | readable arrived stale =>
      cases arrived with
      | none => exact ended (by simp [processReceiver, going, readToListR])
      | some datagram =>
          have goesOn := valid.goes_on running permitted
          exact ended (by simp only [processReceiver, going, if_neg goesOn])

/-- Unless a `select` of the receiver fails or times out, it ends after the sender has returned 0,
and with the whole input written. -/
theorem receiver_ends_last {sys : Sys} (writesAll : sys.WritesAll) {input : List Byte} {joint : Joint}
    (reached : Runs.Reachable (jointStep sys)
      (fun joint event => Permitted sys joint event ∧ ¬GivesUp event) (Joint.init input) joint)
    (ended : joint.receiver.returned ≠ none) :
    joint.sender.stage = .returned 0 ∧ joint.sender.state.reads.flatten = input ∧
      joint.receiver.state.written.flatten = input := by
  obtain ⟨valid, last⟩ := reached.invariant
    (fun joint => JointValid sys input joint ∧
      (joint.receiver.returned ≠ none → joint.sender.stage = .returned 0))
    ⟨init_jointValid sys input, fun ended => absurd rfl ended⟩ fun joint event both allowed => by
      obtain ⟨valid, last⟩ := both
      refine ⟨jointStep_valid joint event valid allowed.1, fun ended => ?_⟩
      cases event with
      | sender event =>
          have finished := last ended
          show (processSender sys joint.sender event).stage = .returned 0
          rw [processSender_finished finished, finished]
      | receiver event =>
          by_cases going : joint.receiver.returned = none
          · exact valid.ends_last allowed.1 allowed.2 going ended
          · exact last going
  have returned := last ended
  exact ⟨returned, (valid.written_all writesAll returned).2⟩

def endCopy : Datagram := packetBytes Sys.faultless.crc32 (dataPkt 1 [] 8)

theorem receiver_ends_last_one :
    let events := firstArrival ++ lastSteps ++ [.receiver (.readable (some endCopy) fun _ => 0)]
    (jointRun events).sender.stage = .returned 0 ∧
      (jointRun events).sender.state.reads.flatten = [0x61] ∧
      (jointRun events).receiver.state.written.flatten = [0x61] := by
  refine receiver_ends_last Sys.faultless_writesAll (Runs.reachable_along ⟨⟨trivial, id⟩, ⟨trivial, id⟩,
    ⟨trivial, id⟩, ⟨Or.inl ⟨(1, firstCopy), ?_, ?_, Or.inl rfl⟩, id⟩,
    ⟨Or.inl ⟨(1, firstAck), ?_, fun _ => ?_, rfl⟩, id⟩, ⟨trivial, id⟩, ⟨trivial, id⟩, ⟨trivial, id⟩,
    ⟨trivial, id⟩, ⟨Or.inl ⟨(1, endCopy), ?_, ?_, Or.inl rfl⟩, id⟩, trivial⟩) ?_
  · decide +kernel
  · unfold ChunkInTime
    decide +kernel
  · decide +kernel
  · decide +kernel
  · decide +kernel
  · unfold ChunkInTime
    decide +kernel
  · decide +kernel

end SelectiveRepeat
