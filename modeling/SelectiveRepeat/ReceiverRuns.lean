import SelectiveRepeat.Delivery
import SelectiveRepeat.ReceiverRefinement

/-! Whole runs of the receiver: whatever arrives, it writes and holds what the ideal
buffer delivers and holds. -/

namespace SelectiveRepeat

open Bytes Circle Reassembly

section

variable {r : Receiver} {out : List Pkt} {entries : List (Nat × Pkt)}

theorem Tracks.nacked (tracks : Tracks r out entries) (sys : Sys) (pkt : Pkt) :
    Tracks (nacked sys r pkt) out entries := by
  obtain ⟨low, high⟩ := windowDivide_valid tracks.window
  exact tracks.of_same rfl rfl rfl ⟨low, high⟩

theorem Tracks.reacknowledged (tracks : Tracks r out entries) (sys : Sys) (pkt : Pkt) :
    Tracks (reacknowledged sys r pkt) out entries :=
  tracks.of_same rfl rfl rfl ⟨tracks.window.low, tracks.window.high⟩

theorem Tracks.closed (tracks : Tracks r out entries) (sys : Sys) (pkt : Pkt) :
    Tracks (closed sys r pkt) out entries :=
  tracks.of_same rfl rfl rfl ⟨tracks.window.low, tracks.window.high⟩

theorem init_tracks : Tracks Receiver.init [] [] where
  written_length := rfl
  list := rfl
  waited := rfl
  window := ⟨by decide, by decide⟩
  sorted := List.Pairwise.nil
  numbered := List.forall_mem_nil _
  valid := List.forall_mem_nil _
  arc := List.forall_mem_nil _

theorem Outcome.tracks {sys : Sys} {pkt : Pkt} {code : Int} {after : Receiver}
    (outcome : Outcome sys r out entries pkt code after) (tracks : Tracks r out entries) :
    ∃ out' rest, Tracks after out' rest := by
  cases outcome with
  | notData _ => exact ⟨out, entries, tracks⟩
  | truncated _ _ => exact ⟨out, entries, tracks.nacked sys pkt⟩
  | accepted _ _ _ accepted => exact ⟨_, _, accepted.tracks⟩
  | closed _ _ _ _ => exact ⟨out, entries, tracks.closed sys pkt⟩
  | outOfWindow _ _ _ _ => exact ⟨out, entries, tracks.reacknowledged sys pkt⟩

end

/-! One datagram. -/

theorem readToListR_decodes {sys : Sys} {datagram : Datagram} {stale : Memory} {pkt : Pkt}
    (decodes : Decodes sys datagram stale pkt) (r : Receiver) :
    readToListR sys r (some datagram) stale = readPacketR sys r pkt := by
  rw [Decodes] at decodes
  simp only [readToListR, decodes]
  rfl

theorem readToListR_rejected {sys : Sys} {datagram : Datagram} {stale : Memory}
    (rejected : ∀ pkt, ¬Decodes sys datagram stale pkt) (r : Receiver) :
    readToListR sys r (some datagram) stale = (-1, r) := by
  simp only [readToListR]
  rw [if_pos (pktDecode_rejected rejected)]

/-! Runs. -/

def receiverRun (sys : Sys) (events : List ReceiverEvent) : ReceiverProcess :=
  events.foldl (processReceiver sys) ReceiverProcess.init

theorem receiverRun_concat (sys : Sys) (events : List ReceiverEvent) (event : ReceiverEvent) :
    receiverRun sys (events ++ [event]) = processReceiver sys (receiverRun sys events) event := by
  simp [receiverRun]

theorem processReceiver_readable (sys : Sys) {process : ReceiverProcess}
    (running : process.returned = none) (datagram : Option Datagram) (stale : Memory) :
    processReceiver sys process (.readable datagram stale) =
      ⟨(readToListR sys process.state datagram stale).2,
        if (readToListR sys process.state datagram stale).1 = -2 then some 0 else none⟩ := by
  simp only [processReceiver, running]

theorem processReceiver_running {sys : Sys} {process : ReceiverProcess} {event : ReceiverEvent}
    (running : (processReceiver sys process event).returned = none) :
    process.returned = none ∧ ∃ datagram stale, event = .readable datagram stale ∧
      (processReceiver sys process event).state =
        (readToListR sys process.state datagram stale).2 := by
  obtain ⟨state, returned⟩ := process
  cases returned with
  | some code => exact absurd running (by simp [processReceiver])
  | none =>
      refine ⟨rfl, ?_⟩
      cases event with
      | selectTimeout => exact absurd running (by simp [processReceiver])
      | selectError => exact absurd running (by simp [processReceiver])
      | readable datagram stale => exact ⟨datagram, stale, rfl, rfl⟩

theorem Tracks.freed {r : Receiver} {out : List Pkt} {entries : List (Nat × Pkt)}
    (tracks : Tracks r out entries) : Tracks (freeTimeout r) out [] where
  written_length := tracks.written_length
  list := rfl
  waited := tracks.waited
  window := ⟨tracks.window.low, tracks.window.high⟩
  sorted := List.Pairwise.nil
  numbered := List.forall_mem_nil _
  valid := List.forall_mem_nil _
  arc := List.forall_mem_nil _

/-- What a turn of the loop can do: leave the state, forget the list, or take a packet. -/
theorem processReceiver_cases (sys : Sys) (process : ReceiverProcess) (event : ReceiverEvent) :
    (processReceiver sys process event).state = process.state ∨
      (processReceiver sys process event).state = freeTimeout process.state ∨
      process.returned = none ∧ ∃ datagram stale pkt, event = .readable (some datagram) stale ∧
        Decodes sys datagram stale pkt ∧
        (processReceiver sys process event).state = (readPacketR sys process.state pkt).2 := by
  cases running : process.returned with
  | some code =>
      left
      simp only [processReceiver, running]
  | none =>
      cases event with
      | selectTimeout =>
          right; left
          simp only [processReceiver, running]
      | selectError =>
          left
          simp only [processReceiver, running]
      | readable arrived stale =>
          rw [processReceiver_readable sys running]
          cases arrived with
          | none => exact Or.inl rfl
          | some datagram =>
              by_cases decoded : ∃ pkt, Decodes sys datagram stale pkt
              · obtain ⟨pkt, decodes⟩ := decoded
                rw [readToListR_decodes decodes]
                exact Or.inr (Or.inr ⟨rfl, datagram, stale, pkt, rfl, decodes, rfl⟩)
              · rw [readToListR_rejected (not_exists.mp decoded)]
                exact Or.inl rfl

theorem processReceiver_tracks (sys : Sys) {process : ReceiverProcess} {out : List Pkt}
    {entries : List (Nat × Pkt)} (tracks : Tracks process.state out entries) (event : ReceiverEvent) :
    ∃ out' rest, Tracks (processReceiver sys process event).state out' rest := by
  rcases processReceiver_cases sys process event with
    same | freed | ⟨_, datagram, stale, pkt, _, decodes, state⟩
  · rw [same]
    exact ⟨out, entries, tracks⟩
  · rw [freed]
    exact ⟨out, [], tracks.freed⟩
  · rw [state]
    exact (readPacketR_outcome sys tracks decodes.valid).tracks tracks

theorem receiverRun_tracks (sys : Sys) (events : List ReceiverEvent) :
    ∃ out entries, Tracks (receiverRun sys events).state out entries := by
  induction events using List.reverseRecOn with
  | nil => exact ⟨[], [], init_tracks⟩
  | append_singleton events event ih =>
      obtain ⟨out, entries, tracks⟩ := ih
      rw [receiverRun_concat]
      exact processReceiver_tracks sys tracks event

/-! When every `write` is complete, the receiver is the ideal reassembly buffer. -/

/-- The list is what the buffer holds and the output is what it has delivered. -/
structure Refines (r : Receiver) (buffer : Buffer Pkt) : Prop where
  tracks : Tracks r buffer.out buffer.held
  written : r.written = buffer.out.map pktGetPayload

theorem init_refines : Refines Receiver.init Buffer.empty := ⟨init_tracks, rfl⟩

theorem Accepted.refines {sys : Sys} (writesAll : sys.WritesAll) {r : Receiver} {buffer : Buffer Pkt}
    (refines : Refines r buffer) {pkt : Pkt} {code : Int} {after : Receiver} {out' : List Pkt}
    {rest : List (Nat × Pkt)}
    (accepted : Accepted sys r buffer.out buffer.held pkt code after out' rest) :
    Refines after (buffer.accept (absoluteNumber buffer.next pkt) pkt) := by
  obtain ⟨out, held⟩ := buffer.accept_of_due pkt (absoluteNumber_bounds buffer.next pkt).1
  have whole := accepted.whole (accepted.succeeds writesAll)
  obtain ⟨rfl, rfl⟩ := Prod.mk.inj whole
  constructor
  · rw [out, held]
    exact accepted.tracks
  · rw [out]
    exact accepted.payloads writesAll refines.written

def acceptedPacket (sys : Sys) (r : Receiver) : ReceiverEvent → Option Pkt
  | .readable (some datagram) stale =>
    match pktDecode sys.crc32 (some (recvBuffer datagram stale)) (received datagram).length pktNew with
    | (err, pkt) =>
      if err = .pktOk ∧ pktGetType pkt = ptypeData ∧ pktGetTr pkt ≠ 1 ∧
          r.checkInWindow (pktGetSeqnum pkt) then some pkt
      else none
  | _ => none

theorem acceptedPacket_decodes {sys : Sys} {datagram : Datagram} {stale : Memory} {pkt : Pkt}
    (decodes : Decodes sys datagram stale pkt) (r : Receiver) :
    acceptedPacket sys r (.readable (some datagram) stale) =
      if pktGetType pkt = ptypeData ∧ pktGetTr pkt ≠ 1 ∧ r.checkInWindow (pktGetSeqnum pkt) then
        some pkt
      else none := by
  rw [Decodes] at decodes
  simp only [acceptedPacket, decodes, true_and]

theorem acceptedPacket_rejected {sys : Sys} {datagram : Datagram} {stale : Memory}
    (rejected : ∀ pkt, ¬Decodes sys datagram stale pkt) (r : Receiver) :
    acceptedPacket sys r (.readable (some datagram) stale) = none := by
  simp only [acceptedPacket]
  rw [if_neg fun accepted => pktDecode_rejected rejected accepted.1]

def bufferAfter (sys : Sys) (r : Receiver) (buffer : Buffer Pkt) (event : ReceiverEvent) :
    Buffer Pkt :=
  match acceptedPacket sys r event with
  | some pkt => buffer.accept (absoluteNumber r.written.length pkt) pkt
  | none => buffer

theorem readToListR_refines {sys : Sys} (writesAll : sys.WritesAll) {r : Receiver}
    {buffer : Buffer Pkt} (refines : Refines r buffer) (datagram : Option Datagram) (stale : Memory) :
    Refines (readToListR sys r datagram stale).2
      (bufferAfter sys r buffer (.readable datagram stale)) := by
  obtain ⟨tracks, written⟩ := refines
  cases datagram with
  | none => exact ⟨tracks, written⟩
  | some datagram =>
      by_cases decoded : ∃ pkt, Decodes sys datagram stale pkt
      · obtain ⟨pkt, decodes⟩ := decoded
        have outcome := readPacketR_outcome sys tracks decodes.valid
        rw [readToListR_decodes decodes, bufferAfter, acceptedPacket_decodes decodes]
        generalize readPacketR sys r pkt = result at outcome
        obtain ⟨code, after⟩ := result
        cases outcome with
        | notData other =>
            rw [if_neg fun taken => other taken.1]
            exact ⟨tracks, written⟩
        | truncated _ cut =>
            rw [if_neg fun taken => taken.2.1 cut]
            exact ⟨tracks.nacked sys pkt, written⟩
        | accepted data whole inWindow accepted =>
            rw [if_pos ⟨data, whole, inWindow⟩, tracks.written_length]
            exact accepted.refines writesAll ⟨tracks, written⟩
        | closed _ _ outside _ =>
            rw [if_neg fun taken => by simp [outside] at taken]
            exact ⟨tracks.closed sys pkt, written⟩
        | outOfWindow _ _ outside _ =>
            rw [if_neg fun taken => by simp [outside] at taken]
            exact ⟨tracks.reacknowledged sys pkt, written⟩
      · have rejected := not_exists.mp decoded
        rw [readToListR_rejected rejected, bufferAfter, acceptedPacket_rejected rejected]
        exact ⟨tracks, written⟩

/-- The packets that a run takes into the list, in order of arrival, each with its absolute
number. -/
def acceptedLog (sys : Sys) (process : ReceiverProcess) : List ReceiverEvent → List (Nat × Pkt)
  | [] => []
  | event :: events =>
      let taken := (acceptedPacket sys process.state event).map fun pkt =>
        (absoluteNumber process.state.written.length pkt, pkt)
      taken.toList ++ acceptedLog sys (processReceiver sys process event) events

theorem acceptedLog_append (sys : Sys) (process : ReceiverProcess) (first second : List ReceiverEvent) :
    acceptedLog sys process (first ++ second) =
      acceptedLog sys process first ++
        acceptedLog sys (first.foldl (processReceiver sys) process) second := by
  induction first generalizing process with
  | nil => rfl
  | cons event rest ih =>
      rw [List.cons_append, acceptedLog, acceptedLog, ih, List.foldl_cons, List.append_assoc]

theorem ofLog_acceptedLog_concat (sys : Sys) (events : List ReceiverEvent) (event : ReceiverEvent) :
    Buffer.ofLog (acceptedLog sys ReceiverProcess.init (events ++ [event])) =
      bufferAfter sys (receiverRun sys events).state
        (Buffer.ofLog (acceptedLog sys ReceiverProcess.init events)) event := by
  rw [acceptedLog_append, ← receiverRun, bufferAfter]
  cases taken : acceptedPacket sys (receiverRun sys events).state event with
  | none => simp [acceptedLog, taken]
  | some pkt => simp [acceptedLog, taken, Buffer.ofLog_concat]

theorem receiverRun_refines {sys : Sys} (writesAll : sys.WritesAll) (events : List ReceiverEvent)
    (running : (receiverRun sys events).returned = none) :
    Refines (receiverRun sys events).state
      (Buffer.ofLog (acceptedLog sys ReceiverProcess.init events)) := by
  induction events using List.reverseRecOn with
  | nil => exact init_refines
  | append_singleton events event ih =>
      rw [receiverRun_concat] at running ⊢
      obtain ⟨before, datagram, stale, rfl, state⟩ := processReceiver_running running
      rw [state, ofLog_acceptedLog_concat]
      exact readToListR_refines writesAll (ih before) datagram stale

/-- At every moment of every run, the list holds the first accepted packet of each later number
and the output is the payloads of the first accepted packets of the earlier ones. -/
theorem receiver_refines_buffer {sys : Sys} (writesAll : sys.WritesAll) (events : List ReceiverEvent)
    (running : (receiverRun sys events).returned = none) :
    let r := (receiverRun sys events).state
    let log := acceptedLog sys ReceiverProcess.init events
    r.waitedSeqnum = (r.written.length % 256 : Nat) ∧
      (∃ numbers : List Nat, numbers.Pairwise (· < ·) ∧
        (∀ number, number ∈ numbers ↔ r.written.length < number ∧ ∃ pkt, (number, pkt) ∈ log) ∧
        r.list.map some = numbers.map (Buffer.firstOf log)) ∧
      ∀ number < r.written.length, ∃ pkt, Buffer.firstOf log number = some pkt ∧
        r.written[number]? = some (pktGetPayload pkt) := by
  have refines := receiverRun_refines writesAll events running
  intro r log
  have next : (Buffer.ofLog log).next = r.written.length := refines.tracks.written_length.symm
  have held : ∀ number pkt, (number, pkt) ∈ (Buffer.ofLog log).held ↔
      r.written.length < number ∧ Buffer.firstOf log number = some pkt := by
    intro number pkt
    rw [Buffer.mem_held_iff, Buffer.ofLog_has_iff, next]
  refine ⟨refines.tracks.waited_written, ⟨(Buffer.ofLog log).held.map Prod.fst, ?_, ?_, ?_⟩, ?_⟩
  · exact List.pairwise_map.mpr (Buffer.ofLog log).sorted
  · intro number
    rw [← Buffer.exists_firstOf_iff, ← exists_and_left]
    simp only [List.mem_map, Prod.exists, exists_and_right, exists_eq_right, held]
  · rw [show r.list = _ from refines.tracks.list, List.map_map, List.map_map]
    apply List.map_congr_left
    rintro ⟨number, pkt⟩ member
    exact ((held number pkt).mp member).2.symm
  · intro number earlier
    rw [← next] at earlier
    obtain ⟨pkt, has⟩ := (Buffer.ofLog log).has_of_lt earlier
    refine ⟨pkt, (Buffer.ofLog_has_iff ..).mp has, ?_⟩
    rw [show r.written = _ from refines.written, List.getElem?_map,
      ((Buffer.ofLog log).out_iff number pkt).mpr ⟨earlier, has⟩]
    rfl

/-! Packet 1 arrives before packet 0, twice, and packet 3 without packet 2. -/

def swappedArrivals : List ReceiverEvent :=
  [dataPkt 1 [0x62] 7, dataPkt 1 [0x62] 8, dataPkt 0 [0x61] 6, dataPkt 3 [0x64] 9].map fun pkt =>
    .readable (some (packetBytes Sys.faultless.crc32 pkt)) fun _ => 0

theorem receiver_refines_buffer_swapped :
    let r := (receiverRun Sys.faultless swappedArrivals).state
    let log := acceptedLog Sys.faultless ReceiverProcess.init swappedArrivals
    r.written = [[0x61], [0x62]] ∧ r.waitedSeqnum = 2 ∧
      r.list = [decodedPkt Sys.faultless.crc32 (dataPkt 3 [0x64] 9)] ∧
      (∃ pkt, Buffer.firstOf log 1 = some pkt ∧ pktGetPayload pkt = [0x62]) ∧
      ∃ numbers : List Nat, (∀ number ∈ numbers, 2 < number) ∧
        r.list.map some = numbers.map (Buffer.firstOf log) := by
  intro r log
  obtain ⟨waited, ⟨numbers, _, ahead, held⟩, output⟩ :=
    receiver_refines_buffer Sys.faultless_writesAll swappedArrivals (by decide +kernel)
  have written : r.written = [[0x61], [0x62]] := by decide +kernel
  have list : r.list = [decodedPkt Sys.faultless.crc32 (dataPkt 3 [0x64] 9)] := by decide +kernel
  have size : r.written.length = 2 := congrArg List.length written
  obtain ⟨pkt, first, payload⟩ := output 1 (by rw [size]; decide)
  have second : r.written[1]? = some [0x62] := by rw [written]; rfl
  refine ⟨written, waited.trans (by rw [size]; rfl), list, ⟨pkt, first, ?_⟩, numbers, ?_, held⟩
  · exact Option.some.inj (payload.symm.trans second)
  · intro number member
    exact size ▸ ((ahead number).mp member).1

end SelectiveRepeat
