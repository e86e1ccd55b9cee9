import SelectiveRepeat.ReceiverRuns

/-! A DATA packet that the network cuts to its header: when the receiver answers it
with a NACK. -/

namespace SelectiveRepeat

open Bytes Reassembly

structure AnsweredByNack (sys : Sys) (r after : Receiver) (pkt : Pkt) : Prop where
  sent : ∃ nack : Pkt, nack.Valid ∧ pktGetType nack = ptypeNack ∧
    pktGetSeqnum nack = pktGetSeqnum pkt ∧ pktGetTimestamp nack = pktGetTimestamp pkt ∧
      after.sent = r.sent ++ [(r.written.length, packetBytes sys.crc32 nack)]
  windowSize : after.windowSize = if r.windowSize > 1 then r.windowSize / 2 else r.windowSize
  lastTimestamp : after.lastTimestamp = pktGetTimestamp pkt
  waitedSeqnum : after.waitedSeqnum = r.waitedSeqnum
  list : after.list = r.list
  written : after.written = r.written

theorem nacked_answered (sys : Sys) (r : Receiver) (pkt : Pkt) :
    AnsweredByNack sys r (nacked sys r pkt) pkt := by
  have inRange : pktGetSeqnum pkt % 256 = pktGetSeqnum pkt := Nat.mod_eq_of_lt (pktGetSeqnum_lt pkt)
  refine ⟨⟨_, controlPkt_valid (by decide) (by decide) _ _ _, controlPkt_getType (by decide) _ _ _,
    (controlPkt_getSeqnum _ _ _ _).trans inRange, rfl, rfl⟩, ?_, rfl, rfl, rfl, rfl⟩
  show (windowDivide r).windowSize = _
  rw [windowDivide]
  split <;> rfl

theorem not_answered_unchanged (sys : Sys) (r : Receiver) (pkt : Pkt) :
    ¬AnsweredByNack sys r r pkt := by
  rintro ⟨⟨nack, _, _, _, _, sent⟩, _⟩
  have size := congrArg List.length sent
  simp at size

theorem readToListR_cut (sys : Sys) {r : Receiver} (window : r.WindowValid) {pkt : Pkt}
    (valid : pkt.Valid) (isData : pktGetType pkt = ptypeData) {stale : Memory}
    (fits : pkt.length = 0 ∨ LeftoverMatches sys.crc32 (pktGetLength pkt) stale) :
    readToListR sys r (some (cutToHeader (packetBytes sys.crc32 pkt))) stale =
      (0, nacked sys r pkt) := by
  obtain ⟨cut, decodes⟩ := (decodes_cut_iff sys stale valid isData).mpr fits
  obtain ⟨type, truncated, seqnum, timestamp⟩ := decodes.cutFrom sys stale valid isData
  have cutData : pktGetType cut = ptypeData := by
    rw [pktGetType, type]
    exact isData
  have cutTr : pktGetTr cut = 1 := by
    rw [pktGetTr, truncated]
    rfl
  have sameNack : nacked sys r cut = nacked sys r pkt := by
    simp only [nacked, pktGetSeqnum, pktGetTimestamp, seqnum, timestamp]
  rw [readToListR_decodes decodes, readPacketR_truncated sys decodes.valid cutData cutTr window,
    sameNack]

theorem readToListR_cut_iff (sys : Sys) {r : Receiver} {out : List Pkt} {entries : List (Nat × Pkt)}
    (tracks : Tracks r out entries) {pkt : Pkt} (valid : pkt.Valid)
    (isData : pktGetType pkt = ptypeData) (nonempty : pktGetLength pkt ≠ 0) (stale : Memory) :
    AnsweredByNack sys r
        (readToListR sys r (some (cutToHeader (packetBytes sys.crc32 pkt))) stale).2 pkt ↔
      LeftoverMatches sys.crc32 (pktGetLength pkt) stale := by
  have notEmpty : pkt.length ≠ 0 := mt (pktGetLength_eq_zero_iff pkt).mpr nonempty
  have decoded := decodes_cut_iff sys stale valid isData
  rw [or_iff_right notEmpty] at decoded
  by_cases fits : LeftoverMatches sys.crc32 (pktGetLength pkt) stale
  · refine iff_of_true ?_ fits
    rw [readToListR_cut sys tracks.window valid isData (Or.inr fits)]
    exact nacked_answered sys r pkt
  · refine iff_of_false ?_ fits
    rw [readToListR_rejected (not_exists.mp fun some => fits (decoded.mp some))]
    exact not_answered_unchanged sys r pkt

/-- A cut DATA packet is answered by a NACK only if the bytes that an earlier datagram left behind
the header happen to be a payload of the announced length with its checksum. -/
theorem answeredByNack_iff (sys : Sys) (events : List ReceiverEvent) {pkt : Pkt} (valid : pkt.Valid)
    (isData : pktGetType pkt = ptypeData) (nonempty : pktGetLength pkt ≠ 0) (stale : Memory) :
    AnsweredByNack sys (receiverRun sys events).state
        (readToListR sys (receiverRun sys events).state
          (some (cutToHeader (packetBytes sys.crc32 pkt))) stale).2 pkt ↔
      LeftoverMatches sys.crc32 (pktGetLength pkt) stale := by
  obtain ⟨out, entries, tracks⟩ := receiverRun_tracks sys events
  exact readToListR_cut_iff sys tracks valid isData nonempty stale

def onePkt : Pkt := dataPkt 0 [0x61] 7

theorem onePkt_valid : onePkt.Valid := dataPkt_valid (by decide) 0 7

theorem answeredByNack_iff_one :
    AnsweredByNack Sys.faultless (receiverRun Sys.faultless []).state
        (readToListR Sys.faultless (receiverRun Sys.faultless []).state
          (some (cutToHeader (packetBytes Sys.faultless.crc32 onePkt))) fun _ => 0).2 onePkt ↔
      LeftoverMatches Sys.faultless.crc32 (pktGetLength onePkt) fun _ => 0 :=
  answeredByNack_iff Sys.faultless [] onePkt_valid rfl (by decide) fun _ => 0

theorem cut_unanswered :
    ¬AnsweredByNack Sys.faultless (receiverRun Sys.faultless []).state
      (readToListR Sys.faultless (receiverRun Sys.faultless []).state
        (some (cutToHeader (packetBytes Sys.faultless.crc32 onePkt))) fun _ => 0).2 onePkt := by
  have notFits : ¬LeftoverMatches Sys.faultless.crc32 (pktGetLength onePkt) fun _ => 0 := by
    decide +kernel
  have answered := readToListR_cut_iff Sys.faultless init_tracks onePkt_valid rfl (by decide) fun _ => 0
  exact fun nack => notFits (answered.mp nack)

end SelectiveRepeat
