import SelectiveRepeat.LinkSimRuns

/-! The link simulator without a delay: its queue stays empty, and each datagram that it takes is
sent at once or never. -/

namespace SelectiveRepeat

open Bytes

section

variable {Addr : Type} {sys : LinkSys} {options : LinkOptions} {s : LinkSim Addr}

/-- Nothing but the counters changed, and at most this datagram was sent. -/
structure SendsAtMost (options : LinkOptions) (s s' : LinkSim Addr) (direction : Nat)
    (buf : List Byte) : Prop where
  pktQueue : s'.pktQueue = s.pktQueue
  srcAddr : s'.srcAddr = s.srcAddr
  sent : s'.sent = s.sent ∨ ∃ altered, Altered options buf altered ∧
    s'.sent = s.sent ++ [⟨s.lastClock, direction, altered⟩]

theorem writeOut_sendsAtMost (sys : LinkSys) (s : LinkSim Addr) {buf altered : List Byte}
    (image : Altered options buf altered) (direction : Nat) :
    SendsAtMost options s (writeOut sys s altered direction).2 direction buf := by
  rw [writeOut]
  cases sys.sendto s.sendCalls with
  | sent => exact ⟨rfl, rfl, Or.inr ⟨altered, image, rfl⟩⟩
  | again => exact ⟨rfl, rfl, Or.inl rfl⟩
  | failed => exact ⟨rfl, rfl, Or.inl rfl⟩

theorem simulateLink_instant (sys : LinkSys) (instant : options.delay = 0) (s : LinkSim Addr)
    {buf : List Byte} (nonempty : 0 < buf.length) (direction : Nat) :
    ∃ processed s', simulateLink sys options s buf direction = some (processed, s') ∧
      SendsAtMost options s s' direction buf := by
  obtain ⟨lossCalls, lossState, _⟩ := happens_spec sys s options.lossRate
  obtain ⟨alterCalls, alterState, altered⟩ :=
    alterPacket_spec sys options (withDraws s lossCalls) nonempty
  have delayed : ¬options.delay ≠ 0 := not_not_intro instant
  simp only [simulateLink, lossState, alterState, if_neg delayed]
  split
  · exact ⟨true, withDraws s lossCalls, rfl, rfl, rfl, Or.inl rfl⟩
  · obtain ⟨sameQueue, sameSrc, sent⟩ := writeOut_sendsAtMost sys
      (withDraws (withDraws s lossCalls) alterCalls) altered direction
    exact ⟨_, _, rfl, sameQueue, sameSrc, sent⟩

/-- The datagram that came in was sent on to the other side at once, or not at all. -/
structure SentOn (options : LinkOptions) (destAddr source : Addr) (bytes : List Byte)
    (s s' : LinkSim Addr) : Prop where
  pktQueue : s'.pktQueue = s.pktQueue
  srcAddr : s'.srcAddr = some (s.srcAddr.getD source)
  sent : s'.sent = s.sent ∨ ∃ altered clock direction,
    Altered options (bytes.take maxPktLen) altered ∧ s'.sent = s.sent ++ [⟨clock, direction, altered⟩] ∧
    (direction = linkForward ∧ source = s.srcAddr.getD source ∨
      direction = linkReverse ∧ source ≠ s.srcAddr.getD source ∧ source = destAddr)

theorem deliverDelayedPkt_idle (sys : LinkSys) {s : LinkSim Addr}
    (idle : s.pktQueue.HoldsHeap pktSlotCmp []) : deliverDelayedPkt sys s = some (true, s) := by
  have peeked := peek_holdsHeap idle
  simp only [deliverDelayedPkt, deliverLoop, peeked, List.head?_nil, Option.bind_eq_bind,
    Option.bind_some]

variable [DecidableEq Addr]

theorem direction_cases {destAddr source src : Addr} {direction : Nat}
    (direction_eq : (if source = src then linkForward
      else if source = destAddr then linkReverse else 0) = direction) :
    direction = 0 ∧ source ≠ src ∨ direction = linkForward ∧ source = src ∨
      direction = linkReverse ∧ source ≠ src ∧ source = destAddr := by
  subst direction_eq
  by_cases same : source = src
  · rw [if_pos same]
    exact Or.inr (Or.inl ⟨rfl, same⟩)
  · rw [if_neg same]
    by_cases dest : source = destAddr
    · rw [if_pos dest]
      exact Or.inr (Or.inr ⟨rfl, same, dest⟩)
    · rw [if_neg dest]
      exact Or.inl ⟨rfl, same⟩

theorem processIncomingPkt_instant (sys : LinkSys) (instant : options.delay = 0) (destAddr : Addr)
    (s : LinkSim Addr) (source : Addr) (bytes : List Byte) :
    ∃ processed s', processIncomingPkt sys options destAddr s (.datagram source bytes) =
        some (processed, s') ∧
      (s' = s ∨ SentOn options destAddr source bytes s s') := by
  simp only [processIncomingPkt]
  by_cases short : (bytes.take maxPktLen).length < minPktLen
  · rw [if_pos short]
    exact ⟨true, s, rfl, Or.inl rfl⟩
  · have nonempty : 0 < (bytes.take maxPktLen).length :=
      Nat.lt_of_lt_of_le (by decide) (Nat.le_of_not_lt short)
    rw [if_neg short]
    generalize direction_eq : (if source = s.srcAddr.getD source then linkForward
      else if source = destAddr then linkReverse else 0) = direction
    rcases direction_cases direction_eq with ⟨alien, _⟩ | party
    · exact ⟨true, _, if_pos alien, Or.inr ⟨rfl, rfl, Or.inl rfl⟩⟩
    · have known : direction ≠ 0 := by
        rcases party with ⟨rfl, _⟩ | ⟨rfl, _⟩ <;> decide
      rw [if_neg known]
      have sentOn : ∀ s' : LinkSim Addr,
          SendsAtMost options { s with srcAddr := some (s.srcAddr.getD source) } s' direction
            (bytes.take maxPktLen) →
          SentOn options destAddr source bytes s s' := by
        rintro s' ⟨sameQueue, sameSrc, sent⟩
        refine ⟨sameQueue, sameSrc, ?_⟩
        rcases sent with same | ⟨altered, image, added⟩
        · exact Or.inl same
        · exact Or.inr ⟨altered, _, direction, image, added, party⟩
      split
      · obtain ⟨processed, s', result, sends⟩ := simulateLink_instant sys instant
          { s with srcAddr := some (s.srcAddr.getD source) } nonempty direction
        exact ⟨processed, s', result, Or.inr (sentOn s' sends)⟩
      · exact ⟨_, _, rfl, Or.inr (sentOn _ (writeOut_sendsAtMost sys _ .same direction))⟩

theorem proxyTurn_instant (sys : LinkSys) (instant : options.delay = 0) (destAddr : Addr)
    {s : LinkSim Addr} (idle : s.pktQueue.HoldsHeap pktSlotCmp []) (event : LinkEvent Addr) :
    ∃ process, proxyTurn sys options destAddr s event = some process ∧
      process.state.pktQueue.HoldsHeap pktSlotCmp [] ∧
      (process.state.srcAddr = s.srcAddr ∧ process.state.sent = s.sent ∨
        ∃ clock source bytes, event = .woken (some clock) (some (.datagram source bytes)) ∧
          SentOn options destAddr source bytes { s with lastClock := lastClockOf clock }
            process.state) := by
  cases event with
  | interrupted => exact ⟨_, rfl, idle, Or.inl ⟨rfl, rfl⟩⟩
  | selectFailed => exact ⟨_, rfl, idle, Or.inl ⟨rfl, rfl⟩⟩
  | woken clock readable =>
      cases clock with
      | none => exact ⟨_, rfl, idle, Or.inl ⟨rfl, rfl⟩⟩
      | some clock =>
          have nothing := deliverDelayedPkt_idle sys (s := { s with lastClock := lastClockOf clock })
            idle
          simp only [proxyTurn, nothing, Option.bind_eq_bind, Option.bind_some, Bool.true_eq_false,
            if_false]
          cases readable with
          | none => exact ⟨_, rfl, idle, Or.inl ⟨rfl, rfl⟩⟩
          | some answer =>
              cases answer with
              | again => exact ⟨_, rfl, idle, Or.inl ⟨rfl, rfl⟩⟩
              | failed => exact ⟨_, rfl, idle, Or.inl ⟨rfl, rfl⟩⟩
              | datagram source bytes =>
                  obtain ⟨processed, s', result, outcome⟩ := processIncomingPkt_instant sys instant
                    destAddr { s with lastClock := lastClockOf clock } source bytes
                  simp only [result, Option.bind_some]
                  rcases outcome with rfl | sentOn
                  · exact ⟨_, rfl, idle, Or.inl ⟨rfl, rfl⟩⟩
                  · have idle' : s'.pktQueue.HoldsHeap pktSlotCmp [] := by
                      rw [sentOn.pktQueue]
                      exact idle
                    exact ⟨_, rfl, idle', Or.inr ⟨clock, source, bytes, rfl, sentOn⟩⟩

end

end SelectiveRepeat
