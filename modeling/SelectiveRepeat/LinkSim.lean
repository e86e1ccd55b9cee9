import SelectiveRepeat.Library.Bytes
import SelectiveRepeat.MinQueue

/-! The link simulator, `link_sim.c`: a proxy that loses, cuts, corrupts and delays the datagrams
of one or both directions. A bad access to the queue of delayed packets gives `none`. `EXIT_SUCCESS`
is `true`; messages on `stderr` are left out. -/

namespace SelectiveRepeat

open Bytes

abbrev minPktLen : Nat := 12

abbrev maxPktLen : Nat := 528

abbrev linkForward : Nat := 1

abbrev linkReverse : Nat := 2

abbrev linkBothWays : Nat := linkForward ||| linkReverse

def sameDirection (x y : Nat) : Bool := x &&& y ≠ 0

structure Timeval where
  tvSec : Int
  tvUsec : Int
deriving DecidableEq, Repr

structure Timespec where
  tvSec : Int
  tvNsec : Nat
  bound : tvNsec < 1000000000

/-- `pkt_slot`; `size` is the length of `buf`. -/
structure PktSlot where
  ts : Timeval
  direction : Nat
  buf : List Byte
deriving DecidableEq, Repr

/-- `left > right` -/
def timevalCmp (left right : Timeval) : Bool :=
  if left.tvSec = right.tvSec then left.tvUsec > right.tvUsec else left.tvSec > right.tvSec

def timevalDiff (a b : Timeval) : Timeval :=
  let c : Timeval := ⟨a.tvSec - b.tvSec, a.tvUsec - b.tvUsec⟩
  if c.tvUsec < 0 then
    let c := { c with tvSec := c.tvSec - 1 }
    if c.tvSec ≠ 0 then { c with tvUsec := c.tvUsec + 1000000 } else c
  else c

def pktSlotCmp (a b : PktSlot) : Bool := timevalCmp a.ts b.ts

/-- `update_time`: what it makes of the time of `clock_gettime`. -/
def lastClockOf (ts : Timespec) : Timeval := ⟨ts.tvSec, (ts.tvNsec / 1000 : Nat)⟩

/-- The options of the command line. -/
structure LinkOptions where
  delay : BitVec 32
  jitter : BitVec 32
  errRate : BitVec 32
  cutRate : BitVec 32
  lossRate : BitVec 32
  linkDirection : Nat

/-- What a call of `sendto` does: it sends all bytes, or it fails with an error after which the
simulator can try again, or with another one. -/
inductive SendtoResult
  | sent | again | failed
deriving DecidableEq

/-- The answers of the system, each to the n-th call of its kind. -/
structure LinkSys where
  /-- `RAND_MAX` is 2³¹ - 1. -/
  rand : Nat → BitVec 31
  sendto : Nat → SendtoResult
  malloc : Nat → Bool
  /-- Whether the n-th `minq_push` gets its room. -/
  realloc : Nat → Bool

/-- The globals of `link_sim.c`, how often it called the system, and a log of what it sent. -/
structure LinkSim (Addr : Type) where
  lastClock : Timeval
  pktQueue : Minqueue PktSlot
  /-- `none` while `has_source_addr` is 0. -/
  srcAddr : Option Addr
  randCalls : Nat
  sendCalls : Nat
  mallocCalls : Nat
  pushCalls : Nat
  /-- Direction, bytes and the clock when it went out. -/
  sent : List PktSlot

section

variable {Addr : Type}

def LinkSim.init (clock : Timespec) : LinkSim Addr :=
  ⟨lastClockOf clock, minqNew pktSlotCmp, none, 0, 0, 0, 0, []⟩

def writeOut (sys : LinkSys) (s : LinkSim Addr) (buf : List Byte) (direction : Nat) :
    SendtoResult × LinkSim Addr :=
  let call := s.sendCalls
  let s := { s with sendCalls := call + 1 }
  match sys.sendto call with
  | .sent => (.sent, { s with sent := s.sent ++ [⟨s.lastClock, direction, buf⟩] })
  | result => (result, s)

/-- The loop of `deliver_delayed_pkt`, for at most `fuel` packets. -/
def deliverLoop (sys : LinkSys) : Nat → LinkSim Addr → Option (Bool × LinkSim Addr)
  | 0, _ => none
  | fuel + 1, s => do
      match ← s.pktQueue.peek with
      | none => some (true, s)
      | some p =>
          if timevalCmp s.lastClock p.ts then
            match writeOut sys s p.buf p.direction with
            | (.sent, s) =>
                let pktQueue ← s.pktQueue.pop
                deliverLoop sys fuel { s with pktQueue }
            | (.again, s) => some (true, s)
            | (.failed, s) => some (false, s)
          else some (true, s)

def deliverDelayedPkt (sys : LinkSys) (s : LinkSim Addr) : Option (Bool × LinkSim Addr) :=
  deliverLoop sys (s.pktQueue.size + 1) s

def nextRand (sys : LinkSys) (s : LinkSim Addr) : Nat × LinkSim Addr :=
  ((sys.rand s.randCalls).toNat, { s with randCalls := s.randCalls + 1 })

/-- `rate && RAND_PERCENT < rate` -/
def happens (sys : LinkSys) (s : LinkSim Addr) (rate : BitVec 32) : Bool × LinkSim Addr :=
  if rate = 0 then (false, s)
  else
    match nextRand sys s with
    | (drawn, s) => (drawn % 101 < rate.toNat, s)

/-- The delay of a packet in ms. Where the drawn part of the jitter is larger than `delay`, the
difference wraps around. -/
def appliedDelay (sys : LinkSys) (options : LinkOptions) (s : LinkSim Addr) :
    Nat × LinkSim Addr :=
  if options.jitter ≠ 0 then
    match nextRand sys s with
    | (percent, s) =>
    match nextRand sys s with
    | (drawn, s) =>
      let part := BitVec.ofNat 32 drawn % options.jitter
      let applied := if percent % 101 > 49 then options.delay + part else options.delay - part
      (applied.toNat % 10000, s)
  else (options.delay.toNat % 10000, s)

/-- What `simulate_link` does to the bytes of a packet that it does not drop. -/
def alterPacket (sys : LinkSys) (options : LinkOptions) (s : LinkSim Addr) (buf : List Byte) :
    List Byte × LinkSim Addr :=
  match happens sys s options.cutRate with
  | (cut, s) =>
    if cut ∧ buf.length > minPktLen then
      ((buf.set 0 (buf.getD 0 0 ||| 0x20)).take minPktLen, s)
    else
      match happens sys s options.errRate with
      | (corrupt, s) =>
        if corrupt then
          match nextRand sys s with
          | (drawn, s) =>
            let idx := drawn % buf.length
            (buf.set idx (~~~(buf.getD idx 0)), s)
        else (buf, s)

/-- The part of `simulate_link` that puts a packet in the queue. -/
def delayPacket (sys : LinkSys) (s : LinkSim Addr) (buf : List Byte) (direction : Nat)
    (applied : Nat) : Option (Bool × LinkSim Addr) :=
  let malloc := sys.malloc s.mallocCalls
  let s := { s with mallocCalls := s.mallocCalls + 1 }
  if malloc = false then some (false, s)
  else
    let ts : Timeval := ⟨s.lastClock.tvSec + (applied / 1000 : Nat),
      s.lastClock.tvUsec + (applied % 1000 : Nat) * 1000⟩
    let slot : PktSlot := ⟨ts, direction, buf⟩
    let room := sys.realloc s.pushCalls
    let s := { s with pushCalls := s.pushCalls + 1 }
    match s.pktQueue.push slot room with
    | none => none
    | some (code, pktQueue) => some (code = 0, { s with pktQueue })

def simulateLink (sys : LinkSys) (options : LinkOptions) (s : LinkSim Addr) (buf : List Byte)
    (direction : Nat) : Option (Bool × LinkSim Addr) :=
  match happens sys s options.lossRate with
  | (lost, s) =>
    if lost then some (true, s)
    else
      match alterPacket sys options s buf with
      | (buf, s) =>
        if options.delay ≠ 0 then
          match appliedDelay sys options s with
          | (applied, s) => delayPacket sys s buf direction applied
        else
          match writeOut sys s buf direction with
          | (result, s) => some (result = .sent, s)

/-- What `recvfrom` answers. -/
inductive RecvfromResult (Addr : Type) where
  | datagram (source : Addr) (bytes : List Byte)
  | again
  | failed

variable [DecidableEq Addr]

def processIncomingPkt (sys : LinkSys) (options : LinkOptions) (destAddr : Addr) (s : LinkSim Addr) :
    RecvfromResult Addr → Option (Bool × LinkSim Addr)
  | .failed => some (false, s)
  | .again => some (true, s)
  | .datagram source bytes =>
      let buf := bytes.take maxPktLen
      if buf.length < minPktLen then some (true, s)
      else
        -- the first to send a packet is the other party from then on
        let srcAddr := s.srcAddr.getD source
        let s := { s with srcAddr := some srcAddr }
        let direction := if source = destAddr then linkReverse else 0
        let direction := if source = srcAddr then linkForward else direction
        if direction = 0 then some (true, s)
        else if sameDirection direction options.linkDirection then
          simulateLink sys options s buf direction
        else
          match writeOut sys s buf direction with
          | (result, s) => some (result = .sent, s)

/-- The timeout for `select`, the inner `none` its null pointer. -/
def getQueueTimeout (s : LinkSim Addr) : Option (Option Timeval) := do
  match ← s.pktQueue.peek with
  | none => some none
  | some slot =>
      let timeout := timevalDiff slot.ts s.lastClock
      if timeout.tvSec < 0 ∨ timeout.tvSec = 0 ∧ timeout.tvUsec ≤ 0 then some (some ⟨0, 1000⟩)
      else some (some timeout)

/-- One turn of the loop of `proxy_loop`: `select` fails or is interrupted, or it returns, with the
clock that `clock_gettime` reads then, `none` if it fails, and with what `recvfrom` would answer if
the socket is readable. -/
inductive LinkEvent (Addr : Type) where
  | interrupted
  | selectFailed
  | woken (clock : Option Timespec) (readable : Option (RecvfromResult Addr))

structure LinkProcess (Addr : Type) where
  state : LinkSim Addr
  running : Bool

def proxyTurn (sys : LinkSys) (options : LinkOptions) (destAddr : Addr) (s : LinkSim Addr) :
    LinkEvent Addr → Option (LinkProcess Addr)
  | .interrupted => some ⟨s, true⟩
  | .selectFailed | .woken none _ => some ⟨s, false⟩
  | .woken (some clock) readable => do
      let (delivered, s) ← deliverDelayedPkt sys { s with lastClock := lastClockOf clock }
      if delivered = false then some ⟨s, false⟩
      else
        match readable with
        | none => some ⟨s, true⟩
        | some result => do
            let (processed, s) ← processIncomingPkt sys options destAddr s result
            some ⟨s, processed⟩

/-- `proxy_loop`, turn by turn; `none` after a bad access to the queue. -/
def proxyLoop (sys : LinkSys) (options : LinkOptions) (destAddr : Addr)
    (process : Option (LinkProcess Addr)) (event : LinkEvent Addr) : Option (LinkProcess Addr) := do
  let process ← process
  if process.running then proxyTurn sys options destAddr process.state event else some process

end

end SelectiveRepeat
