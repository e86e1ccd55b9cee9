import SelectiveRepeat.Library.Crc
import SelectiveRepeat.Packet

/-! What the two programs call and do not contain: the checksum of zlib and the
system calls. Each field answers the n-th call of its kind, so that a statement about
every system is one about every sequence of answers. -/

namespace SelectiveRepeat

open Bytes

structure Sys where
  crc32 : List Byte → BitVec 32
  /-- Low 32 bits of the n-th `time(NULL)` of the sender. -/
  time : Nat → BitVec 32
  /-- Whether the n-th `send` of the sender succeeds. -/
  send : Nat → Bool
  /-- The n-th `read`: -1, or how many bytes it would return if the file had them. -/
  read : Nat → Option Nat
  /-- The n-th `write` of so many bytes: -1, or how many of them it wrote. -/
  write : Nat → Nat → Option Nat

def Sys.WritesAll (sys : Sys) : Prop := ∀ call count, sys.write call count = some count

def Sys.faultless : Sys where
  crc32 := Crc.crc32
  time := fun call => BitVec.ofNat 32 (2 * call)
  send := fun _ => true
  read := fun _ => some 512
  write := fun _ count => some count

theorem Sys.faultless_writesAll : Sys.faultless.WritesAll := fun _ _ => rfl

abbrev maxReadSize : Nat := 528

def received (datagram : Datagram) : List Byte := datagram.take maxReadSize

/-- The receive buffer after `recv`: `stale` is what the buffer held before. -/
def recvBuffer (datagram : Datagram) (stale : Memory) : Memory := stale.store 0 (received datagram)

end SelectiveRepeat
