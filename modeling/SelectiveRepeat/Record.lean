import SelectiveRepeat.Library.Files

/-! The records of `record.c` and their binary files. `malloc` and the writes succeed, so nothing
returns an error; `none` stands for a read outside of a block. -/

namespace SelectiveRepeat

open Bytes Files

/-- `struct record`: `data` is the block that the pointer leads to. -/
structure Record where
  type : BitVec 15
  hasFooter : BitVec 1
  length : BitVec 16
  data : Option (List Byte)
  uuid : BitVec 32

/-- How a machine keeps the two bit-fields and the integers in memory. -/
structure Machine where
  header : Layout (BitVec 15 × BitVec 1) 2
  uint16 : Layout (BitVec 16) 2
  uint32 : Layout (BitVec 32) 4
  htons : BitVec 16 → BitVec 16
  ntohs : BitVec 16 → BitVec 16
  ntohs_htons : ∀ hostshort, ntohs (htons hostshort) = hostshort

/-- A little-endian machine that fills bit-fields from the low bit on. -/
def x86 : Machine where
  header := layout16.packed (fun fields => fields.2 ++ fields.1)
    (fun word => (word.extractLsb' 0 15, word.extractLsb' 15 1))
    fun _ => Prod.ext BitVec.extractLsb'_append_eq_right BitVec.extractLsb'_append_eq_left
  uint16 := layout16
  uint32 := layout32
  htons := swap16
  ntohs := swap16
  ntohs_htons := swap16_swap16

/-- `uuid` is left as it was. -/
def recordInit (r : Record) : Record :=
  { r with type := 0, hasFooter := 0, length := 0, data := none }

def recordGetType (r : Record) : Nat := r.type.toNat

def recordSetType (r : Record) (type : Int) : Record := { r with type := BitVec.ofInt 15 type }

def recordGetLength (r : Record) : Nat := r.length.toNat

def recordSetPayload (r : Record) (buf : Memory) (n : Nat) : Record :=
  { r with length := BitVec.ofNat 16 n, data := some (buf.slice 0 n) }

/-- The first bytes behind a pointer, as far as its block goes. -/
def firstBytes (data : Option (List Byte)) (count : Nat) : Option (List Byte) :=
  let block := data.getD []
  if count ≤ block.length then some (block.take count) else none

/-- The bytes copied to the buffer; their number is returned. -/
def recordGetPayload (r : Record) (n : Nat) : Option (List Byte) :=
  firstBytes r.data (if r.length.toNat < n then r.length.toNat else n)

def recordHasFooter (r : Record) : Nat := r.hasFooter.toNat

def recordDeleteFooter (r : Record) : Record := { r with hasFooter := 0, uuid := 0 }

def recordSetUuid (r : Record) (uuid : BitVec 32) : Record :=
  let r := if r.hasFooter = 0 then { r with hasFooter := 1 } else r
  { r with uuid := uuid }

def recordGetUuid (r : Record) : BitVec 32 := r.uuid

def recordWritePayload (r : Record) (f : File) : Option (Nat × File) :=
  if 0 < r.length.toNat then do
    let data ← firstBytes r.data r.length.toNat
    let (items, f) := f.fwrite data
    some (r.length.toNat * items, f)
  else some (0, f)

def recordWriteFooter (machine : Machine) (r : Record) (f : File) : Nat × File :=
  if r.hasFooter ≠ 0 then
    let (items, f) := machine.uint32.fwrite r.uuid f
    (4 * items, f)
  else (0, f)

def recordWrite (machine : Machine) (r : Record) (f : File) : Option (Nat × File) := do
  let (items, f) := machine.header.fwrite (r.type, r.hasFooter) f
  let sum := 2 * items
  let (items, f) := machine.uint16.fwrite (machine.htons r.length) f
  let sum := sum + 2 * items
  let (payload, f) ← recordWritePayload r f
  let (footer, f) := recordWriteFooter machine r f
  some (sum + payload + footer, f)

/-- What is found in the local variables and in the new block before they are written. -/
structure Leftovers where
  length : BitVec 16
  block : Memory
  foo : BitVec 32

def recordReadPayload (leftovers : Leftovers) (r : Record) (f : File) : Nat × Record × File :=
  if r.length ≠ 0 then
    let a := leftovers.block.slice 0 (r.length.toNat + 1)
    let (items, a, f) := f.fread a r.length.toNat
    (r.length.toNat * items, { r with data := some a }, f)
  else (0, { r with data := none }, f)

def recordReadFooter (machine : Machine) (leftovers : Leftovers) (r : Record) (f : File) :
    Nat × Record × File :=
  if r.hasFooter ≠ 0 then
    let (items, foo, f) := machine.uint32.fread leftovers.foo f
    (4 * items, { r with uuid := foo }, f)
  else (0, { r with uuid := 0 }, f)

def recordRead (machine : Machine) (leftovers : Leftovers) (r : Record) (f : File) :
    Nat × Record × File :=
  let (items, fields, f) := machine.header.fread (r.type, r.hasFooter) f
  let sum := 2 * items
  let r := { r with type := fields.1, hasFooter := fields.2 }
  let (items, length, f) := machine.uint16.fread leftovers.length f
  let sum := sum + 2 * items
  let r := { r with length := machine.ntohs length }
  let (payload, r, f) := recordReadPayload leftovers r f
  let (footer, r, f) := recordReadFooter machine leftovers r f
  (sum + payload + footer, r, f)

end SelectiveRepeat
