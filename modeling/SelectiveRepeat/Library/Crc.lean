import Mathlib.Logic.Function.Basic
import SelectiveRepeat.Library.Bytes

/-! The standard CRC-32: reflected polynomial, register preset to ones and
inverted at the end. Everything else in this development takes the checksum as
a parameter; this is the function that parameter stands for. It tells any two
byte strings apart that differ in one byte. -/

namespace Crc

open Bytes

def bitStep (register : BitVec 32) : BitVec 32 :=
  if register.getLsbD 0 then (register >>> 1) ^^^ 0xEDB88320 else register >>> 1

def byteStep (register : BitVec 32) (byte : Byte) : BitVec 32 :=
  Nat.repeat bitStep 8 (register ^^^ byte.setWidth 32)

def crc32 (bytes : List Byte) : BitVec 32 :=
  bytes.foldl byteStep 0xFFFFFFFF ^^^ 0xFFFFFFFF

-- The check value of the standard: the nine digits "123456789".
example : crc32 [0x31, 0x32, 0x33, 0x34, 0x35, 0x36, 0x37, 0x38, 0x39] = 0xCBF43926 := by
  decide +kernel

/-- The checksum tells apart two byte strings of equal length that differ in one byte. -/
def SeparatesBytes (checksum : List Byte → BitVec 32) : Prop :=
  ∀ (bytes : List Byte) (index : Nat) (byte : Byte) (bound : index < bytes.length),
    byte ≠ bytes[index] → checksum (bytes.set index byte) ≠ checksum bytes

theorem SeparatesBytes.ne {checksum : List Byte → BitVec 32} (separates : SeparatesBytes checksum)
    {first second : List Byte} {index : Nat} (bound : index < second.length)
    (differ : first[index]? ≠ second[index]?)
    (same : ∀ other, other ≠ index → first[other]? = second[other]?)
    (size : first.length = second.length) : checksum first ≠ checksum second := by
  have inFirst : index < first.length := size ▸ bound
  have altered : first = second.set index first[index] := by
    apply List.ext_getElem?
    intro other
    rw [List.getElem?_set]
    split_ifs with here
    · subst here
      exact List.getElem?_eq_getElem inFirst
    · exact same other (Ne.symm here)
  have byte : first[index] ≠ second[index] := by
    intro equal
    rw [List.getElem?_eq_getElem inFirst, List.getElem?_eq_getElem bound, equal] at differ
    exact differ rfl
  rw [altered]
  exact separates second index _ bound byte

theorem SeparatesBytes.slice_ne {checksum : List Byte → BitVec 32}
    (separates : SeparatesBytes checksum) {altered original : Memory} {size index : Nat}
    (alters : AltersByte altered original size index) {start count : Nat} (le : start + count ≤ size)
    (above : start ≤ index) (below : index < start + count) :
    checksum (altered.slice start count) ≠ checksum (original.slice start count) := by
  obtain ⟨offset, rfl⟩ := Nat.exists_eq_add_of_le above
  have bound : offset < count := by omega
  have inside : offset < (original.slice start count).length := by simpa using bound
  refine separates.ne inside ?_ ?_ (by simp)
  · rw [slice_getElem? _ _ _ _ bound, slice_getElem? _ _ _ _ bound, Ne, Option.some.injEq]
    exact alters.differs
  · intro other apart
    by_cases inside : other < count
    · rw [slice_getElem? _ _ _ _ inside, slice_getElem? _ _ _ _ inside,
        alters.same (start + other) (by omega) (by omega)]
    · rw [List.getElem?_eq_none (by simpa using inside), List.getElem?_eq_none (by simpa using inside)]

/-! The polynomial has its top bit set, so no step of the register loses the bit shifted out. -/

theorem bitStep_injective : Function.Injective bitStep := by
  have top (register : BitVec 32) : (bitStep register).getLsbD 31 = register.getLsbD 0 := by
    rw [bitStep]
    split
    · next low => simp [low]
    · next low =>
        rw [Bool.eq_false_iff.mpr low]
        simp
  intro first second same
  have low : first.getLsbD 0 = second.getLsbD 0 := by
    rw [← top, ← top, same]
  have shifted : first >>> 1 = second >>> 1 := by
    rw [bitStep, bitStep, low] at same
    split at same
    · exact (BitVec.xor_left_inj _).mp same
    · exact same
  apply BitVec.eq_of_getLsbD_eq
  intro index bound
  cases index with
  | zero => exact low
  | succ index =>
      have bit := congrArg (fun word => word.getLsbD index) shifted
      simpa [Nat.add_comm 1 index] using bit

theorem repeat_injective {α : Type} {step : α → α} (injective : Function.Injective step)
    (count : Nat) : Function.Injective (Nat.repeat step count) := by
  induction count with
  | zero => exact fun _ _ same => same
  | succ count ih => exact fun _ _ same => ih (injective same)

theorem byteStep_register_injective (byte : Byte) :
    Function.Injective fun register => byteStep register byte := by
  intro first second same
  exact (BitVec.xor_left_inj _).mp (repeat_injective bitStep_injective 8 same)

theorem byteStep_byte_injective (register : BitVec 32) : Function.Injective (byteStep register) := by
  intro first second same
  have widened := (BitVec.xor_right_inj _).mp (repeat_injective bitStep_injective 8 same)
  have narrowed := congrArg (BitVec.setWidth 8) widened
  simpa using narrowed

theorem foldl_byteStep_injective (bytes : List Byte) :
    Function.Injective fun register => bytes.foldl byteStep register := by
  induction bytes with
  | nil => exact fun _ _ same => same
  | cons byte rest ih => exact fun _ _ same => byteStep_register_injective byte (ih same)

theorem foldl_byteStep_set (bytes : List Byte) (index : Nat) (byte : Byte)
    (bound : index < bytes.length) (differs : byte ≠ bytes[index]) (register : BitVec 32) :
    (bytes.set index byte).foldl byteStep register ≠ bytes.foldl byteStep register := by
  induction bytes generalizing index register with
  | nil => exact absurd bound (Nat.not_lt_zero index)
  | cons first rest ih =>
      cases index with
      | zero =>
          intro same
          exact differs (byteStep_byte_injective register (foldl_byteStep_injective rest same))
      | succ index => exact ih index (Nat.lt_of_succ_lt_succ bound) differs (byteStep register first)

theorem crc32_separatesBytes : SeparatesBytes crc32 := by
  intro bytes index byte bound differs same
  exact foldl_byteStep_set bytes index byte bound differs _ ((BitVec.xor_left_inj _).mp same)

end Crc
