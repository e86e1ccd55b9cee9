import Mathlib.Data.List.Basic
import Mathlib.Tactic.IntervalCases

/-! Byte-addressed memory and the words stored in it. A pointer of the source is
the memory that starts at it, so nothing here has a size: which bytes of it are
meaningful is for the caller to say. -/

namespace Bytes

abbrev Byte := BitVec 8

abbrev Memory := Nat → Byte

def Memory.slice (memory : Memory) (start count : Nat) : List Byte :=
  (List.range count).map fun index => memory (start + index)

/-- `memcpy` to `start`: the bytes outside the copied range stay as they are. -/
def Memory.store (memory : Memory) (start : Nat) (bytes : List Byte) : Memory := fun address =>
  if start ≤ address ∧ address < start + bytes.length then bytes.getD (address - start) 0
  else memory address

@[simp] theorem slice_length (memory : Memory) (start count : Nat) :
    (memory.slice start count).length = count := by
  simp [Memory.slice]

theorem slice_getElem? (memory : Memory) (start count index : Nat) (bound : index < count) :
    (memory.slice start count)[index]? = some (memory (start + index)) := by
  simp [Memory.slice, bound]

theorem slice_add (memory : Memory) (start first second : Nat) :
    memory.slice start (first + second) =
      memory.slice start first ++ memory.slice (start + first) second := by
  simp only [Memory.slice, List.range_add, List.map_append, List.map_map]
  congr 1
  apply List.map_congr_left
  intro index _
  simp [Nat.add_assoc]

theorem slice_cons (memory : Memory) {count : Nat} (positive : 0 < count) :
    memory.slice 0 count = memory 0 :: memory.slice 1 (count - 1) := by
  have parts := slice_add memory 0 1 (count - 1)
  rw [Nat.add_sub_cancel' positive] at parts
  rw [parts]
  rfl

theorem slice_congr (memory other : Memory) (start count : Nat)
    (same : ∀ index, index < count → memory (start + index) = other (start + index)) :
    memory.slice start count = other.slice start count := by
  apply List.map_congr_left
  intro index member
  exact same index (List.mem_range.mp member)

theorem slice_append_iff (memory : Memory) (start count rest : Nat) {first second : List Byte}
    (size : first.length = count) :
    memory.slice start (count + rest) = first ++ second ↔
      memory.slice start count = first ∧ memory.slice (start + count) rest = second := by
  rw [slice_add]
  constructor
  · intro same
    exact List.append_inj same (by simp [size])
  · rintro ⟨left, right⟩
    rw [left, right]

theorem store_inside (memory : Memory) (start : Nat) (bytes : List Byte) (index : Nat)
    (bound : index < bytes.length) : memory.store start bytes (start + index) = bytes[index] := by
  simp [Memory.store, bound]

theorem store_outside (memory : Memory) (start : Nat) (bytes : List Byte) (address : Nat)
    (outside : address < start ∨ start + bytes.length ≤ address) :
    memory.store start bytes address = memory address := by
  simp only [Memory.store]
  rw [if_neg (by omega)]

@[simp] theorem slice_store_self (memory : Memory) (start : Nat) (bytes : List Byte) :
    (memory.store start bytes).slice start bytes.length = bytes := by
  apply List.ext_getElem (by simp)
  intro index left right
  simp only [Memory.slice, List.getElem_map, List.getElem_range]
  exact store_inside memory start bytes index right

theorem store_store (memory : Memory) (start middle : Nat) (first second : List Byte)
    (next : middle = start + first.length) :
    (memory.store start first).store middle second = memory.store start (first ++ second) := by
  subst next
  funext address
  simp only [Memory.store, List.length_append]
  by_cases below : address < start
  · rw [if_neg (by omega), if_neg (by omega), if_neg (by omega)]
  obtain ⟨offset, rfl⟩ := Nat.exists_eq_add_of_le (Nat.le_of_not_lt below)
  rw [show start + offset - (start + first.length) = offset - first.length by omega,
    Nat.add_sub_cancel_left]
  by_cases inFirst : offset < first.length
  · rw [if_neg (by omega), if_pos (by omega), if_pos (by omega)]
    simp [List.getD_eq_getElem?_getD, List.getElem?_append_left inFirst]
  · by_cases inSecond : offset < first.length + second.length
    · rw [if_pos (by omega), if_pos (by omega)]
      simp [List.getD_eq_getElem?_getD, List.getElem?_append_right (Nat.le_of_not_lt inFirst)]
    · rw [if_neg (by omega), if_neg (by omega), if_neg (by omega)]

/-! Words of a little-endian host. -/

def bytes16 (word : BitVec 16) : List Byte := [word.extractLsb' 0 8, word.extractLsb' 8 8]

def bytes32 (word : BitVec 32) : List Byte :=
  [word.extractLsb' 0 8, word.extractLsb' 8 8, word.extractLsb' 16 8, word.extractLsb' 24 8]

def Memory.load16 (memory : Memory) (start : Nat) : BitVec 16 :=
  memory (start + 1) ++ memory start

def Memory.load32 (memory : Memory) (start : Nat) : BitVec 32 :=
  memory (start + 3) ++ memory (start + 2) ++ memory (start + 1) ++ memory start

def swap16 (word : BitVec 16) : BitVec 16 := word.extractLsb' 0 8 ++ word.extractLsb' 8 8

/-- The byte order reversed, what `htonl` and `ntohl` do on a little-endian host. -/
def swap32 (word : BitVec 32) : BitVec 32 :=
  word.extractLsb' 0 8 ++ word.extractLsb' 8 8 ++ word.extractLsb' 16 8 ++ word.extractLsb' 24 8

@[simp] theorem bytes32_length (word : BitVec 32) : (bytes32 word).length = 4 := rfl

@[simp] theorem swap16_swap16 (word : BitVec 16) : swap16 (swap16 word) = word := by
  apply BitVec.eq_of_getLsbD_eq
  intro index bound
  simp only [swap16, BitVec.getLsbD_append, BitVec.getLsbD_extractLsb']
  grind

@[simp] theorem swap32_swap32 (word : BitVec 32) : swap32 (swap32 word) = word := by
  apply BitVec.eq_of_getLsbD_eq
  intro index bound
  simp only [swap32, BitVec.getLsbD_append, BitVec.getLsbD_extractLsb']
  grind

theorem swap32_injective : Function.Injective swap32 :=
  Function.LeftInverse.injective swap32_swap32

@[simp] theorem bytes16_load16 (memory : Memory) (start : Nat) :
    bytes16 (memory.load16 start) = memory.slice start 2 := by
  have low : (memory.load16 start).extractLsb' 0 8 = memory start :=
    BitVec.extractLsb'_append_eq_right
  have high : (memory.load16 start).extractLsb' 8 8 = memory (start + 1) :=
    BitVec.extractLsb'_append_eq_left
  simp [bytes16, low, high, Memory.slice, List.range_succ]

@[simp] theorem bytes32_load32 (memory : Memory) (start : Nat) :
    bytes32 (memory.load32 start) = memory.slice start 4 := by
  have byte (index : Nat) (bound : index < 4) :
      (memory.load32 start).extractLsb' (8 * index) 8 = memory (start + index) := by
    apply BitVec.eq_of_getLsbD_eq
    intro bit bitBound
    simp only [Memory.load32, BitVec.getLsbD_append, BitVec.getLsbD_extractLsb']
    interval_cases index <;> grind
  simp [bytes32, byte 0, byte 1, byte 2, byte 3, Memory.slice, List.range_succ]

theorem bytes16_injective : Function.Injective bytes16 := by
  intro first second same
  simp only [bytes16, List.cons.injEq] at same
  apply BitVec.eq_of_getLsbD_eq
  intro bit bound
  have low := congrArg (fun byte => byte.getLsbD bit) same.1
  have high := congrArg (fun byte => byte.getLsbD (bit - 8)) same.2.1
  simp only [BitVec.getLsbD_extractLsb'] at low high
  grind

theorem bytes32_injective : Function.Injective bytes32 := by
  intro first second same
  simp only [bytes32, List.cons.injEq] at same
  obtain ⟨byte0, byte1, byte2, byte3, _⟩ := same
  apply BitVec.eq_of_getLsbD_eq
  intro bit bound
  have bits0 := congrArg (fun byte => byte.getLsbD bit) byte0
  have bits1 := congrArg (fun byte => byte.getLsbD (bit - 8)) byte1
  have bits2 := congrArg (fun byte => byte.getLsbD (bit - 16)) byte2
  have bits3 := congrArg (fun byte => byte.getLsbD (bit - 24)) byte3
  simp only [BitVec.getLsbD_extractLsb'] at bits0 bits1 bits2 bits3
  grind

theorem load16_eq_iff (memory : Memory) (start : Nat) (word : BitVec 16) :
    memory.load16 start = word ↔ memory.slice start 2 = bytes16 word := by
  rw [← bytes16_load16]
  exact bytes16_injective.eq_iff.symm

theorem load32_eq_iff (memory : Memory) (start : Nat) (word : BitVec 32) :
    memory.load32 start = word ↔ memory.slice start 4 = bytes32 word := by
  rw [← bytes32_load32]
  exact bytes32_injective.eq_iff.symm

theorem load16_congr (memory other : Memory) (start : Nat)
    (same : ∀ index, index < 2 → memory (start + index) = other (start + index)) :
    memory.load16 start = other.load16 start := by
  rw [load16_eq_iff, bytes16_load16]
  exact slice_congr memory other start 2 same

theorem load32_congr (memory other : Memory) (start : Nat)
    (same : ∀ index, index < 4 → memory (start + index) = other (start + index)) :
    memory.load32 start = other.load32 start := by
  rw [load32_eq_iff, bytes32_load32]
  exact slice_congr memory other start 4 same

/-! One byte altered. -/

/-- Among the first `size` bytes the two memories differ at `index` and nowhere else. -/
structure AltersByte (altered original : Memory) (size index : Nat) : Prop where
  inside : index < size
  differs : altered index ≠ original index
  same : ∀ other, other < size → other ≠ index → altered other = original other

theorem AltersByte.slice_eq {altered original : Memory} {size index : Nat}
    (alters : AltersByte altered original size index) {start count : Nat} (le : start + count ≤ size)
    (outside : index < start ∨ start + count ≤ index) :
    altered.slice start count = original.slice start count :=
  slice_congr altered original start count fun offset bound =>
    alters.same (start + offset) (by omega) (by omega)

theorem AltersByte.load32_ne {altered original : Memory} {size index : Nat}
    (alters : AltersByte altered original size index) {start : Nat} (above : start ≤ index)
    (below : index < start + 4) : altered.load32 start ≠ original.load32 start := by
  obtain ⟨offset, rfl⟩ := Nat.exists_eq_add_of_le above
  rw [Ne, load32_eq_iff, bytes32_load32]
  intro same
  have byte := congrArg (fun bytes => bytes[offset]?) same
  simp only [slice_getElem? _ start 4 offset (by omega), Option.some.injEq] at byte
  exact alters.differs byte

end Bytes
