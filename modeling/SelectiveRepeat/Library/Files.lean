import SelectiveRepeat.Library.Bytes

/-! Binary files and the objects that `fwrite` and `fread` move to and from them. How an object
lies in memory is a layout; all writes succeed, and a read stops short at the end of the file. -/

namespace Files

open Bytes

/-- An object in `size` bytes, which determine it. -/
structure Layout (α : Type) (size : Nat) where
  bytes : α → List Byte
  value : List Byte → α
  bytes_length : ∀ object, (bytes object).length = size
  value_bytes : ∀ object, value (bytes object) = object

/-- An open file: the bytes before its position and those from it on. -/
structure File where
  passed : List Byte
  ahead : List Byte

namespace File

def seek (file : File) (position : Nat) : File :=
  ⟨(file.passed ++ file.ahead).take position, (file.passed ++ file.ahead).drop position⟩

/-- The position moves on by `count` bytes, or to the end. -/
def advance (file : File) (count : Nat) : File :=
  ⟨file.passed ++ file.ahead.take count, file.ahead.drop count⟩

/-- What a read of one item of `size` bytes adds to the bytes read. -/
def counted (file : File) (size : Nat) : Nat := if size ≤ file.ahead.length then size else 0

/-- One item is written, unless it is empty. -/
def fwrite (file : File) (item : List Byte) : Nat × File :=
  (item.length / item.length, ⟨file.passed ++ item, file.ahead.drop item.length⟩)

/-- One item of `size` bytes is read over the start of `before`. -/
def fread (file : File) (before : List Byte) (size : Nat) : Nat × List Byte × File :=
  let taken := file.ahead.take size
  (taken.length / size, taken ++ before.drop taken.length,
    ⟨file.passed ++ taken, file.ahead.drop size⟩)

end File

section

variable {α β : Type} {size : Nat}

def Layout.fwrite (layout : Layout α size) (object : α) (file : File) : Nat × File :=
  file.fwrite (layout.bytes object)

def Layout.fread (layout : Layout α size) (before : α) (file : File) : Nat × α × File :=
  let (items, bytes, file) := file.fread (layout.bytes before) size
  (items, layout.value bytes, file)

theorem seek_end (passed ahead : List Byte) :
    File.seek ⟨passed ++ ahead, []⟩ passed.length = ⟨passed, ahead⟩ := by
  rw [File.seek, List.append_nil, List.take_left, List.drop_left]

theorem fwrite_end (passed : List Byte) {item : List Byte} (nonempty : 0 < item.length) :
    File.fwrite ⟨passed, []⟩ item = (1, ⟨passed ++ item, []⟩) := by
  rw [File.fwrite, Nat.div_self nonempty, List.drop_nil]

theorem fread_item (passed rest before : List Byte) {item : List Byte} (nonempty : 0 < item.length) :
    File.fread ⟨passed, item ++ rest⟩ before item.length =
      (1, item ++ before.drop item.length, ⟨passed ++ item, rest⟩) := by
  simp only [File.fread, List.take_left, List.drop_left, Nat.div_self nonempty]

theorem Layout.fwrite_end (layout : Layout α size) (positive : 0 < size) (passed : List Byte)
    (object : α) :
    layout.fwrite object ⟨passed, []⟩ = (1, ⟨passed ++ layout.bytes object, []⟩) :=
  Files.fwrite_end passed (by rwa [layout.bytes_length])

theorem Layout.fread_bytes (layout : Layout α size) (positive : 0 < size) (passed rest : List Byte)
    (before object : α) :
    layout.fread before ⟨passed, layout.bytes object ++ rest⟩ =
      (1, object, ⟨passed ++ layout.bytes object, rest⟩) := by
  have item := @fread_item passed rest (layout.bytes before) (layout.bytes object)
    (by rwa [layout.bytes_length])
  rw [layout.bytes_length] at item
  have nothing : (layout.bytes before).drop size = [] := by
    rw [List.drop_eq_nil_iff, layout.bytes_length]
  simp only [Layout.fread, item, nothing, List.append_nil, layout.value_bytes]

def Layout.packed (layout : Layout α size) (pack : β → α) (unpack : α → β)
    (unpack_pack : ∀ object, unpack (pack object) = object) : Layout β size where
  bytes object := layout.bytes (pack object)
  value bytes := unpack (layout.value bytes)
  bytes_length object := layout.bytes_length (pack object)
  value_bytes object := by rw [layout.value_bytes, unpack_pack]

end

/-! What a read does on any file: the item is counted when all of it was there, and the position
moves on in either case. -/

@[simp] theorem advance_advance (file : File) (first second : Nat) :
    (file.advance first).advance second = file.advance (first + second) := by
  simp only [File.advance, List.append_assoc, List.take_add, List.drop_drop]

@[simp] theorem advance_zero (file : File) : file.advance 0 = file := by
  simp [File.advance]

@[simp] theorem counted_zero (file : File) : file.counted 0 = 0 := ite_self _

theorem advance_ahead_length (file : File) (count : Nat) :
    (file.advance count).ahead.length = file.ahead.length - count :=
  List.length_drop

theorem advance_take (file : File) (first second : Nat) :
    file.ahead.take (first + second) =
      file.ahead.take first ++ (file.advance first).ahead.take second :=
  List.take_add

/-- A sum of such counts for the next `size` bytes: complete exactly when all of them were there. -/
structure Counts (file : File) (size sum : Nat) : Prop where
  le : sum ≤ size
  eq_iff : sum = size ↔ size ≤ file.ahead.length

theorem counts_counted (file : File) (size : Nat) : Counts file size (file.counted size) := by
  rw [File.counted]
  split
  · next whole => exact ⟨Nat.le_refl size, iff_of_true rfl whole⟩
  · next short => exact ⟨Nat.zero_le size, by omega⟩

theorem Counts.add {file : File} {first second firstSum secondSum : Nat}
    (one : Counts file first firstSum) (two : Counts (file.advance first) second secondSum) :
    Counts file (first + second) (firstSum + secondSum) where
  le := Nat.add_le_add one.le two.le
  eq_iff := by
    have ahead := advance_ahead_length file first
    have firstLe := one.le
    have secondLe := two.le
    have both : firstSum + secondSum = first + second ↔ firstSum = first ∧ secondSum = second := by
      omega
    rw [both, one.eq_iff, two.eq_iff]
    omega

theorem fread_counted (file : File) (before : List Byte) {size : Nat} (positive : 0 < size) :
    size * (file.fread before size).1 = file.counted size := by
  simp only [File.fread, File.counted, List.length_take]
  split
  · next whole => rw [Nat.min_eq_left whole, Nat.div_self positive, Nat.mul_one]
  · next short => rw [Nat.div_eq_of_lt (by omega), Nat.mul_zero]

theorem fread_advance (file : File) (before : List Byte) (size : Nat) :
    (file.fread before size).2.2 = file.advance size := rfl

theorem fread_take (file : File) (before : List Byte) {size : Nat}
    (whole : size ≤ file.ahead.length) :
    (file.fread before size).2.1.take size = file.ahead.take size := by
  have taken : (file.ahead.take size).length = size := List.length_take_of_le whole
  simp only [File.fread]
  rw [List.take_append_of_le_length (by omega), List.take_of_length_le (by omega)]

section

variable {α β : Type} {size : Nat}

/-- Every image in memory is that of an object. -/
def Layout.Full (layout : Layout α size) : Prop :=
  ∀ bytes : List Byte, bytes.length = size → layout.bytes (layout.value bytes) = bytes

theorem Layout.fread_counted (layout : Layout α size) (positive : 0 < size) (before : α)
    (file : File) : size * (layout.fread before file).1 = file.counted size :=
  Files.fread_counted file (layout.bytes before) positive

theorem Layout.fread_advance (layout : Layout α size) (before : α) (file : File) :
    (layout.fread before file).2.2 = file.advance size := rfl

theorem Layout.Full.fread_bytes {layout : Layout α size} (full : layout.Full) (before : α)
    {file : File} (whole : size ≤ file.ahead.length) :
    layout.bytes (layout.fread before file).2.1 = file.ahead.take size := by
  have taken : (file.ahead.take size).length = size := List.length_take_of_le whole
  have nothing : (layout.bytes before).drop size = [] := by
    rw [List.drop_eq_nil_iff, layout.bytes_length]
  simp only [Layout.fread, File.fread, taken, nothing, List.append_nil]
  exact full _ taken

end

/-! Words of a little-endian host. -/

def layout16 : Layout (BitVec 16) 2 where
  bytes := bytes16
  value bytes := Memory.load16 (bytes.getD · 0) 0
  bytes_length _ := rfl
  value_bytes word := (load16_eq_iff _ 0 word).mpr rfl

def layout32 : Layout (BitVec 32) 4 where
  bytes := bytes32
  value bytes := Memory.load32 (bytes.getD · 0) 0
  bytes_length := bytes32_length
  value_bytes word := (load32_eq_iff _ 0 word).mpr rfl

theorem slice_getD (bytes : List Byte) :
    Memory.slice (bytes.getD · 0) 0 bytes.length = bytes := by
  apply List.ext_getElem?
  intro index
  by_cases bound : index < bytes.length
  · rw [slice_getElem? _ _ _ _ bound, Nat.zero_add, List.getElem?_eq_getElem bound,
      List.getD_eq_getElem?_getD, List.getElem?_eq_getElem bound, Option.getD_some]
  · rw [List.getElem?_eq_none (by rw [slice_length]; omega), List.getElem?_eq_none (by omega)]

theorem layout16_full : layout16.Full := by
  intro bytes length
  have image := bytes16_load16 (bytes.getD · 0) 0
  rwa [← length, slice_getD] at image

theorem layout32_full : layout32.Full := by
  intro bytes length
  have image := bytes32_load32 (bytes.getD · 0) 0
  rwa [← length, slice_getD] at image

end Files
