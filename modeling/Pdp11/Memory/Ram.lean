import Pdp11.Word

/-!
# Random access memory

Memory is an array of bytes. A word occupies two neighbouring bytes, low byte
first, and is present only when both bytes are.
-/

namespace Pdp11

/-- Memory, byte by byte from address zero. -/
structure Ram where
  bytes : Array Byte
deriving DecidableEq

namespace Ram

/-- Memory of `size` bytes, all of them zero. -/
def zeroed (size : Nat) : Ram where
  bytes := Array.replicate size 0

/-- How many bytes there are. -/
def size (ram : Ram) : Nat :=
  ram.bytes.size

/-- The byte at `offset`, if it lies inside. -/
def readByte? (ram : Ram) (offset : Nat) : Option Byte :=
  ram.bytes[offset]?

/-- The word whose low byte is at `offset`, if both bytes lie inside. -/
def readWord? (ram : Ram) (offset : Nat) : Option Word := do
  let low ← ram.bytes[offset]?
  let high ← ram.bytes[offset + 1]?
  return wordOfBytes low high

/-- Nothing is written, and `none` returned, when the byte lies outside. -/
def writeByte? (ram : Ram) (offset : Nat) (value : Byte) : Option Ram :=
  if inside : offset < ram.bytes.size then
    some { bytes := ram.bytes.set offset value }
  else
    none

/-- Nothing is written, and `none` returned, when either byte lies outside. -/
def writeWord? (ram : Ram) (offset : Nat) (value : Word) : Option Ram :=
  if inside : offset + 1 < ram.bytes.size then
    some
      { bytes := (ram.bytes.set offset (lowByte value)).set (offset + 1) (highByte value)
          (by simpa using inside) }
  else
    none

/-- Offset of the word that holds the byte at `offset`. -/
def wordOffset (offset : Nat) : Nat :=
  offset / 2 * 2

/-- What an access of the given width at `offset` reads; a word is read whole,
whichever of its bytes `offset` is. -/
def read? (ram : Ram) (offset : Nat) : Width → Option Word
  | .word => ram.readWord? (wordOffset offset)
  | .byte => (ram.readByte? offset).map (·.setWidth 16)

/-- Memory after a write of the given width at `offset`; a byte
is the low one of `value`. -/
def write? (ram : Ram) (offset : Nat) (value : Word) : Width → Option Ram
  | .word => ram.writeWord? (wordOffset offset) value
  | .byte => ram.writeByte? offset (lowByte value)

@[simp]
theorem size_zeroed (size : Nat) : (zeroed size).size = size := by
  simp [Ram.size, zeroed]

theorem writeByte?_isSome (ram : Ram) (offset : Nat) (value : Byte) :
    (ram.writeByte? offset value).isSome ↔ offset < ram.size := by
  unfold writeByte? Ram.size
  split <;> simp_all

theorem writeWord?_isSome (ram : Ram) (offset : Nat) (value : Word) :
    (ram.writeWord? offset value).isSome ↔ offset + 1 < ram.size := by
  unfold writeWord? Ram.size
  split <;> simp_all

theorem readByte?_writeByte {ram written : Ram} {offset : Nat} {value : Byte}
    (write : ram.writeByte? offset value = some written) (other : Nat) :
    written.readByte? other = if offset = other then some value else ram.readByte? other := by
  unfold writeByte? at write
  split at write
  · cases write
    simp only [readByte?, Array.getElem?_set]
  · contradiction

theorem readByte?_writeWord {ram written : Ram} {offset : Nat} {value : Word}
    (write : ram.writeWord? offset value = some written) (other : Nat) :
    written.readByte? other =
      if offset + 1 = other then some (highByte value)
      else if offset = other then some (lowByte value)
      else ram.readByte? other := by
  unfold writeWord? at write
  split at write
  · cases write
    simp only [readByte?, Array.getElem?_set]
  · contradiction

/-- A word is read as its two bytes. -/
theorem readWord?_eq_some_iff {ram : Ram} {offset : Nat} {value : Word} :
    ram.readWord? offset = some value ↔
      ram.readByte? offset = some (lowByte value) ∧
        ram.readByte? (offset + 1) = some (highByte value) := by
  simp only [readWord?, readByte?]
  constructor
  · intro read
    cases low : ram.bytes[offset]? with
    | none => simp [low] at read
    | some lowValue =>
      cases high : ram.bytes[offset + 1]? with
      | none => simp [low, high] at read
      | some highValue =>
        simp only [low, high, Option.bind_eq_bind, Option.bind_some, Option.pure_def,
          Option.some.injEq] at read
        subst read
        simp
  · rintro ⟨low, high⟩
    simp [low, high]

end Ram

end Pdp11
