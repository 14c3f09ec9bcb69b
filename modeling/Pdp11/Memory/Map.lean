import Pdp11.Word

/-!
# The physical address map

Physical addresses have twenty-two significant bits. Memory starts at zero,
device and processor registers fill the top eight kilobytes, and nothing
answers in between.
-/

namespace Pdp11

/-- A physical address on its way to the map; the map drops all but its low
twenty-two bits. -/
abbrev PhysicalAddress := BitVec 32

/-- Ones where a physical address has significant bits. -/
def physicalMask : PhysicalAddress := 0o17777777

/-- Where the device registers begin. -/
def ioPageBase : PhysicalAddress := 0o17760000

/-- Where the processor status word appears among the device registers. -/
def pswAddress : PhysicalAddress := 0o17777776

/-- The largest memory that leaves the device registers uncovered. -/
def maxRamBytes : Nat := 0o17760000

/-- What answers at a physical address. -/
inductive Region
  | ram (offset : Nat)
  | ioPage
  | nonexistent
deriving DecidableEq

/-- The region that `address` falls in when `ramBytes` bytes are installed. -/
def Region.of (address : PhysicalAddress) (ramBytes : Nat) : Region :=
  let significant := address &&& physicalMask
  if significant ≥ ioPageBase then
    .ioPage
  else if significant.toNat < ramBytes then
    .ram significant.toNat
  else
    .nonexistent

/-- The byte of `word` that `address` selects. -/
def byteAt {w : Nat} (word : Word) (address : BitVec w) : Byte :=
  if isOdd address then highByte word else lowByte word

/-- The word `old` with the byte that `address` selects replaced. -/
def replaceByte {w : Nat} (old : Word) (address : BitVec w) (value : Byte) : Word :=
  if isOdd address then
    wordOfBytes (lowByte old) value
  else
    wordOfBytes value (highByte old)

/-- The part of `word` that an access of the given width at `address` sees. -/
def selectWidth {w : Nat} (word : Word) (address : BitVec w) : Width → Word
  | .word => word
  | .byte => (byteAt word address).setWidth 16

@[simp]
theorem byteAt_replaceByte {w : Nat} (old : Word) (address : BitVec w) (value : Byte) :
    byteAt (replaceByte old address value) address = value := by
  unfold byteAt replaceByte
  split <;> simp

end Pdp11
