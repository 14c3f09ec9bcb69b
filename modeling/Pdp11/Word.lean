/-!
# Words, bytes and operand widths

The processor works on sixteen-bit words made of two bytes, low byte first.
Every operation names the width it acts on; a byte operation sees only the low
half of the words it is given.
-/

namespace Pdp11

/-- Sixteen bits, which registers hold and instructions act on. -/
abbrev Word := BitVec 16

/-- Eight bits, half a word. -/
abbrev Byte := BitVec 8

/-- The half of a word that stands at the even address. -/
def lowByte (word : Word) : Byte :=
  word.extractLsb' 0 8

/-- The half of a word that stands at the odd address. -/
def highByte (word : Word) : Byte :=
  word.extractLsb' 8 8

/-- The word that two neighbouring bytes make up. -/
def wordOfBytes (low high : Byte) : Word :=
  high ++ low

theorem getLsbD_wordOfBytes (low high : Byte) (i : Nat) :
    (wordOfBytes low high).getLsbD i = if i < 8 then low.getLsbD i else high.getLsbD (i - 8) :=
  BitVec.getLsbD_append

@[simp]
theorem lowByte_wordOfBytes (low high : Byte) : lowByte (wordOfBytes low high) = low := by
  apply BitVec.eq_of_getLsbD_eq
  intro i below
  simp only [lowByte, BitVec.getLsbD_extractLsb', getLsbD_wordOfBytes]
  simp [below]

@[simp]
theorem highByte_wordOfBytes (low high : Byte) : highByte (wordOfBytes low high) = high := by
  apply BitVec.eq_of_getLsbD_eq
  intro i below
  simp only [highByte, BitVec.getLsbD_extractLsb', getLsbD_wordOfBytes]
  simp [below]

@[simp]
theorem wordOfBytes_lowByte_highByte (word : Word) :
    wordOfBytes (lowByte word) (highByte word) = word := by
  apply BitVec.eq_of_getLsbD_eq
  intro i below
  simp only [getLsbD_wordOfBytes, lowByte, highByte, BitVec.getLsbD_extractLsb']
  by_cases inLow : i < 8
  · simp [inLow]
  · have inHigh : i - 8 < 8 := by omega
    have shifted : 8 + (i - 8) = i := by omega
    simp [inLow, inHigh, shifted]

/-- Bit 0 of an address selects the byte within a word. -/
def isOdd {w : Nat} (address : BitVec w) : Bool :=
  address.getLsbD 0

/-- The address of the word that holds the byte at `address`. -/
def wordAddress {w : Nat} (address : BitVec w) : BitVec w :=
  address &&& ~~~1#w

/-- How much of a word an operation acts on. -/
inductive Width
  | byte
  | word
deriving DecidableEq

namespace Width

/-- Ones where the width has bits. -/
def mask : Width → Word
  | byte => 0o377
  | word => 0o177777

/-- The highest bit of the width, which makes a signed value negative. -/
def signBit : Width → Word
  | byte => 0o200
  | word => 0o100000

/-- How many addresses the width takes up. -/
def bytes : Width → Nat
  | byte => 1
  | word => 2

end Width

end Pdp11
