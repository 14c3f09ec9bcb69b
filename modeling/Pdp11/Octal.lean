/-!
# Octal numerals

Addresses and words are written in octal, without leading zeros.
-/

namespace Pdp11

/-- The octal digits of `value`, the highest first. -/
def octal (value : Nat) : String :=
  String.ofList (Nat.toDigits 8 value)

end Pdp11
