import TransferCache.Rounding

/-!
# Decimal text with fixed places

A finite, non-negative double-precision number is written with a given number of decimal places: its
exact binary value is rounded to the nearest such decimal, and a tie goes to the even last digit.
-/

namespace TransferCache

/-- The significand and the power of two of a finite, non-negative number: its value is exactly
their product. -/
def binaryParts (x : Float) : Nat × Int :=
  let bits := x.toBits.toNat
  let biased : Nat := (bits >>> 52) % (1 <<< 11)
  let fraction : Nat := bits % (1 <<< 52)
  if biased = 0 then (fraction, -1074) else ((1 <<< 52) + fraction, (biased : Int) - 1075)

/-- A value `significand * 2 ^ power` as a whole number of units, of which `scale` make one. -/
def unitsOf (scale : Nat) : Nat × Int → Nat
  | (significand, .ofNat power) => (significand <<< power) * scale
  | (significand, .negSucc power) => roundedQuotient (significand * scale) (1 <<< (power + 1))

/-- The digits of a fraction part, with leading zeros up to the number of places. -/
def placesText (places : Nat) (units : Nat) : String :=
  let written := toString units
  "".pushn '0' (places - written.length) ++ written

/-- A finite, non-negative number with a positive number of decimal places. -/
def fixedText (places : Nat) (x : Float) : String :=
  let scale := Nat.pow 10 places
  let units := unitsOf scale (binaryParts x)
  toString (units / scale) ++ "." ++ placesText places (units % scale)

end TransferCache
