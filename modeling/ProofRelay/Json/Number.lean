import ProofRelay.Decimal.Shortest

/-!
JSON numbers.  Whole numbers from `-2 ^ 63` to `2 ^ 64 - 1` are kept exactly; every other number is a double,
and so is `-0`.  A double is read from at most twenty leading digits, rounded, and scaled by one rounded power
of ten, and it is written with the fewest digits that read back.
-/

namespace ProofRelay.Json

open Decimal

inductive Number
  /-- A whole number from zero up. -/
  | whole (n : Nat)
  /-- The whole number `-n`. -/
  | negative (n : Nat)
  /-- A double with its sign. -/
  | double (isNegative : Bool) (m : Magnitude)
deriving DecidableEq, Repr

namespace Number

/-- One past the greatest whole number. -/
def wholeLimit : Nat := UInt64.size

/-- The distance of the least whole number from zero. -/
def negativeLimit : Nat := UInt64.size / 2

/-- The greatest power of ten by which a double is scaled at once. -/
def greatestPower : Nat := 308

/-- The double nearest to a power of ten. -/
def powerOfTen (k : Nat) : Magnitude := (nearest (tenTo k) 1).getD .zero

/-- Divides a double by `10 ^ k`, rounding after each step.  A power past the greatest one is taken off in
steps, until nothing is left of the number. -/
def shrink (m : Magnitude) (k : Nat) : Option Magnitude :=
  if k ≤ greatestPower then m.div (powerOfTen k)
  else if m.significand = 0 then some m
  else (m.div (powerOfTen greatestPower)).bind fun m => shrink m (k - greatestPower)
termination_by k
decreasing_by have : 0 < greatestPower := by decide
              omega

/-- Scales a double by a power of ten; none if the number is out of range. -/
def scale (m : Magnitude) (exponent : Int) : Option Magnitude :=
  if exponent < 0 then shrink m (-exponent).toNat
  else if exponent ≤ greatestPower then m.mul (powerOfTen exponent.toNat)
  else if m.significand = 0 then some m
  else none

/-- The double read from a significand below `2 ^ 64` and a power of ten. -/
def ofParts? (isNegative : Bool) (significand : Nat) (exponent : Int) : Option Number :=
  (nearest significand 1).bind fun m => (scale m exponent).map (.double isNegative)

/-- The number read from digits without point or exponent. -/
def ofDigits? (isNegative : Bool) (n : Nat) : Option Number :=
  if !isNegative then some (.whole n)
  else if n = 0 ∨ negativeLimit < n then ofParts? true n 0
  else some (.negative n)

/-- The number of an integer, as a double if it is out of the range of whole numbers. -/
def ofInt (i : Int) : Number :=
  let outside := (nearest i.natAbs 1).getD .zero
  if 0 ≤ i then if i.toNat < wholeLimit then .whole i.toNat else .double false outside
  else if i.natAbs ≤ negativeLimit then .negative i.natAbs
  else .double true outside

/-- Exponents from -5 to 15 are written positionally, whole doubles end in `.0`, and of two equally near last
digits the even one is written. -/
def layout : Layout := ⟨.even, some (-5, 15), true⟩

/-- The text of a number. -/
def write : Number → String
  | whole n => toString n
  | negative n => "-" ++ toString n
  | double isNegative m => (if isNegative then "-" else "") ++ layout.write m

end Number
end ProofRelay.Json
