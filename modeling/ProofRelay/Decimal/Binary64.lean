/-!
Finite, non-negative doubles as exact numbers `significand · 2 ^ exponent`, and rounding to them: `nearest`
takes a quotient to the double closest to it, a tie to the even significand, and has no answer past the
greatest double.  Products and quotients of doubles are the exact ones, rounded.
-/

namespace ProofRelay.Decimal

/-- A power of two. -/
def twoTo (k : Nat) : Nat := Nat.pow 2 k

/-- A power of ten. -/
def tenTo (k : Nat) : Nat := Nat.pow 10 k

/-- A finite, non-negative double.  The significand is below `2 ^ 53`, and below `2 ^ 52` only at the least
exponent. -/
structure Magnitude where
  significand : Nat
  exponent : Int
deriving DecidableEq, Repr

namespace Magnitude

/-- The exponent of the smallest doubles. -/
def leastExponent : Int := -1074

/-- The exponent of the greatest doubles. -/
def greatestExponent : Int := 971

def zero : Magnitude := ⟨0, leastExponent⟩

/-- The exact value, as numerator and denominator. -/
def ratio (m : Magnitude) : Nat × Nat :=
  (m.significand * twoTo m.exponent.toNat, twoTo (-m.exponent).toNat)

end Magnitude

/-- The quotient to the nearest whole number, a half to the even one. -/
def roundHalfEven (num den : Nat) : Nat :=
  let q := num / den
  let r := num % den
  if 2 * r < den then q
  else if 2 * r = den then q + q % 2
  else q + 1

/-- The whole exponent `e` with `2 ^ e ≤ num / den < 2 ^ (e + 1)`, for a positive quotient. -/
def floorLog2 (num den : Nat) : Int :=
  let guess : Int := (num.log2 : Int) - den.log2
  if num * twoTo (-guess).toNat < den * twoTo guess.toNat then guess - 1 else guess

/-- The double nearest to `num / den`; none if it is past the greatest one. -/
def nearest (num den : Nat) : Option Magnitude :=
  if num = 0 then some .zero
  else
    let exponent := max (floorLog2 num den - 52) Magnitude.leastExponent
    let q := roundHalfEven (num * twoTo (-exponent).toNat) (den * twoTo exponent.toNat)
    let m : Magnitude := if q = twoTo 53 then ⟨twoTo 52, exponent + 1⟩ else ⟨q, exponent⟩
    if m.exponent ≤ Magnitude.greatestExponent then some m else none

namespace Magnitude

/-- The double nearest to the product. -/
def mul (a b : Magnitude) : Option Magnitude :=
  nearest (a.ratio.1 * b.ratio.1) (a.ratio.2 * b.ratio.2)

/-- The double nearest to the quotient, for a divisor that is not zero. -/
def div (a b : Magnitude) : Option Magnitude :=
  nearest (a.ratio.1 * b.ratio.2) (a.ratio.2 * b.ratio.1)

/-- The nearest whole number, a half upward. -/
def round (m : Magnitude) : Nat := (2 * m.ratio.1 + m.ratio.2) / (2 * m.ratio.2)

end Magnitude

/-- The double nearest to `digits · 10 ^ exponent`.  Exponents far outside the range of doubles are decided
by their size alone. -/
def nearestDecimal (digits : Nat) (exponent : Int) : Option Magnitude :=
  let size := exponent + (Nat.toDigits 10 digits).length
  if digits = 0 ∨ size < -400 then some .zero
  else if size > 400 then none
  else nearest (digits * tenTo exponent.toNat) (tenTo (-exponent).toNat)

end ProofRelay.Decimal
