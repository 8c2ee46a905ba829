import ProofRelay.Decimal.Binary64

/-!
The fewest decimal digits that read back as a given double, and of those the nearest to it.  For one digit,
then two, and so on to seventeen, the two neighbours of the double on that decimal grid are tested against
the interval of numbers that round to it; the first grid with a hit wins.
-/

namespace ProofRelay.Decimal

/-- The number `digits · 10 ^ exponent`. -/
structure Digits where
  digits : Nat
  exponent : Int
deriving DecidableEq, Repr

/-- The whole exponent `e` with `10 ^ e ≤ num / den < 10 ^ (e + 1)`, for a positive quotient. -/
def floorLog10 (num den : Nat) : Int :=
  if den ≤ num then ((Nat.toDigits 10 (num / den)).length : Int) - 1
  else -((Nat.toDigits 10 ((den + num - 1) / num - 1)).length : Int)

/-- Whether `digits · 10 ^ exponent` rounds to `m`.  The interval reaches half a step up and down, only a
quarter down where the steps below are half as wide, and holds its ends if the significand is even. -/
def readsBack (m : Magnitude) (digits : Nat) (exponent : Int) : Bool :=
  let down := if m.significand = twoTo 52 ∧ m.exponent ≠ Magnitude.leastExponent then 1 else 2
  let step := twoTo m.exponent.toNat
  let unit := twoTo (-m.exponent).toNat
  -- both sides over the common denominator `4 · unit · 10 ^ -exponent`
  let x := 4 * unit * (digits * tenTo exponent.toNat)
  let tens := tenTo (-exponent).toNat
  let low := (4 * m.significand - down) * step * tens
  let high := (4 * m.significand + 2) * step * tens
  if m.significand % 2 = 0 then low ≤ x && x ≤ high else low < x && x < high

/-- Which of two digits counts as the nearer one if both are equally near. -/
inductive Halfway
  | even
  | up
deriving DecidableEq, Repr

/-- The nearer of `below` and the number after it, halfway between them. -/
def Halfway.choose : Halfway → Nat → Nat
  | even, below => below + below % 2
  | up, below => below + 1

/-- The point of the grid `10 ^ exponent` that rounds to `m` and is nearest to it, if one does. -/
def onGrid (halfway : Halfway) (m : Magnitude) (exponent : Int) : Option Nat :=
  let num := m.ratio.1 * tenTo (-exponent).toNat
  let den := m.ratio.2 * tenTo exponent.toNat
  let below := num / den
  let r := num % den
  match readsBack m below exponent, readsBack m (below + 1) exponent with
  | true, true =>
    if 2 * r < den then some below
    else if 2 * r = den then some (halfway.choose below)
    else some (below + 1)
  | true, false => some below
  | false, true => some (below + 1)
  | false, false => none

/-- Drops the zeros at the end of the digits; a number below `10 ^ fuel` has at most `fuel` of them. -/
def dropZeros (fuel : Nat) (d : Digits) : Digits :=
  match fuel with
  | 0 => d
  | fuel + 1 =>
    if d.digits ≠ 0 ∧ d.digits % 10 = 0 then dropZeros fuel ⟨d.digits / 10, d.exponent + 1⟩ else d

/-- The fewest digits that read back as `m`. -/
def shortest (halfway : Halfway) (m : Magnitude) : Digits :=
  if m.significand = 0 then ⟨0, 0⟩
  else
    let top := floorLog10 m.ratio.1 m.ratio.2
    let grids := (List.range 17).map fun (i : Nat) => top - (i : Int)
    match grids.findSome? fun e => (onGrid halfway m e).map (Digits.mk · e) with
    | some d => dropZeros 18 d
    | none => ⟨m.significand, m.exponent⟩

/-- How a decimal number is written. -/
structure Layout where
  /-- Which of two equally near digits is written last. -/
  halfway : Halfway
  /-- The exponents of the first digit that are written without an exponent mark; all if none are given. -/
  positional : Option (Int × Int)
  /-- Whether whole numbers end in `.0`. -/
  keepsPoint : Bool

/-- Digits without exponent, however many zeros that takes. -/
def Layout.plain : Layout := ⟨.up, none, false⟩

/-- Lays out the digits of a non-negative number. -/
def Layout.place (l : Layout) (d : Digits) : String :=
  let ds := Nat.toDigits 10 d.digits
  let top := d.exponent + ds.length - 1
  let isPositional := match l.positional with
    | none => true
    | some (low, high) => low ≤ top && top ≤ high
  let zeros (n : Int) := List.replicate n.toNat '0'
  String.ofList <|
    if isPositional then
      if 0 ≤ d.exponent then ds ++ zeros d.exponent ++ (if l.keepsPoint then ['.', '0'] else [])
      else if 0 ≤ top then ds.take (top + 1).toNat ++ '.' :: ds.drop (top + 1).toNat
      else '0' :: '.' :: zeros (-top - 1) ++ ds
    else
      let tail := ds.drop 1
      ds.take 1 ++ (if tail.isEmpty then [] else '.' :: tail) ++
        'e' :: (if top < 0 then '-' else '+') :: Nat.toDigits 10 top.natAbs

/-- Writes a finite, non-negative double. -/
def Layout.write (l : Layout) (m : Magnitude) : String := l.place (shortest l.halfway m)

end ProofRelay.Decimal
