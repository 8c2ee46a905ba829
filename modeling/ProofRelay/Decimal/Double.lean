import ProofRelay.Decimal.Shortest

/-!
Doubles with their sign, infinities and the value that is not a number: reading them from text, rounded to the
nearest, writing them without an exponent, and clamping them to a count.
-/

namespace ProofRelay.Decimal

inductive Double
  | nan
  | infinite (isNegative : Bool)
  | finite (isNegative : Bool) (m : Magnitude)
deriving DecidableEq, Repr

namespace Double

def digitsValue (ds : List Char) : Nat := ds.foldl (fun n c => n * 10 + (c.toNat - '0'.toNat)) 0

/-- Takes a sign off the front. -/
def splitSign : List Char → Bool × List Char
  | '-' :: rest => (true, rest)
  | '+' :: rest => (false, rest)
  | cs => (false, cs)

/-- The exponent of a number: nothing, or a mark, an optional sign and digits. -/
def exponent? : List Char → Option Int
  | [] => some 0
  | c :: rest =>
    if c = 'e' ∨ c = 'E' then
      let (isNegative, ds) := splitSign rest
      if ds.isEmpty || !ds.all Char.isDigit then none
      else some (if isNegative then -(digitsValue ds : Int) else digitsValue ds)
    else none

/-- Reads a number after its sign: digits with a point before, between or after them, and an exponent. -/
def magnitude? (cs : List Char) : Option (Nat × Int) :=
  let whole := cs.takeWhile Char.isDigit
  let rest := cs.drop whole.length
  let (part, rest) := match rest with
    | '.' :: rest => let part := rest.takeWhile Char.isDigit
                     (part, rest.drop part.length)
    | _ => ([], rest)
  if whole.isEmpty && part.isEmpty then none
  else (exponent? rest).map fun e => (digitsValue (whole ++ part), e - part.length)

/-- Reads a double. -/
def parse? (s : String) : Option Double :=
  let (isNegative, cs) := splitSign s.toList
  let word := String.ofList (cs.map Char.toLower)
  if word = "nan" then some .nan
  else if word = "inf" || word = "infinity" then some (.infinite isNegative)
  else (magnitude? cs).map fun (digits, e) =>
    match nearestDecimal digits e with
    | some m => .finite isNegative m
    | none => .infinite isNegative

/-- The text of a double. -/
def write : Double → String
  | nan => "NaN"
  | infinite isNegative => if isNegative then "-inf" else "inf"
  | finite isNegative m => (if isNegative then "-" else "") ++ Layout.plain.write m

/-- Whether a double is zero, of either sign. -/
def isZero : Double → Bool
  | finite _ m => m.significand = 0
  | _ => false

def greatestCount : Nat := UInt64.size - 1

/-- The nearest count: a half is rounded away from zero, and what is out of range is moved to the nearer end
of it.  What is not a number counts as zero. -/
def toCount : Double → UInt64
  | nan => 0
  | infinite isNegative => if isNegative then 0 else UInt64.ofNat greatestCount
  | finite isNegative m => if isNegative then 0 else UInt64.ofNat (min m.round greatestCount)

end Double
end ProofRelay.Decimal
