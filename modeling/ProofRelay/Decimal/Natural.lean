/-!
Natural numbers in decimal digits, up to a greatest one.  A plus sign may stand before the digits.  The digits
are taken one by one, and the first that is none, or that makes the number too large, decides.
-/

namespace ProofRelay.Decimal.Natural

/-- Why a text is not a number. -/
inductive Fault
  | empty
  /-- A character is no digit. -/
  | invalid
  /-- The number is past the greatest one. -/
  | tooLarge
deriving DecidableEq, Repr

/-- What is wrong, in words. -/
def Fault.message : Fault → String
  | empty => "cannot parse integer from empty string"
  | invalid => "invalid digit found in string"
  | tooLarge => "number too large to fit in target type"

/-- Puts a digit behind a number. -/
def takeDigit (greatest n : Nat) (c : Char) : Except Fault Nat :=
  if !c.isDigit then .error .invalid
  else
    let m := n * 10 + (c.toNat - '0'.toNat)
    if m ≤ greatest then .ok m else .error .tooLarge

/-- The number that characters write. -/
def parse (greatest : Nat) : List Char → Except Fault Nat
  | [] => .error .empty
  | ['+'] => .error .invalid
  | '+' :: digits => digits.foldlM (takeDigit greatest) 0
  | digits => digits.foldlM (takeDigit greatest) 0

end ProofRelay.Decimal.Natural
