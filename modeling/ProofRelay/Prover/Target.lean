import ProofRelay.Decimal.Natural
import ProofRelay.Http.Status

/-!
The status of a target.  A prover that never calls its targets takes the status from the end of the target's
URL: the number after the last `/status/`, if it is a status, and success if there is none.
-/

namespace ProofRelay.Target

/-- What stands before the number of a status. -/
def marker : List Char := "/status/".toList

/-- What stands after the last occurrence of a mark that is not empty; occurrences may overlap. -/
def afterLast? (mark : List Char) : List Char → Option (List Char)
  | [] => none
  | c :: cs =>
    match afterLast? mark cs with
    | some rest => some rest
    | none => if mark.isPrefixOf (c :: cs) then some ((c :: cs).drop mark.length) else none

/-- The greatest number that is read. -/
def greatestNumber : Nat := 65535

/-- The status that the end of a URL gives, if it gives one. -/
def status? (url : String) : Option Http.Status := do
  let rest ← afterLast? marker url.toList
  let code ← (Decimal.Natural.parse greatestNumber rest).toOption
  Http.Status.ofCode? code

def status (url : String) : Http.Status := (status? url).getD .ok

end ProofRelay.Target
