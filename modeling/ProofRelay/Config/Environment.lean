import ProofRelay.Config.Basic
import ProofRelay.Decimal.Double

/-!
The configuration of a client from environment variables.  A variable whose name begins with `VERITY_`, in any
case of letters, sets the field named by the rest of it.  Two underscores begin the name of a part inside the
field, and no field of a configuration has parts.  A value is typed by its look (`Setting.ofText`) and then
converted to the kind of its field.
-/

namespace ProofRelay.Config.Environment

/-- The variables, in the order in which they were set. -/
abbrev Variables := List (String × String)

/-- A value with the type that it looks like. -/
inductive Setting
  | flag (b : Bool)
  | integer (i : Int)
  | double (d : Decimal.Double)
  | text (s : String)
  /-- A value with parts. -/
  | parts
deriving DecidableEq, Repr

/-- One past the greatest whole number, and the distance of the least one from zero: sixty-four bits hold them. -/
def integerLimit : Nat := UInt64.size / 2

/-- Reads a whole number within the limits. -/
def integer? (s : String) : Option Int :=
  let (isNegative, ds) := Decimal.Double.splitSign s.toList
  if ds.isEmpty || !ds.all Char.isDigit then none
  else
    let n := Decimal.Double.digitsValue ds
    if isNegative then if n ≤ integerLimit then some (-n) else none
    else if n < integerLimit then some n else none

namespace Setting

/-- A flag if the text is `true` or `false` in any case of letters, else a number if it is one. -/
def ofText (s : String) : Setting :=
  match s.map Char.toLower, integer? s, Decimal.Double.parse? s with
  | "true", _, _ => .flag true
  | "false", _, _ => .flag false
  | _, some i, _ => .integer i
  | _, none, some d => .double d
  | _, none, none => .text s

/-- The flag that a word stands for. -/
def wordFlag? (s : String) : Option Bool :=
  match s.map Char.toLower with
  | "true" | "on" | "yes" => some true
  | "false" | "off" | "no" => some false
  | _ => none

/-- As a text: flags and numbers are written. -/
def text? : Setting → Option String
  | flag b => some (if b then "true" else "false")
  | integer i => some (toString i)
  | double d => some d.write
  | text s => some s
  | parts => none

/-- As a flag: a number is true unless it is zero. -/
def flag? : Setting → Option Bool
  | flag b => some b
  | integer i => some (i ≠ 0)
  | double d => some !d.isZero
  | text s => wordFlag? s
  | parts => none

/-- As a count: a negative whole number is none, any other number is moved into range. -/
def count? : Setting → Option UInt64
  | flag b => some (if b then 1 else 0)
  | integer i => if i < 0 then none else some (UInt64.ofNat i.toNat)
  | double d => some d.toCount
  | text s => (wordFlag? s).map fun b => if b then 1 else 0
  | parts => none

end Setting

/-- What names of variables begin with. -/
def mark : String := "verity_"

/-- Puts a point in place of each two underscores. -/
def pointed : List Char → List Char
  | '_' :: '_' :: rest => '.' :: pointed rest
  | c :: rest => c :: pointed rest
  | [] => []

/-- A letter in lower case.  The Kelvin sign is the one letter beyond ASCII whose lower case is in ASCII. -/
def lowered (c : Char) : Char := if c = '\u212A' then 'k' else c.toLower

/-- The path that a variable sets, if it sets one. -/
def path? (name : String) : Option (List Char) :=
  let cs := name.toList.map lowered
  if mark.toList.isPrefixOf cs then some (pointed (cs.drop mark.length)) else none

/-- Whether a character may stand in the name of a part. -/
def isPartChar (c : Char) : Bool := c.isAlphanum || c = '_' || c = '-' || c = ' '

def dropBlanks (cs : List Char) : List Char := cs.dropWhile fun c => c = ' ' || c = '\t'

/-- Takes a number that counts parts, with blanks around it, off the front; a negative one counts from the
end. -/
def afterIndex? (cs : List Char) : Option (List Char) :=
  let (isNegative, ds) := match dropBlanks cs with
    | '-' :: ds => (true, ds)
    | ds => (false, ds)
  let index := ds.takeWhile Char.isDigit
  let limit := if isNegative then integerLimit + 1 else integerLimit
  if !index.isEmpty && Decimal.Double.digitsValue index < limit then
    some (dropBlanks (ds.drop index.length))
  else none

/-- Whether what follows the name of a field in a path names a part of it: names after points and numbers in
brackets, at least one of them. -/
def namesPart (steps : Nat) (cs : List Char) : Bool :=
  match steps, cs with
  | 0, _ => false
  | steps + 1, '.' :: rest =>
    let name := rest.takeWhile isPartChar
    let rest := rest.drop name.length
    !name.isEmpty && (rest.isEmpty || namesPart steps rest)
  | steps + 1, '[' :: rest =>
    match afterIndex? rest with
    | some (']' :: rest) => rest.isEmpty || namesPart steps rest
    | _ => false
  | _, _ => false

/-- The last setting of a field. -/
def setting? (vars : Variables) (field : String) : Option Setting :=
  vars.foldl (fun found (name, value) =>
    match path? name with
    | none => found
    | some path =>
      if path = field.toList then some (.ofText value)
      else if field.toList.isPrefixOf path && namesPart path.length (path.drop field.length) then
        some .parts
      else found) none

def failure : ClientError := ⟨.configuration, some .environment⟩

/-- Converts the setting of a field, if there is one. -/
def converted (convert : Setting → Option α) (s : Option Setting) : Except ClientError (Option α) :=
  match s with
  | none => .ok none
  | some s =>
    match convert s with
    | none => .error failure
    | some x => .ok (some x)

/-- The draft of the fields that are set. -/
def draft (vars : Variables) : Except ClientError Draft := do
  let proverUrl ← converted Setting.text? (setting? vars "prover_url")
  let throwOnError ← converted Setting.flag? (setting? vars "throw_on_error")
  let proofTimeoutMs ← converted Setting.count? (setting? vars "proof_timeout_ms")
  let gateTimeoutMs ← converted Setting.count? (setting? vars "gate_timeout_ms")
  return { proverUrl, throwOnError, proofTimeoutMs, gateTimeoutMs }

end Environment

open Environment

/-- The configuration that the environment describes. -/
def ofEnvironment (vars : Variables) : Except ClientError Config := do
  match (← draft vars).fill? with
  | none => .error failure
  | some c =>
    checkUrl c.proverUrl
    return c

/-- The prover of a client that was not told of one. -/
def localProverUrl : String := "http://127.0.0.1:8080"

/-- The variable that says where the prover is. -/
def proverUrlVariable : String := "VERITY_PROVER_URL"

/-- The configuration of the environment if it says where the prover is, and that of a local prover with
nothing else set if it does not. -/
def ofEnvironmentOrLocal (vars : Variables) : Except ClientError Config :=
  if (vars.lookup proverUrlVariable).isSome then ofEnvironment vars
  else Draft.build { proverUrl := some localProverUrl }

end ProofRelay.Config
