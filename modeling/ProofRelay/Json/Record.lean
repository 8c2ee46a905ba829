import ProofRelay.Json.Reader

/-!
Records of plain fields and their JSON form.  A `Shape` names the fields of a record in order, with their
kinds.  `Shape.read` accepts an object, in which the fields may stand in any order among others that are
skipped, or a list of the fields in order, which may stop early; which fields may be absent is for the
caller to say.  `writeFields` writes the fields in the order given.
-/

namespace ProofRelay.Json

/-- The kinds of plain fields. -/
inductive FieldKind
  | text
  | flag
  | count
deriving DecidableEq, Repr

/-- The value of a plain field. -/
inductive Field
  | text (s : String)
  | flag (b : Bool)
  | count (n : UInt64)
deriving DecidableEq, Repr

/-- The names and kinds of the fields of a record, in order. -/
abbrev Shape := List (String × FieldKind)

/-- The fields found, each name at most once. -/
abbrev Fields := List (String × Field)

/-- The failure of a value that is not of the kind asked for: a scalar is read to its end first. -/
def otherKind (b : UInt8) (rest : Bytes) : Failure :=
  let scalar : Except Failure Unit :=
    match asChar b with
    | 'n' => (word () ['u', 'l', 'l'] rest).map fun _ => ()
    | 't' => (word () ['r', 'u', 'e'] rest).map fun _ => ()
    | 'f' => (word () ['a', 'l', 's', 'e'] rest).map fun _ => ()
    | '-' => (number true rest).map fun _ => ()
    | '"' => (text rest).map fun _ => ()
    | '[' => .ok ()
    | '\x7b' => .ok ()
    | _ =>
      if (digit? b).isSome then (number false (b :: rest)).map fun _ => ()
      else .error .malformed
  match scalar with
  | .ok () => .mistyped
  | .error e => e

def readText : Reader String := fun bs =>
  match skipBlanks bs with
  | [] => .error .truncated
  | b :: rest => if b = 0x22 then text rest else .error (otherKind b rest)

/-- `true` or `false`. -/
def readFlag : Reader Bool := fun bs =>
  match skipBlanks bs with
  | [] => .error .truncated
  | b :: rest =>
    match asChar b with
    | 't' => word true ['r', 'u', 'e'] rest
    | 'f' => word false ['a', 'l', 's', 'e'] rest
    | _ => .error (otherKind b rest)

/-- A whole number below `2 ^ 64`. -/
def readCount : Reader UInt64 := fun bs =>
  match skipBlanks bs with
  | [] => .error .truncated
  | b :: rest =>
    if b = 0x2D ∨ (digit? b).isSome then do
      match ← if b = 0x2D then number true rest else number false (b :: rest) with
      | (.whole n, rest) => .ok (UInt64.ofNat n, rest)
      | _ => .error .mistyped
    else .error (otherKind b rest)

/-- A field of a given kind. -/
def readField (kind : FieldKind) : Reader Field := fun bs =>
  match kind with
  | .text => (readText bs).map fun (s, rest) => (.text s, rest)
  | .flag => (readFlag bs).map fun (b, rest) => (.flag b, rest)
  | .count => (readCount bs).map fun (n, rest) => (.count n, rest)

/-- Reads the entry of an object after its key: a field of the shape, which may stand only once, or a value
that is skipped. -/
def Shape.entry (shape : Shape) (key : String) (found : Fields) : Reader Fields := fun bs =>
  match shape.lookup key with
  | none => do .ok (found, ← skipValue (← colon bs))
  | some kind =>
    if (found.lookup key).isSome then .error .mistyped
    else do
      let (f, rest) ← readField kind (← colon bs)
      .ok (found ++ [(key, f)], rest)

/-- Reads the fields in order from a list, until it ends. -/
def Shape.items (separator : Separator) (found : Fields) : Shape → Reader Fields
  | [], bs =>
    match skipBlanks bs with
    | [] => .error .truncated
    | b :: rest => if b = 0x5D then .ok (found, rest) else .error .malformed
  | (name, kind) :: shape, bs => do
    match ← nextItem 0x5D separator bs with
    | none => .ok (found, (skipBlanks bs).drop 1)
    | some bs =>
      let (f, rest) ← readField kind bs
      Shape.items .comma (found ++ [(name, f)]) shape rest

def Shape.read (shape : Shape) : Reader Fields := fun bs =>
  match skipBlanks bs with
  | [] => .error .truncated
  | b :: rest =>
    match asChar b with
    | '[' => Shape.items .none [] shape rest
    | '\x7b' => entries shape.entry (rest.length + 1) .none [] rest
    | _ => .error (otherKind b rest)

def readTexts : Reader (List String) := fun bs =>
  match skipBlanks bs with
  | [] => .error .truncated
  | b :: rest =>
    if b = 0x5B then items readText (rest.length + 1) .none [] rest
    else .error (otherKind b rest)

/-! ## Writing -/

/-- The text of a field. -/
def Field.write : Field → String
  | .text s => writeText s
  | .flag b => if b then "true" else "false"
  | .count n => toString n.toNat

/-- The text of a record: an object with its fields in the order given. -/
def writeFields (fields : Fields) : String :=
  "\x7b" ++ ",".intercalate (fields.map fun (name, f) => writeText name ++ ":" ++ f.write) ++ "\x7d"

end ProofRelay.Json
