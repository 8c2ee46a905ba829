import ProofRelay.Json.Record

/-!
What a prover tells of its notary, and its JSON form.
-/

namespace ProofRelay

/-- The answer of a prover about its notary. -/
structure NotaryInfo where
  /-- The version of the prover. -/
  version : String
  publicKey : String
  /-- The commit from which the prover was built. -/
  gitCommitHash : String
  /-- The time of that commit. -/
  gitCommitTimestamp : String
deriving DecidableEq, Repr

namespace NotaryInfo

/-- The fields, all of them needed. -/
def shape : Json.Shape :=
  [("version", .text), ("publicKey", .text), ("gitCommitHash", .text), ("gitCommitTimestamp", .text)]

/-- The fields in order. -/
def fields (i : NotaryInfo) : Json.Fields :=
  [("version", .text i.version), ("publicKey", .text i.publicKey),
   ("gitCommitHash", .text i.gitCommitHash), ("gitCommitTimestamp", .text i.gitCommitTimestamp)]

/-- The answer with the fields that were found, if none is missing. -/
def ofFields? (found : Json.Fields) : Option NotaryInfo := do
  let text (name : String) : Option String :=
    match found.lookup name with
    | some (.text s) => some s
    | _ => none
  return ⟨← text "version", ← text "publicKey", ← text "gitCommitHash", ← text "gitCommitTimestamp"⟩

/-- The JSON text. -/
def write (i : NotaryInfo) : String := Json.writeFields i.fields

/-- Reads the JSON form. -/
def reader : Json.Reader NotaryInfo := fun bs => do
  let (found, rest) ← shape.read bs
  match ofFields? found with
  | some i => .ok (i, rest)
  | none => .error .mistyped

/-- Reads the JSON text. -/
def parse (bs : Bytes) : Except Json.Failure NotaryInfo := Json.document reader bs

end NotaryInfo
end ProofRelay
