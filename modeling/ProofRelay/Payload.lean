import ProofRelay.Json.Record

/-!
Proof payloads: the text that a prover pushes for a request.  It is empty if there is no proof, and otherwise a
notary's public key and the proof, with `|` between them; only the first `|` separates.  A payload without one
is a proof with an empty key.
-/

namespace ProofRelay

/-- What a prover pushes. -/
structure Payload where
  raw : String
deriving DecidableEq, Repr

namespace Payload

/-- What stands between the key and the proof. -/
def separator : Char := '|'

def ofParts (key proof : String) : Payload := ⟨key.push separator ++ proof⟩

/-- Whether the prover had no proof. -/
def isEmpty (p : Payload) : Bool := p.raw.isEmpty

/-- The characters before the first separator and those after it; all are after it if there is none. -/
def splitChars (cs : List Char) : List Char × List Char :=
  match cs.dropWhile (· ≠ separator) with
  | [] => ([], cs)
  | _ :: rest => (cs.takeWhile (· ≠ separator), rest)

/-- The key and the proof. -/
def split (p : Payload) : String × String :=
  let (key, proof) := splitChars p.raw.toList
  (String.ofList key, String.ofList proof)

def key (p : Payload) : String := p.split.1

def proof (p : Payload) : String := p.split.2

def write (p : Payload) : String := Json.writeText p.raw

/-- Reads a payload from its JSON text. -/
def parse (bs : Bytes) : Except Json.Failure Payload :=
  Json.document (fun bs => (Json.readText bs).map fun (s, rest) => (⟨s⟩, rest)) bs

end Payload
end ProofRelay
