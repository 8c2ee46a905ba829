import ProofRelay.Prover.Basic

/-!
Rehearsals of a prover.  A script sends requests, keeps the bodies of some answers under names and polls or
drops them, and lets time pass.
-/

namespace ProofRelay.Rehearsal

/-- What a script does with a prover. -/
inductive ProverCue
  /-- Sends a request; the body of the answer is kept if it is given a name, else it is read. -/
  | request (method : Http.Method) (path : String) (headers : Http.Headers) (body : Bytes)
      (keep : Option String)
  | poll (name : String)
  | drop (name : String)
  | advance (span : Duration)
  /-- Asks for the requests that were proxied. -/
  | requests
deriving Repr

/-- What comes of it. -/
inductive ProverSight
  | reply (status : Http.Status) (contentType : Option String) (body : Option Bytes)
  /-- What a kept body gave; none if nothing is kept under the name. -/
  | polled (found : Option Polled)
  | dropped (existed : Bool)
  | passed
  | requests (found : List ProxiedRequest)
deriving Repr

/-- A prover on the clock, with the bodies that are kept. -/
structure ProverScene where
  now : Instant := 0
  prover : Prover
  kept : List (String × ReplyBody) := []
deriving Repr

namespace ProverScene

/-- Lets time pass up to a moment, from the end of one retention to that of the next. -/
def advanceTo (target : Instant) (s : ProverScene) : ProverScene :=
  { s with now := target, prover := s.prover.expire target }

/-- Reads a body to its end, or until nothing more comes; `read` is what was read. -/
def readBody (read : Bytes) (body : ReplyBody) : (steps : Nat) → ProverScene → Bytes × ProverScene
  | 0, s => (read, s)
  | steps + 1, s =>
    match s.prover.poll body with
    | (.data bytes, body, prover) => readBody (read ++ bytes) body steps { s with prover }
    | (.finished, _, prover) => (read, { s with prover })
    | (.pending, body, prover) =>
      match s.prover.slots.retained.next? with
      | some t => readBody read body steps (advanceTo (max t s.now) { s with prover })
      | none => (read, { s with prover := prover.dropBody body })

/-- How many times a body is polled at most: once for each end of a retention, for its data and its end. -/
def polls (s : ProverScene) : Nat := s.prover.slots.retained.entries.length + 3

/-- Takes a body that is kept away from the others. -/
def without (name : String) (kept : List (String × ReplyBody)) : List (String × ReplyBody) :=
  kept.filter fun (n, _) => n ≠ name

def follow (s : ProverScene) : ProverCue → ProverScene × ProverSight
  | .request method path headers body keep =>
    let (reply, prover) := s.prover.handle s.now method path headers body
    match keep with
    | none =>
      let (bytes, s) := readBody [] reply.body s.polls { s with prover }
      (s, .reply reply.status reply.contentType (some bytes))
    | some name =>
      let prover := match s.kept.lookup name with
        | some before => prover.dropBody before
        | none => prover
      ({ s with prover, kept := (name, reply.body) :: without name s.kept },
        .reply reply.status reply.contentType none)
  | .poll name =>
    match s.kept.lookup name with
    | none => (s, .polled none)
    | some body =>
      let (polled, body, prover) := s.prover.poll body
      ({ s with prover, kept := (name, body) :: without name s.kept }, .polled (some polled))
  | .drop name =>
    match s.kept.lookup name with
    | none => (s, .dropped false)
    | some body =>
      ({ s with prover := s.prover.dropBody body, kept := without name s.kept }, .dropped true)
  | .advance span => (s.advanceTo (s.now + span), .passed)
  | .requests => (s, .requests s.prover.requests)

end ProverScene

/-- What comes of a script, cue by cue. -/
def proverSights (mode : ProofMode) (cues : List ProverCue) : List ProverSight :=
  (cues.foldl (fun (acc : ProverScene × List ProverSight) cue =>
    let (scene, sight) := acc.1.follow cue
    (scene, acc.2 ++ [sight])) ({ prover := { mode } }, [])).2

end ProofRelay.Rehearsal
