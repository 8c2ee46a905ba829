import ProofRelay.Prover.Serving
import ProofRelay.Prover.Settings

/-!
The prover as a program.  Its settings come from the environment, and it answers the requests of one connection,
which is its standard input and output.
-/

namespace ProofRelay

/-- The variables of the environment that have a meaning, with their values. -/
def ProverSettings.variables : IO (List (String × String)) :=
  ["ADDR", "PORT", "PROOF_MODE"].filterMapM fun name => do
    return (← IO.getEnv name).map fun value => (name, value)

/-- Answers what was sent on a connection, request by request. -/
partial def Prover.answerAll (p : Prover) (sent : Bytes) (output : IO.FS.Stream) : IO Unit := do
  match p.serve (← IO.monoMsNow) sent with
  | none => return
  | some (bytes, p, rest) =>
    output.write ⟨bytes.toArray⟩
    p.answerAll rest output

end ProofRelay

open ProofRelay

def main : IO UInt32 := do
  match ProverSettings.ofEnvironment (← ProverSettings.variables) with
  | .error fault =>
    IO.eprintln ("Error: " ++ fault.message)
    return 1
  | .ok settings =>
    IO.eprintln ("Prover listening on " ++ settings.listening)
    let input ← (← IO.getStdin).readBinToEnd
    let prover : Prover := { mode := settings.mode }
    prover.answerAll input.toList (← IO.getStdout)
    return 0
