import ProofRelay.Net.IpAddress
import ProofRelay.Prover.Basic

/-!
Where a prover listens and what it does, as the environment says: `ADDR` is an IP address, `PORT` the number of a
socket there, and `PROOF_MODE` what is done with those who wait for proofs.
-/

namespace ProofRelay

structure ProverSettings where
  socket : Net.Socket
  mode : ProofMode
deriving DecidableEq, Repr

/-- Why the environment gives no settings. -/
inductive SettingsFault
  /-- The number of the socket is none. -/
  | number (fault : Decimal.Natural.Fault)
  /-- The address is no IP address. -/
  | host
deriving DecidableEq, Repr

/-- What is wrong, in words. -/
def SettingsFault.message : SettingsFault → String
  | number fault => fault.message
  | host => "invalid IP address"

namespace ProverSettings

/-- The number of the socket if nothing else is said. -/
def defaultNumber : UInt16 := 3000

/-- The address if nothing else is said. -/
def defaultHost : String := "0.0.0.0"

/-- The mode that a word names; any other word means to prove. -/
def modeOf : String → ProofMode
  | "never" => .never
  | "close" => .close
  | "not-found" => .notFound
  | "plain-text" => .plainText
  | _ => .prove

/-- The number that a text writes. -/
def number (text : String) : Except SettingsFault UInt16 :=
  ((Decimal.Natural.parse (UInt16.size - 1) text.toList).map UInt16.ofNat).mapError .number

/-- The settings of an environment; of two values of one name the last counts. -/
def ofEnvironment (vars : List (String × String)) : Except SettingsFault ProverSettings := do
  let value? (name : String) := vars.reverse.lookup name
  let number ← ((value? "PORT").map number).getD (.ok defaultNumber)
  match Net.IpAddress.parse? ((value? "ADDR").getD defaultHost) with
  | some host => .ok { socket := { host, number }, mode := modeOf ((value? "PROOF_MODE").getD "") }
  | none => .error .host

/-- Where the prover listens. -/
def listening (s : ProverSettings) : String := s.socket.write

/-- The address of the prover for clients on its host. -/
def url (s : ProverSettings) : String := "http://" ++ s.socket.reachable.write

end ProverSettings
end ProofRelay
