import ProofRelay.Main
import ProofRelay.Proofs.Config.Endpoints
import ProofRelay.Proofs.Config.LocalProver
import ProofRelay.Proofs.EventStream.Delivery
import ProofRelay.Proofs.EventStream.MediaType
import ProofRelay.Proofs.EventStream.Mending
import ProofRelay.Proofs.EventStream.Truncation
import ProofRelay.Proofs.Exchange.Dispatch
import ProofRelay.Proofs.Exchange.Release
import ProofRelay.Proofs.Exchange.Strictness
import ProofRelay.Proofs.Exchange.Unproven
import ProofRelay.Proofs.Http.Headers
import ProofRelay.Proofs.Json.Objects
import ProofRelay.Proofs.Json.Record
import ProofRelay.Proofs.Json.RoundTrip
import ProofRelay.Proofs.Json.Skipping
import ProofRelay.Proofs.Json.Text
import ProofRelay.Proofs.Json.Tokens
import ProofRelay.Proofs.Network.Correlation
import ProofRelay.Proofs.Prover.Metadata
import ProofRelay.Proofs.Prover.Proxying
import ProofRelay.Proofs.Prover.SingleUse
import ProofRelay.Proofs.Prover.Target
import ProofRelay.Proofs.Request.ContentType
import ProofRelay.Rehearsal.Loopback
import ProofRelay.Rehearsal.Prover
import ProofRelay.Rehearsal.Subscription
