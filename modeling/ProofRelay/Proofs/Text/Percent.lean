import ProofRelay.Proofs.Text.Utf8
import ProofRelay.Text.Percent

/-!
Texts without percent signs, which stand for themselves.
-/

namespace ProofRelay.Text.Percent

end ProofRelay.Text.Percent
