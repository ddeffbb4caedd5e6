import AccessPlan.Config
import AccessPlan.Filter.Equality
import AccessPlan.Proofs.Asking
import AccessPlan.Proofs.Bracketing
import AccessPlan.Proofs.Configuration
import AccessPlan.Proofs.Enforcing
import AccessPlan.Proofs.FirstAnswers
import AccessPlan.Proofs.Grammar
import AccessPlan.Proofs.Indifference
import AccessPlan.Proofs.Literals
import AccessPlan.Proofs.Meaning
import AccessPlan.Proofs.ReadBack
import AccessPlan.Proofs.Rejection
import AccessPlan.Proofs.Rendering
import AccessPlan.Proofs.Replay
import AccessPlan.Proofs.Stacking
import AccessPlan.Proofs.Strictness
import AccessPlan.Proofs.Transparency
import AccessPlan.Proofs.Wire
import AccessPlan.Proofs.Writes
