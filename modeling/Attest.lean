import Attest.Blueprint
import Attest.FailurePool
import Attest.Pipeline
import Attest.Routine
import Attest.Proofs.Built
import Attest.Proofs.Canonical
import Attest.Proofs.Choice
import Attest.Proofs.Completion
import Attest.Proofs.Concurrency
import Attest.Proofs.Defaults
import Attest.Proofs.Deferral
import Attest.Proofs.Filling
import Attest.Proofs.Formats
import Attest.Proofs.Freshness
import Attest.Proofs.Grammar
import Attest.Proofs.Idempotence
import Attest.Proofs.Integers
import Attest.Proofs.Location
import Attest.Proofs.Membership
import Attest.Proofs.Naming
import Attest.Proofs.Numerals
import Attest.Proofs.Ordering
import Attest.Proofs.Pipelines
import Attest.Proofs.Refusals
import Attest.Proofs.Repathing
import Attest.Proofs.Settlement
import Attest.Proofs.Shelf
import Attest.Proofs.Substitution
import Attest.Proofs.Totality
import Attest.Proofs.Trails
import Attest.Proofs.Transforms
import Attest.Proofs.Unfolding
