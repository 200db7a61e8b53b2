import BatchPlan.Proofs.Addressing.Matching
import BatchPlan.Proofs.Addressing.Records
import BatchPlan.Proofs.Addressing.Star
import BatchPlan.Proofs.Caching.Freshness
import BatchPlan.Proofs.Correlation.Chains
import BatchPlan.Proofs.Counting.Bounds
import BatchPlan.Proofs.Declaration.Programs
import BatchPlan.Proofs.Failure.Placement
import BatchPlan.Proofs.Failure.Session
import BatchPlan.Proofs.Flow.Clauses
import BatchPlan.Proofs.Flow.Compilation
import BatchPlan.Proofs.Flow.Jumps
import BatchPlan.Proofs.Framing.Ranking
import BatchPlan.Proofs.Framing.Totals
import BatchPlan.Proofs.Joining.Guarantees
import BatchPlan.Proofs.Meaning.Differences
import BatchPlan.Proofs.Meaning.Negation
import BatchPlan.Proofs.Naming.Suggestions
import BatchPlan.Proofs.Recursion.Anchors
import BatchPlan.Proofs.Recursion.Bounds
import BatchPlan.Proofs.Schedule.Places
import BatchPlan.Proofs.Scoping.References
import BatchPlan.Proofs.Scoping.Shadowing
import BatchPlan.Proofs.Scoping.Surroundings
import BatchPlan.Proofs.Substitution.Standing
import BatchPlan.Proofs.Typing.Collations
import BatchPlan.Proofs.Typing.Common
import BatchPlan.Proofs.Typing.Decimals
import BatchPlan.Proofs.Typing.Precedence
import BatchPlan.Proofs.Typing.Programs
import BatchPlan.Proofs.WellFormed.Sorted
