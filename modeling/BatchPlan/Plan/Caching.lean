import BatchPlan.Plan.Estimate
import BatchPlan.Plan.Spools

namespace BatchPlan

namespace Plan

/-- Rebuilds a plan from the bottom up. Where `early` has an answer it stands for the operator and
all below it; elsewhere the inputs are rebuilt from left to right, and then `late` is applied. -/
structure Rebuild (m : Type → Type) where
  early : Plan → m (Option Plan)
  late : Plan → m Plan

section

variable {m : Type → Type} [Monad m]

def Rebuild.step (r : Rebuild m) (p : Plan) (deeper : m Plan) : m Plan := do
  match ← r.early p with
  | some q => return q
  | none => r.late (← deeper)

mutual

def rebuild (r : Rebuild m) : Plan → m Plan
  | .scan s => r.step (.scan s) (pure (.scan s))
  | .consumer producer schema =>
    r.step (.consumer producer schema) (pure (.consumer producer schema))
  | .constant columns rows => r.step (.constant columns rows) (pure (.constant columns rows))
  | .function call => r.step (.function call) (pure (.function call))
  | .filter input predicate => r.step (.filter input predicate) do
    return .filter (← input.rebuild r) predicate
  | .compute input values => r.step (.compute input values) do
    return .compute (← input.rebuild r) values
  | .join left right spec => r.step (.join left right spec) do
    let left ← left.rebuild r
    return .join left (← right.rebuild r) spec
  | .aggregate input spec => r.step (.aggregate input spec) do
    return .aggregate (← input.rebuild r) spec
  | .sort input keys => r.step (.sort input keys) do
    return .sort (← input.rebuild r) keys
  | .segment input partitionBy mark => r.step (.segment input partitionBy mark) do
    return .segment (← input.rebuild r) partitionBy mark
  | .sequence input values => r.step (.sequence input values) do
    return .sequence (← input.rebuild r) values
  | .distinct input columns => r.step (.distinct input columns) do
    return .distinct (← input.rebuild r) columns
  | .top input count percent withTies => r.step (.top input count percent withTies) do
    return .top (← input.rebuild r) count percent withTies
  | .offset input start fetch => r.step (.offset input start fetch) do
    return .offset (← input.rebuild r) start fetch
  | .spool id input kind mode => r.step (.spool id input kind mode) do
    return .spool id (← input.rebuild r) kind mode
  | .concat inputs columns => r.step (.concat inputs columns) do
    return .concat (← rebuildAll r inputs) columns
  | .rename input name columns => r.step (.rename input name columns) do
    return .rename (← input.rebuild r) name columns
  | .assert input predicate message => r.step (.assert input predicate message) do
    return .assert (← input.rebuild r) predicate message

def rebuildAll (r : Rebuild m) : List Plan → m (List Plan)
  | [] => pure []
  | p :: rest => do
    let p ← p.rebuild r
    return p :: (← rebuildAll r rest)

end

end

end Plan

/-- The state is the last spool number in use. Numbers of spools are words. -/
abbrev CacheM := StateT Nat (Except Overflow)

def CacheM.nextSpool : CacheM Nat := fun n =>
  if n + 1 < UInt64.size then .ok (n + 1, n + 1) else .error .spools

/-- When a spool pays: enough outer rows, or few enough rows to keep. -/
structure CachingPolicy where
  estimator : Estimator
  outerRows : UInt64
  innerRows : UInt64
deriving Repr, Inhabited

namespace CachingPolicy

def ofOptions (o : Options) : CachingPolicy where
  estimator := .ofOptions o
  outerRows := o.spoolOuterRows
  innerRows := o.spoolInnerRows

def pays (policy : CachingPolicy) (outerRows innerRows : Float) : Bool :=
  policy.outerRows.toFloat ≤ outerRows || innerRows ≤ policy.innerRows.toFloat

/-- What becomes of an operator of the inner side: constants and spools stay as they are, and an
operator that reads no parameter and no spool is kept in a spool if that pays. -/
def cacheHere (policy : CachingPolicy) (outerRows : Float) (p : Plan) : CacheM (Option Plan) := do
  match p with
  | .constant .. | .consumer .. | .spool .. => return some p
  | _ =>
    if p.isCorrelated || p.readsSpool then return none
    else if policy.pays outerRows (← p.estimate policy.estimator) then
      return some (.spool (← CacheM.nextSpool) p .lazy .table)
    else return some p

/-- Puts the largest parts of an inner side that read nothing of the outer row into spools. -/
def cacheUncorrelated (policy : CachingPolicy) (outerRows : Float) (p : Plan) : CacheM Plan :=
  p.rebuild ⟨policy.cacheHere outerRows, pure⟩

def cacheBelow (policy : CachingPolicy) (p : Plan) : CacheM Plan := do
  match p with
  | .join left right spec =>
    if spec.strategy.bindings.isEmpty then return p
    else
      let right ← policy.cacheUncorrelated (← left.estimate policy.estimator) right
      return .join left right spec
  | _ => return p

def insertSpools (policy : CachingPolicy) (p : Plan) : Except Overflow Plan :=
  (p.rebuild ⟨fun _ => pure none, policy.cacheBelow⟩ : CacheM Plan).run' p.lastSpool

end CachingPolicy

structure PlanPass where
  name : String
  run : Plan → Except Overflow Plan

def PlanPass.spoolInsertion (o : Options) : PlanPass where
  name := "CorrelatedSpoolInsertion"
  run := (CachingPolicy.ofOptions o).insertSpools

def Options.passes (o : Options) : List PlanPass :=
  if o.insertSpools then [.spoolInsertion o] else []

def Plan.improve (passes : List PlanPass) (p : Plan) : Except Overflow Plan :=
  passes.foldlM (fun p pass => pass.run p) p

end BatchPlan
