import BatchPlan.Options
import BatchPlan.Plan.Schema

namespace BatchPlan

/-- The counts that can go beyond a word. -/
inductive Overflow where
  | rows
  | spools
deriving DecidableEq, Repr, Inhabited

structure Estimator where
  tableRows : UInt64
  selectivity : Float
  groupRatio : Float := 0.1
deriving Repr, Inhabited

def Estimator.ofOptions (o : Options) : Estimator where
  tableRows := o.rowEstimate
  selectivity := o.filterSelectivity

namespace Plan

def literalCount? : Scalar → Option UInt64
  | .literal v => v.int?.bind fun n => if 0 ≤ n then some n.toNat.toUInt64 else none
  | _ => none

/-- Does a condition fix the key to a value that does not depend on the row? -/
def pinsKey (schema : Schema) : Scalar → Bool
  | .binary left .eq right => pins left right || pins right left
  | _ => false
where
  pins (key value : Scalar) : Bool :=
    key.column?.any schema.isPrimaryKey && value.columns.isEmpty

/-- Adds to a count of rows, if the sum is a word. -/
def addRows (sum rows : UInt64) : Except Overflow UInt64 :=
  if sum.toNat + rows.toNat < UInt64.size then .ok (sum + rows) else .error .rows

mutual

/-- A bound on the number of rows. -/
def maxRows : Plan → Except Overflow (Option UInt64)
  | .constant _ rows => .ok (some rows.length.toUInt64)
  | .aggregate input spec => if spec.groupBy.isEmpty then .ok (some 1) else input.maxRows
  | .top input count percent withTies =>
    if percent || withTies then .ok none
    else match literalCount? count with
      | some n => input.maxRows.map fun most => some ((most.map (min · n)).getD n)
      | none => .ok none
  | .offset input _ fetch =>
    match fetch.bind literalCount? with
    | some n => .ok (some n)
    | none => input.maxRows
  | .filter input predicate =>
    if predicate.conjuncts.any (pinsKey input.schema) then .ok (some 1) else input.maxRows
  | .join left _ spec => if spec.isSemi then left.maxRows else .ok none
  | .concat inputs _ => sumMaxRows 0 inputs
  | .compute input _ | .sort input _ | .rename input _ _ | .distinct input _ | .assert input _ _
  | .segment input _ _ | .sequence input _ => input.maxRows
  | .scan _ | .spool .. | .consumer .. | .function _ => .ok none

/-- The sum of the bounds up to the first plan without one. -/
def sumMaxRows (sum : UInt64) : List Plan → Except Overflow (Option UInt64)
  | [] => .ok (some sum)
  | p :: rest => do
    match ← p.maxRows with
    | some n => sumMaxRows (← addRows sum n) rest
    | none => return none

end

/-- The larger of two numbers; a number that is undefined counts as none. -/
def larger (x y : Float) : Float :=
  if x.isNaN then y else if x < y then y else x

mutual

def estimate (est : Estimator) (p : Plan) : Except Overflow Float := do
  match ← p.maxRows with
  | some n => return n.toFloat
  | none => match p with
    | .scan s => return (s.rowCount.getD est.tableRows).toFloat
    | .filter input _ => return (← input.estimate est) * est.selectivity
    | .join left right spec =>
      let l ← left.estimate est
      let r ← right.estimate est
      if spec.isSemi then return l
      else match spec.strategy with
        | .merge .. | .hash .. => return larger l r
        | .nestedLoop _ =>
          return if spec.condition.isSome then larger (l * r * est.selectivity) l else l * r
    | .aggregate input _ => return larger ((← input.estimate est) * est.groupRatio) 1
    | .distinct input _ => return larger ((← input.estimate est) * 0.8) 1
    | .concat inputs _ => sumEstimates est 0 inputs
    | .constant _ rows => return rows.length.toUInt64.toFloat
    | .function _ | .consumer .. => return est.tableRows.toFloat
    | .compute input _ | .sort input _ | .segment input _ _ | .sequence input _
    | .top input _ _ _ | .offset input _ _ | .spool _ input _ _ | .rename input _ _
    | .assert input _ _ => input.estimate est

def sumEstimates (est : Estimator) (soFar : Float) : List Plan → Except Overflow Float
  | [] => .ok soFar
  | p :: rest => do sumEstimates est (soFar + (← p.estimate est)) rest

end

end Plan

end BatchPlan
