import BatchPlan.Collation
import BatchPlan.Document
import BatchPlan.Number.Shortest

namespace BatchPlan

def maxRecursionLimit : Nat := 32767

structure Hints where
  maxRecursion : Option Nat := none
  noPerformanceSpool : Bool := false
deriving DecidableEq, Repr, Inhabited

/-- Later hints win over earlier ones; a spool once forbidden stays so. -/
def Hints.merge (first later : Hints) : Hints where
  maxRecursion := later.maxRecursion.or first.maxRecursion
  noPerformanceSpool := first.noPerformanceSpool || later.noPerformanceSpool

structure Options where
  maxRecursion : Nat := 100
  insertSpools : Bool := true
  spoolOuterRows : UInt64 := 100
  spoolInnerRows : UInt64 := 5000
  rowEstimate : UInt64 := 1000
  filterSelectivity : Float := 0.3
  collation : Collation := .default
deriving Repr, Inhabited

namespace Options

def withMaxRecursion (o : Options) (n : Nat) : Options :=
  { o with maxRecursion := n }

def withSpoolInsertion (o : Options) (insertSpools : Bool) : Options :=
  { o with insertSpools }

def withSpoolThresholds (o : Options) (outer inner : UInt64) : Options :=
  { o with spoolOuterRows := outer, spoolInnerRows := inner }

def withRowEstimate (o : Options) (rows : UInt64) : Options :=
  { o with rowEstimate := max rows 1 }

def withCollation (o : Options) (collation : Collation) : Options :=
  { o with collation }

def validate (o : Options) : Result Unit := do
  if maxRecursionLimit < o.maxRecursion then
    throw (.structural ("The default MAXRECURSION " ++ toString o.maxRecursion ++
      " is outside the range 0 to " ++ toString maxRecursionLimit))
  if !(0 ≤ o.filterSelectivity && o.filterSelectivity ≤ 1) then
    throw (.semantic ("Filter selectivity " ++ (Binary64.ofFloat o.filterSelectivity).text ++
      " must be between 0 and 1"))

def fieldNames : List String :=
  ["default_max_recursion", "enable_spool_insertion", "spool_outer_row_threshold",
   "spool_inner_row_threshold", "default_row_estimate", "filter_selectivity", "default_collation"]

def ofDocument? (d : Document) : Option Options := do
  let fields ← d.fields? fieldNames
  let base : Options := {}
  return {
    maxRecursion := ← fields.withDefault "default_max_recursion" (·.toNat? (1 <<< 32))
      base.maxRecursion
    insertSpools := ← fields.withDefault "enable_spool_insertion" (·.toBool?) base.insertSpools
    spoolOuterRows := ← fields.withDefault "spool_outer_row_threshold" (·.toRows?)
      base.spoolOuterRows
    spoolInnerRows := ← fields.withDefault "spool_inner_row_threshold" (·.toRows?)
      base.spoolInnerRows
    rowEstimate := ← fields.withDefault "default_row_estimate" (·.toRows?) base.rowEstimate
    filterSelectivity := ← fields.withDefault "filter_selectivity" (·.toFloat?)
      base.filterSelectivity
    collation := ← fields.withDefault "default_collation" (fun d => d.toText?.map Collation.mk)
      base.collation }

def read (text : String) : Result Options :=
  (Document.read ofDocument? text).mapError PlanError.metadata

def load (text : String) : Result Options := do
  let o ← read text
  o.validate
  return o

end Options

end BatchPlan
