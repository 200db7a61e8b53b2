import BatchPlan.Binding.Rename
import BatchPlan.Sql.References

namespace BatchPlan

structure BoundQuery where
  plan : QueryPlan
  captured : List Captured
deriving Repr, Inhabited

/-- How nested queries are bound, within the queries around them. -/
structure QueryBinder where
  query : Sql.Query → List Level → BindM BoundQuery
  body : Sql.SetExpr Sql.Query → List Level → BindM BoundQuery

def widthMessage : String :=
  "All queries combined using a UNION, INTERSECT or EXCEPT operator must have an equal " ++
    "number of expressions in their target lists."

def widthError : PlanError :=
  .semantic widthMessage

def ConcatColumn.ofSources (sources : List (Schema × Column)) : BindM ConcatColumn := do
  let (dataType, nullable) ← sources.foldlM (fun (soFar : DataType × Bool) (schema, c) => do
    let (_, field) ← schema.resolve c
    return (← soFar.1.common field.dataType, soFar.2 || field.nullable)) (DataType.null, false)
  return { name := ← BindM.freshExpr, dataType, nullable, sources := sources.map (·.2) }

def columnSources (inputs : List (Schema × QueryPlan)) (i : Nat) : List (Schema × Column) :=
  inputs.filterMap fun (schema, p) => p.columns[i]?.map fun c => (schema, c.source)

namespace QueryPlan

/-- The rows of all plans, perhaps without duplicates. The first plan names the columns. -/
def union (plans : List QueryPlan) (distinct : Bool) : BindM QueryPlan := do
  match plans with
  | [] => throw (.internal "UNION without inputs")
  | first :: _ =>
    let width := first.columns.length
    if plans.any fun p => p.columns.length != width then throw widthError
    let inputs := plans.map fun p => (p.schema, p)
    let columns ← (List.range width).mapM fun i => ConcatColumn.ofSources (columnSources inputs i)
    let outputs := (first.columns.zip columns).map fun (output, column) =>
      OutputColumn.mk output.name (.bare column.name)
    let rows := Plan.concat (plans.map (·.root)) columns
    return ⟨if distinct then .distinct rows (outputs.map (·.source)) else rows, outputs⟩

def sameValue (a b : Scalar) : Scalar :=
  (a.eq b).or (a.isNull.and b.isNull)

/-- The distinct left rows that have a match on the right, or those that have none. -/
def matching (left right : QueryPlan) (except : Bool) : BindM QueryPlan := do
  if left.columns.length != right.columns.length then throw widthError
  let relation ← BindM.freshExpr
  let names ← right.columns.mapM fun _ => BindM.freshExpr
  let source ← right.named relation names
  let leftSchema := left.schema
  let rightSchema := source.plan.schema
  let conditions ← (left.columns.zip names).mapM fun (output, name) => do
    let l := Scalar.column output.source
    let r := Scalar.column (.qualified relation name)
    (← l.dataType leftSchema).checkComparable (← r.dataType rightSchema)
    return sameValue l r
  let rows := Plan.distinct left.root (left.columns.map (·.source))
  let right ← source.plan.spooled
  return ⟨.join rows right
    { type := if except then .leftOuter else .inner, strategy := .nestedLoop [], output := .left,
      anti := except, condition := Scalar.conjunction? conditions }, left.columns⟩

end QueryPlan

namespace QueryBinder

/-- A chain of unions. A union that removes duplicates does so for all members before it. -/
def unionChain (b : QueryBinder) (members : List Sql.UnionMember) (outer : List Level) :
    BindM BoundQuery := do
  let (captured, pending) ← members.foldlM (fun (soFar : List Captured × List QueryPlan) m => do
    let bound ← b.body m.body outer
    let captured := soFar.1 ++ bound.captured
    let pending := soFar.2 ++ [bound.plan]
    if m.isDistinct then return (captured, [← QueryPlan.union pending true])
    else return (captured, pending)) ([], [])
  match pending with
  | [plan] => return ⟨plan, captured⟩
  | plans => return ⟨← QueryPlan.union plans false, captured⟩

def matching (b : QueryBinder) (op : Sql.SetOp) (quantifier : Sql.SetQuantifier)
    (left right : Sql.SetExpr Sql.Query) (outer : List Level) : BindM BoundQuery := do
  if quantifier = .all then throw (.unsupported (op.text ++ " ALL"))
  let left ← b.body left outer
  let right ← b.body right outer
  let plan ← left.plan.matching right.plan (op = .except)
  return ⟨plan, left.captured ++ right.captured⟩

end QueryBinder

def bindRow (s : Scope) (row : List Sql.Expr) (columns : List (DataType × Bool)) :
    BindM (List (Scalar × DataType × Bool)) :=
  (row.zip columns).mapM fun (e, type, nullable) => do
    if e.containsSubquery then
      throw (.refuse "subquery in VALUES" "Use SELECT ... UNION ALL SELECT ... instead")
    let bound ← s.bindChecked e
    let type ← type.common (← bound.dataType s.schema)
    return (bound, type, nullable || bound.nullable s.schema)

def bindRows (s : Scope) (rows : List (List Sql.Expr)) :
    BindM (List (List Scalar) × List (DataType × Bool)) :=
  let width := (rows.head?.map List.length).getD 0
  rows.foldlM (fun (soFar : List (List Scalar) × List (DataType × Bool)) row => do
    if row.length != width then
      throw (.semantic "Each row of a table value constructor must have the same number of values")
    let cells ← bindRow s row soFar.2
    return (soFar.1 ++ [cells.map (·.1)], cells.map (·.2))) ([],
      List.replicate width (.null, false))

def bindValues (rows : List (List Sql.Expr)) (outer : List Level) : BindM BoundQuery := do
  let ((rows, types), captured) ← BindM.enclosed (bindRows (.ofSchema .empty outer) rows)
  let columns ← types.mapM fun (dataType, nullable) => do
    return ConstantColumn.mk (← BindM.freshExpr) dataType nullable
  return ⟨⟨.constant columns rows, columns.map fun c => ⟨"", .bare c.name⟩⟩, captured⟩

end BatchPlan
