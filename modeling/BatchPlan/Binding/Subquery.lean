import BatchPlan.Binding.Source
import BatchPlan.Plan.Estimate

namespace BatchPlan

structure Block where
  plan : Plan
  scope : Scope
deriving Repr, Inhabited

def Block.withPlan (k : Block) (plan : Plan) : Block :=
  ⟨plan, k.scope.withSchema plan.schema⟩

structure InnerQuery where
  root : Plan
  column : Option Column
  captured : List Captured
  correlated : Bool
deriving Repr, Inhabited

namespace InnerQuery

def ofBound (q : BoundQuery) : InnerQuery where
  root := q.plan.root
  column := (q.plan.columns.head?).map (·.source)
  captured := q.captured
  correlated := !q.captured.isEmpty || q.plan.root.isCorrelated

def severalColumnsMessage : String :=
  "Only one expression can be specified in the select list when the subquery is not " ++
    "introduced with EXISTS."

def ofSingle (q : BoundQuery) : Result InnerQuery :=
  if q.plan.columns.length = 1 then .ok (ofBound q)
  else .error (.semantic severalColumnsMessage)

def value (q : InnerQuery) : Result Column :=
  match q.column with
  | some c => .ok c
  | none => .error (.internal "subquery without output column")

/-- Joins a subquery to a plan: each row once, with values of the first row that matches. -/
def joinTo (q : InnerQuery) (left : Plan) (condition : Option Scalar)
    (definitions : List Definition) : BindM Plan := do
  let right ← if q.correlated then pure q.root else q.root.spooled
  let outer := if q.correlated then q.captured.map (·.binding) else []
  return .join left right
    { type := .leftOuter, strategy := .nestedLoop outer, output := .left, condition, definitions }

end InnerQuery

def foundFlag (name : String) : Definition where
  name := name
  expr := .int 1
  dataType := .int32

def AggregateValue.rowCount (name : String) : AggregateValue where
  name := name
  function := .countStar
  dataType := AggregateFunction.countStar.resultType none

def AggregateValue.valueCount (name : String) (column : Column) : AggregateValue where
  name := name
  function := .count
  args := [.column column]
  dataType := AggregateFunction.count.resultType none

def Plan.summary (p : Plan) (values : List AggregateValue) : Plan :=
  .aggregate p { strategy := .stream, groupBy := [], values }

namespace QueryBinder

/-- EXISTS: a flag that is set where the subquery has a row. -/
def exists_ (b : QueryBinder) (query : Sql.Query) (negated : Bool) (k : Block) :
    BindM (Plan × Scalar) := do
  let inner := InnerQuery.ofBound (← b.query query k.scope.levels)
  let inner := { inner with root := .top inner.root (.int 1) false false }
  let flag ← BindM.freshExpr
  let plan ← inner.joinTo k.plan none [foundFlag flag]
  let flag := Scalar.column (.bare flag)
  return (plan, if negated then flag.isNull else flag.isNotNull)

def membership (inner : InnerQuery) (plan : Plan) (outerColumn innerColumn : Column)
    (definitions : List Definition) : BindM Plan := do
  if inner.correlated then
    inner.joinTo plan (some ((Scalar.column outerColumn).eq (.column innerColumn))) definitions
  else if inner.root.schema.isPrimaryKey innerColumn then
    return .join (plan.ordered [⟨outerColumn, .asc⟩]) (inner.root.ordered [⟨innerColumn, .asc⟩])
      { type := .leftOuter, strategy := .merge outerColumn innerColumn,
        output := .left, definitions }
  else
    return .join plan (.distinct inner.root [innerColumn])
      { type := .leftOuter, strategy := .hash outerColumn innerColumn,
        output := .left, definitions }

/-- NOT IN where NULLs may occur: it holds if the value was not found and either there are no rows,
or neither the rows nor the value are NULL. The rows are counted by the subquery once more. -/
def notInWithNulls (b : QueryBinder) (query : Sql.Query) (k : Block) (plan : Plan)
    (outerColumn : Column) (flag : Scalar) : BindM (Plan × Scalar) := do
  let probe := InnerQuery.ofBound (← b.query query k.scope.levels)
  let column ← probe.value
  let rows ← BindM.freshExpr
  let values ← BindM.freshExpr
  let counts := probe.root.summary [.rowCount rows, .valueCount values column]
  let rowsOut ← BindM.freshExpr
  let valuesOut ← BindM.freshExpr
  let plan ← { probe with root := counts : InnerQuery }.joinTo plan none
    [{ name := rowsOut, expr := .column (.bare rows), dataType := .int32 },
     { name := valuesOut, expr := .column (.bare values), dataType := .int32 }]
  let rows := Scalar.column (.bare rowsOut)
  let noNulls := ((Scalar.column (.bare valuesOut)).eq rows).and
    (Scalar.column outerColumn).isNotNull
  return (plan, flag.isNull.and ((rows.eq (.int 0)).or noNulls))

structure Flagged where
  plan : Plan
  column : Column
  flag : Scalar
  /-- Can the value or one of the subquery be NULL? -/
  mayBeNull : Bool
deriving Repr, Inhabited

def flagged (b : QueryBinder) (e : Sql.Expr) (query : Sql.Query) (k : Block) : BindM Flagged := do
  let e ← k.scope.bindChecked e
  let inner ← InnerQuery.ofSingle (← b.query query k.scope.levels)
  let innerColumn ← inner.value
  let outerSchema := k.plan.schema
  let innerSchema := inner.root.schema
  discard <| e.dataType outerSchema
  let (_, innerField) ← innerSchema.resolve innerColumn
  e.checkMatch outerSchema (.column innerColumn) innerSchema (← read).options.collation
  let (plan, outerColumn) ← k.plan.withColumn e
  let name ← BindM.freshExpr
  let plan ← membership inner plan outerColumn innerColumn [foundFlag name]
  return ⟨plan, outerColumn, .column (.bare name), innerField.nullable || e.nullable outerSchema⟩

/-- IN: whether the value is among those of the subquery. -/
def in_ (b : QueryBinder) (e : Sql.Expr) (query : Sql.Query) (negated : Bool) (k : Block) :
    BindM (Plan × Scalar) := do
  let found ← b.flagged e query k
  if !negated then return (found.plan, found.flag.isNotNull)
  if !found.mayBeNull then return (found.plan, found.flag.isNull)
  b.notInWithNulls query k found.plan found.column found.flag

def multipleValuesMessage : String :=
  "Subquery returned more than 1 value. This is not permitted when the subquery follows =, " ++
  "!=, <, <= , >, >= or when the subquery is used as an expression."

def firstValue (inner : InnerQuery) (column : Column) (dataType : DataType) :
    BindM (InnerQuery × Column) := do
  let first ← BindM.freshExpr
  let count ← BindM.freshExpr
  let summary := (Plan.top inner.root (.int 2) false false).summary
    [{ name := first, function := .first, args := [.column column], dataType }, .rowCount count]
  let root := Plan.assert summary ((Scalar.column (.bare count)).ltEq (.int 1))
    multipleValuesMessage
  return ({ inner with root }, .bare first)

def scalar (b : QueryBinder) (query : Sql.Query) (k : Block) : BindM (Plan × Scalar) := do
  let inner ← InnerQuery.ofSingle (← b.query query k.scope.levels)
  let column ← inner.value
  let (_, field) ← inner.root.schema.resolve column
  let most ← BindM.counted none inner.root.maxRows
  let (inner, column) ←
    if most.any (· ≤ 1) then pure (inner, column)
    else firstValue inner column field.dataType
  let name ← BindM.freshExpr
  let plan ← inner.joinTo k.plan none
    [{ name, expr := .column column, dataType := field.dataType }]
  return (plan, .column (.bare name))

def subquery (b : QueryBinder) (k : Block) (e : Sql.Expr) : BindM Block := do
  if (k.scope.computed? e).isSome then return k
  let lowered ← match e with
    | .exists query negated => some <$> b.exists_ query negated k
    | .inQuery e query negated => some <$> b.in_ e query negated k
    | .subquery query => some <$> b.scalar query k
    | _ => pure none
  match lowered with
  | some (plan, value) => return ⟨plan, (k.scope.withSchema plan.schema).addComputed e.key value⟩
  | none => return k

def subqueries (b : QueryBinder) (es : List Sql.Expr) (k : Block) : BindM Block :=
  (es.flatMap (·.outermost Sql.ExprOf.isSubquery)).foldlM b.subquery k

end QueryBinder

end BatchPlan
