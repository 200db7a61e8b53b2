import BatchPlan.Binding.Select

namespace BatchPlan

def unlistedKeyMessage : String :=
  "ORDER BY items must appear in the select list if the statement contains a UNION, " ++
    "INTERSECT or EXCEPT operator."

/-- The key of an order over a set operation: a name or a position of the output. -/
def outputKey (outputs : List OutputColumn) (o : Sql.OrderItem Sql.Expr) : Result SortKey := do
  match ← outputOf o.expr outputs with
  | some output => return ⟨output.source, o.direction⟩
  | none => throw (.semantic unlistedKeyMessage)

def QueryTail.apply (t : QueryTail) (bound : BoundQuery) : BindM BoundQuery := do
  t.checkPlacement false
  let keys ← t.orderBy.mapM fun o => outputKey bound.plan.columns o
  let root ← t.limitRows (bound.plan.root.ordered keys)
  return { bound with plan := { bound.plan with root } }

namespace QueryBinder

def bindBody (b : QueryBinder) (body : Sql.SetExpr Sql.Query) (outer : List Level) :
    BindM BoundQuery :=
  match body with
  | .select s => b.select s {} outer
  | .query q => b.query q outer
  | .values _ rows => bindValues rows outer
  | .operation .union quantifier left right =>
    b.unionChain (Sql.SetExpr.operation .union quantifier left right).unionMembers outer
  | .operation op quantifier left right => b.matching op quantifier left right outer
  | .other form => throw (.unsupported form.text)

def bindQuery (b : QueryBinder) (q : Sql.Query) (outer : List Level) : BindM BoundQuery := do
  if q.limit.isSome then throw (.refuse "LIMIT" "Use TOP or OFFSET ... FETCH")
  match q.forClause with
  | some clause => throw (.unsupported clause.text)
  | none => pure ()
  BindM.nested q.ctes do
    let tail := QueryTail.ofQuery q
    match q.body with
    | .select s => b.select s tail outer
    | body => tail.apply (← b.body body outer)

def ofDepth : Nat → QueryBinder
  | 0 =>
    { query := fun _ _ => throw (.internal "queries are nested too deeply")
      body := fun _ _ => throw (.internal "queries are nested too deeply") }
  | depth + 1 =>
    { query := fun q outer => (ofDepth depth).bindQuery q outer
      body := fun e outer => (ofDepth depth).bindBody e outer }

end QueryBinder

end BatchPlan
