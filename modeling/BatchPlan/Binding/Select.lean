import BatchPlan.Binding.Windowing

namespace BatchPlan

structure QueryTail where
  orderBy : List (Sql.OrderItem Sql.Expr) := []
  offset : Option Sql.Expr := none
  fetch : Option Sql.Fetch := none

namespace QueryTail

def ofQuery (q : Sql.Query) : QueryTail :=
  ⟨q.orderBy, q.offset, q.fetch⟩

def hasOffset (t : QueryTail) : Bool :=
  t.offset.isSome || t.fetch.isSome

def exprs (t : QueryTail) : List Sql.Expr :=
  t.orderBy.map (·.expr)

def nestedOrderMessage : String :=
  "The ORDER BY clause is invalid in views, inline functions, derived tables, subqueries, " ++
    "and common table expressions, unless TOP, OFFSET or FOR XML is also specified."

/-- A nested query has an order only if it also limits its rows. -/
def checkPlacement (t : QueryTail) (hasTop : Bool) : BindM Unit := do
  if (← read).depth > 1 && !t.orderBy.isEmpty && !hasTop && !t.hasOffset then
    throw (.semantic nestedOrderMessage)

end QueryTail

def Sql.Select.check (s : Sql.Select Sql.Query) : Result Unit := do
  if s.into.isSome then
    throw (.refuse "SELECT INTO" "Use CREATE TABLE #name followed by INSERT INTO #name SELECT ...")
  match s.distinct with
  | some (.on _) => throw (.unsupported "DISTINCT ON")
  | _ => pure ()
  if !s.windows.isEmpty then
    throw (.refuse "WINDOW clause" "Define the window inline in OVER (...)")
  if !s.lateralViews.isEmpty then throw (.unsupported "LATERAL VIEW")
  match s.qualify with
  | some condition => throw (.unsupported ("QUALIFY " ++ condition.text))
  | none => pure ()

def bindRowCount (e : Sql.Expr) (clause : String) : BindM Scalar := do
  let bound ← Scope.empty.bindChecked e
  if (← bound.dataType .empty).isNumeric then return bound
  throw (.typeMismatch ("The number of rows provided for a " ++ clause ++
    " clause must be an integer."))

def Sql.Top.bindCount (t : Sql.Top Sql.Query) : BindM Scalar :=
  match t.bare, t.count with
  | true, .literal (.number digits _) =>
    let n := digitsValue digits.toList
    if n < 1 <<< 63 then pure (.literal (.int64 n))
    else throw (.semantic ("TOP " ++ toString n ++ " is out of range"))
  | _, e => bindRowCount e "TOP"

def Sql.Top.bind (t : Sql.Top Sql.Query) (tail : QueryTail) (plan : Plan) : BindM Plan := do
  if tail.hasOffset then
    throw (.semantic "A TOP can not be used in the same query or sub-query as a OFFSET.")
  if t.withTies && tail.orderBy.isEmpty then
    throw (.semantic
      "The TOP N WITH TIES clause is not allowed without a corresponding ORDER BY clause.")
  return .top plan (← t.bindCount) t.percent t.withTies

def Sql.Fetch.bind (f : Sql.Fetch) : BindM (Option Scalar) := do
  if f.percent || f.withTies then throw (.unsupported f.text)
  f.count.mapM fun n => bindRowCount (.literal n) "FETCH"

def QueryTail.limitRows (t : QueryTail) (plan : Plan) : BindM Plan := do
  if !t.hasOffset then return plan
  match t.offset with
  | none => throw (.refuse "FETCH without OFFSET" "Add OFFSET 0 ROWS before FETCH")
  | some e =>
    let start ← bindRowCount e "OFFSET"
    let fetch ← t.fetch.mapM Sql.Fetch.bind
    return .offset plan start fetch.join

def Sql.Select.limitRows (s : Sql.Select Sql.Query) (tail : QueryTail) (k : Block) :
    BindM Block := do
  match s.top with
  | some top => return k.withPlan (← top.bind tail k.plan)
  | none =>
    if tail.hasOffset && tail.orderBy.isEmpty then
      throw (.semantic "OFFSET and FETCH require an ORDER BY clause")
    return k.withPlan (← tail.limitRows k.plan)

def Sql.ExprOf.outputName : Sql.Expr → String
  | .ident name => name.value
  | .compound parts => (parts.getLast?.map (·.value)).getD ""
  | _ => ""

/-- A column of a star. It has to be one of the block itself. -/
def Scope.bindStarColumn (s : Scope) (relation : String) (f : Field) : BindM OutputColumn := do
  let column := Column.qualified relation f.name
  match ← s.resolve column with
  | .column source => return ⟨f.name, source⟩
  | .outer param type =>
    throw (.internal ("wildcard column " ++ column.text ++
      " resolved to OuterReference \x7b param: \"" ++
      param ++ "\", data_type: " ++ type.text ++ " \x7d"))
  | e => throw (.internal ("wildcard column " ++ column.text ++ " resolved to " ++ e.text))

/-- The columns that the star of a source stands for. After grouping each has to be a key. -/
def Scope.bindStar (s : Scope) (relation : String) : BindM (List OutputColumn) :=
  (s.starSchema.visibleFields (some relation)).mapM (s.bindStarColumn relation)

def Scope.bindItem (s : Scope) : Sql.SelectItem Sql.Query →
    BindM (List Definition × List OutputColumn)
  | .star => do
    if s.tables.isEmpty then throw (.semantic "Must specify table to select from.")
    return ([], (← s.tables.mapM s.bindStar).flatten)
  | .tableStar table => do
    if !s.starSchema.hasRelation table.base then
      throw (.semantic ("The column prefix '" ++ table.text ++
        "' does not match with a table name or alias name used in the query."))
    return ([], ← s.bindStar table.base)
  | .expr e name => do
    let (source, definition) ← (← s.bindChecked e).asColumn s.schema
    return (definition.toList, [⟨(name.map (·.value)).getD e.outputName, source⟩])

def Scope.bindItems (s : Scope) (items : List (Sql.SelectItem Sql.Query)) :
    BindM (List Definition × List OutputColumn) := do
  let bound ← items.mapM s.bindItem
  return (bound.flatMap (·.1), bound.flatMap (·.2))

def outputByName (e : Sql.Expr) (outputs : List OutputColumn) : Result (Option OutputColumn) :=
  match e with
  | .ident name => match outputs.filter fun o => Text.sameAscii o.name name.value with
    | [] => .ok none
    | first :: rest =>
      if rest.any fun o => o.source != first.source then .error (.ambiguousColumn name.value)
      else .ok (some first)
  | _ => .ok none

def outputByPosition (e : Sql.Expr) (outputs : List OutputColumn) : Result (Option OutputColumn) :=
  match e with
  | .literal (.number digits _) =>
    match (digitsBelow? (1 <<< 64) digits.toList).bind fun n =>
      if n = 0 then none else outputs[n - 1]? with
    | some output => .ok (some output)
    | none => .error (.semantic ("The ORDER BY position number " ++ digits ++
        " is out of range of the number of items in the select list."))
  | _ => .ok none

def outputOf (e : Sql.Expr) (outputs : List OutputColumn) : Result (Option OutputColumn) := do
  match ← outputByName e outputs with
  | some output => return some output
  | none => outputByPosition e outputs

def distinctOrderError : PlanError :=
  .semantic "ORDER BY items must appear in the select list if SELECT DISTINCT is specified."

/-- A key of the order: an output column, or any other value of the block. Distinct rows are ordered
by output columns only. -/
def Scope.bindSortKey (s : Scope) (outputs : List OutputColumn) (distinct : Bool)
    (o : Sql.OrderItem Sql.Expr) : BindM (SortKey × Option Definition) := do
  match ← outputOf o.expr outputs with
  | some output => return (⟨output.source, o.direction⟩, none)
  | none =>
    let bound ← try s.bindChecked o.expr
      catch e => if distinct then throw distinctOrderError else throw e
    let (column, definition) ← bound.asColumn s.schema
    if distinct && (definition.isSome || !outputs.any fun output => output.source == column) then
      throw distinctOrderError
    return (⟨column, o.direction⟩, definition)

def Block.orderBy (k : Block) (items : List (Sql.OrderItem Sql.Expr)) (outputs : List OutputColumn)
    (distinct : Bool) : BindM Block := do
  let keys ← items.mapM (k.scope.bindSortKey outputs distinct)
  return k.withPlan ((k.plan.define (keys.filterMap (·.2))).ordered (keys.map (·.1)))

/-- Is an item of the order read from the select list? -/
def Sql.Select.names (s : Sql.Select Sql.Query) (e : Sql.Expr) : Bool :=
  match e with
  | .literal (.number ..) => true
  | .ident name => s.items.any fun
    | .expr e given => Text.sameAscii ((given.map (·.value)).getD e.outputName) name.value
    | _ => false
  | _ => false

/-- Looks for faults in the order when there is no output to order by. Subqueries and windows were
looked at before. -/
def Sql.Select.checkOrder (s : Sql.Select Sql.Query) (items : List (Sql.OrderItem Sql.Expr))
    (scope : Scope) : BindM Unit :=
  items.forM fun o => do
    if !s.names o.expr && (Sql.windowCalls [o.expr]).isEmpty && !o.expr.containsSubquery then
      discard <| scope.bindChecked o.expr

structure Progress where
  block : Block
  log : ErrorLog := default
deriving Repr, Inhabited

def attempt {α : Type} (act : BindM α) : BindM (Result α) :=
  try return .ok (← act) catch e => return .error e

def Progress.record (p : Progress) : Result Block → Progress
  | .ok k => { p with block := k.withPlan k.plan }
  | .error e => { p with log := p.log.push e }

def Progress.extend (p : Progress) (clause : Block → BindM Block) : BindM Progress := do
  return p.record (← attempt (clause p.block))

/-- Gives up, after a look at the limit on rows. -/
def Progress.abandon {α : Type} (p : Progress) (s : Sql.Select Sql.Query) (tail : QueryTail) :
    BindM α := do
  let p ← p.extend (s.limitRows tail)
  throw p.log.toError

namespace QueryBinder

def restrict (b : QueryBinder) (condition : Sql.Expr) (k : Block) : BindM Block := do
  let k ← b.subqueries [condition] k
  return k.withPlan (.filter k.plan (← k.scope.bindPredicate condition))

def aggregateConditionMessage : String :=
  "An aggregate may not appear in the WHERE clause unless it is in a subquery contained in a " ++
    "HAVING clause or a select list, and the column being aggregated is an outer reference."

def whereClause (b : QueryBinder) (condition : Sql.Expr) (k : Block) : BindM Block := do
  if !(Sql.aggregateCalls [condition]).isEmpty then
    throw (.semantic aggregateConditionMessage)
  b.restrict condition k

def start (b : QueryBinder) (s : Sql.Select Sql.Query) (outer : List Level) : BindM Block := do
  let scope := Scope.ofSchema .empty outer
  let source ← b.sources scope.levels s.sources
  return ⟨source.plan, { scope with schema := source.plan.schema, tables := source.tables }⟩

def grouping (b : QueryBinder) (s : Sql.Select Sql.Query) (tail : QueryTail) (p : Progress) :
    BindM Progress := do
  if !(← s.groups tail.exprs) then return p
  match ← attempt (p.block.group s.groupBy (s.aggregates tail.exprs)) with
  | .error e => (p.record (.error e)).abandon s tail
  | .ok k =>
    let p := p.record (.ok k)
    match s.having with
    | some condition => p.extend (b.restrict condition)
    | none => return p

def project (p : Progress) (s : Sql.Select Sql.Query) (tail : QueryTail) :
    BindM (Progress × List OutputColumn) := do
  match ← attempt (p.block.scope.bindItems s.items) with
  | .ok (values, outputs) =>
    return ({ p with block := p.block.withPlan (p.block.plan.define values) }, outputs)
  | .error e =>
    let p := { p with log := p.log.push e }
    let checked ← attempt (s.checkOrder tail.orderBy p.block.scope)
    { p with log := p.log.check checked : Progress }.abandon s tail

def distinctColumns (outputs : List OutputColumn) : List Column :=
  outputs.foldl (fun columns o =>
    if columns.contains o.source then columns else columns ++ [o.source]) []

def filtering (b : QueryBinder) (s : Sql.Select Sql.Query) (p : Progress) : BindM Progress :=
  match s.condition with
  | some condition => p.extend (b.whereClause condition)
  | none => pure p

def deduplicated (p : Progress) (outputs : List OutputColumn) (distinct : Bool) : Progress :=
  if distinct then
    { p with block := p.block.withPlan (.distinct p.block.plan (distinctColumns outputs)) }
  else p

def ordering (p : Progress) (tail : QueryTail) (outputs : List OutputColumn) (distinct : Bool) :
    BindM Progress :=
  if tail.orderBy.isEmpty then pure p
  else p.extend fun k => k.orderBy tail.orderBy outputs distinct

def block (b : QueryBinder) (s : Sql.Select Sql.Query) (tail : QueryTail) (outer : List Level) :
    BindM QueryPlan := do
  let p ← b.filtering s { block := ← b.start s outer }
  let p ← b.grouping s tail p
  let es := s.exprs ++ tail.exprs
  let p ← p.extend (b.subqueries es)
  let p ← p.extend fun k => k.windows es
  let (p, outputs) ← project p s tail
  let distinct := s.distinct.any Sql.Distinct.isRows
  let p ← ordering (deduplicated p outputs distinct) tail outputs distinct
  let p ← p.extend (s.limitRows tail)
  p.log.finish
  return ⟨p.block.plan, outputs⟩

def select (b : QueryBinder) (s : Sql.Select Sql.Query) (tail : QueryTail) (outer : List Level) :
    BindM BoundQuery := do
  s.check
  tail.checkPlacement s.top.isSome
  let (plan, captured) ← BindM.enclosed (b.block s tail outer)
  return ⟨plan, captured⟩

end QueryBinder

end BatchPlan
