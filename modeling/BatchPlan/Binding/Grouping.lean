import BatchPlan.Binding.Subquery

namespace BatchPlan

namespace Sql.Select

def exprs (s : Select Query) : List Expr :=
  s.items.filterMap fun
    | .expr e _ => some e
    | _ => none

def groups (s : Select Query) (order : List Expr) : Result Bool :=
  if s.groupByAll then .error (.unsupported "GROUP BY ALL")
  else .ok (!s.groupBy.isEmpty || s.having.isSome || !(aggregateCalls (s.exprs ++ order)).isEmpty)

def aggregates (s : Select Query) (order : List Expr) : List (Call Expr) :=
  aggregateCalls (s.exprs ++ s.having.toList ++ order)

end Sql.Select

def Sql.hasAggregate (e : Sql.Expr) : Bool :=
  !(Sql.aggregateCalls [e]).isEmpty || e.containsSubquery

/-- What grouping needs of its input so far: columns to compute, and the order within groups, with
its text. -/
structure GroupInput where
  hoisted : List Definition := []
  withinGroup : Option (String × List SortKey) := none
deriving Repr, Inhabited

def GroupInput.keys (g : GroupInput) : List SortKey :=
  (g.withinGroup.map (·.2)).getD []

/-- The keys of groups, and those that are found by the text of their expression. -/
structure GroupKeys where
  columns : List Column := []
  computed : List (String × Scalar) := []
  hoisted : List Definition := []
deriving Repr, Inhabited

def aggregateKeyMessage : String :=
  "Cannot use an aggregate or a subquery in an expression used for the group by list of a " ++
    "GROUP BY clause."

def GroupKeys.add (s : Scope) (input : Schema) (g : GroupKeys) (e : Sql.Expr) :
    BindM GroupKeys := do
  if Sql.hasAggregate e then
    throw (.semantic aggregateKeyMessage)
  let bound ← s.bindChecked e
  let (column, definition) ← bound.asColumn input
  let columns := if g.columns.contains column then g.columns else g.columns ++ [column]
  match definition with
  | some d =>
    return {
      columns, computed := g.computed ++ [(e.key, .column column)], hoisted := g.hoisted ++ [d] }
  | none => return { g with columns }

def AggregateFunction.ofCall (c : Sql.Call Sql.Expr) : Result AggregateFunction :=
  match AggregateFunction.ofName? c.function with
  | some .count => .ok (if c.hasStar then .countStar else .count)
  | some f => .ok f
  | none => .error (.unsupported ("aggregate " ++ c.function))

def AggregateFunction.arity : AggregateFunction → Nat
  | .countStar => 0
  | .stringAgg => 2
  | _ => 1

def AggregateFunction.checkArgument (f : AggregateFunction) (name : String)
    (type : Option DataType) : Result Unit :=
  match f, type with
  | .sum, some t | .avg, some t =>
    if t.isNumeric || t == .null then .ok ()
    else .error (.typeMismatch ("Operand data type " ++ t.sqlName ++ " is invalid for " ++
      Text.lower name ++ " operator."))
  | _, _ => .ok ()

def Sql.OrderItem.direction {E : Type} (o : Sql.OrderItem E) : SortDirection :=
  if o.descends then .desc else .asc

def Scope.bindOrder (s : Scope) (schema : Schema) (items : List (Sql.OrderItem Sql.Expr)) :
    BindM (List SortKey × List Definition) := do
  let bound ← items.mapM fun o => do
    let e ← s.bindChecked o.expr
    let (column, definition) ← e.asColumn schema
    return (SortKey.mk column o.direction, definition)
  return (bound.map (·.1), bound.filterMap (·.2))

/-- The order within groups that a call asks for. All calls have to ask for the same one. -/
def mixedOrdersMessage : String :=
  "Multiple ordered aggregate functions in the same scope have mutually incompatible " ++
    "orderings."

def GroupInput.order (s : Scope) (g : GroupInput) (f : AggregateFunction) (c : Sql.Call Sql.Expr) :
    BindM GroupInput := do
  if c.withinGroup.isEmpty then return g
  if f != .stringAgg then
    throw (.semantic ("The function '" ++ c.function ++ "' may not have a WITHIN GROUP clause."))
  let text := ", ".intercalate (c.withinGroup.map fun o => Text.lower (Sql.orderText o))
  let (keys, definitions) ← s.bindOrder s.schema c.withinGroup
  let g := { g with hoisted := g.hoisted ++ definitions }
  match g.withinGroup with
  | none => return { g with withinGroup := some (text, keys) }
  | some (other, _) =>
    if other = text then return g
    throw (.semantic mixedOrdersMessage)

def nestedAggregateMessage : String :=
  "Cannot perform an aggregate function on an expression containing an aggregate or a " ++
    "subquery."

def GroupInput.aggregate (s : Scope) (g : GroupInput) (c : Sql.Call Sql.Expr) :
    BindM (AggregateValue × GroupInput) := do
  let name := c.function
  let f ← AggregateFunction.ofCall c
  if c.exprs.any Sql.hasAggregate then
    throw (.semantic nestedAggregateMessage)
  if c.exprs.length != f.arity then
    throw (.semantic ("The " ++ name ++ " function requires " ++ toString (max f.arity 1) ++
      " argument(s)"))
  let args ← c.exprs.mapM s.bindChecked
  let type ← args.head?.mapM fun e => e.dataType s.schema
  f.checkArgument name type
  let g ← g.order s f c
  let value : AggregateValue :=
    { name := ← BindM.freshExpr, function := f, args, distinct := c.isDistinct,
      withinGroup := if f = .stringAgg then g.keys else [], dataType := f.resultType type }
  return (value, g)

def GroupInput.aggregates (s : Scope) (g : GroupInput) :
    List (Sql.Call Sql.Expr) → BindM (List (String × AggregateValue) × GroupInput)
  | [] => return ([], g)
  | c :: rest => do
    let (value, g) ← g.aggregate s c
    let (values, g) ← g.aggregates s rest
    return ((Sql.ExprOf.key (.call c), value) :: values, g)

def Plan.grouped (p : Plan) (keys : List Column) (within : List SortKey)
    (values : List AggregateValue) : Plan :=
  let groupKeys := keys.map fun c => SortKey.mk c .asc
  if within.isEmpty then
    let strategy : AggregateStrategy :=
      if keys.isEmpty || p.schema.isSortedBy groupKeys then .stream else .hash
    .aggregate p { strategy, groupBy := keys, values }
  else .aggregate (p.ordered (groupKeys ++ within)) { strategy := .stream, groupBy := keys, values }

def Block.group (k : Block) (groupBy : List Sql.Expr) (calls : List (Sql.Call Sql.Expr)) :
    BindM Block := do
  let input := k.plan.schema
  let keys ← groupBy.foldlM (GroupKeys.add k.scope input) {}
  let (values, g) ← ({ hoisted := keys.hoisted } : GroupInput).aggregates k.scope calls
  let plan := (k.plan.define g.hoisted).grouped keys.columns g.keys (values.map (·.2))
  let found := keys.computed ++ values.map fun (key, v) => (key, Scalar.column (.bare v.name))
  let scope := found.foldl (fun s (key, value) => s.addComputed key value) k.scope
  return ⟨plan, { scope with preAggregate := some k.scope.schema, schema := plan.schema }⟩

end BatchPlan
