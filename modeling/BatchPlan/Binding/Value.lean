import BatchPlan.Binding.Query
import BatchPlan.Plan.Caching

namespace BatchPlan

/-- Improves a plan, unless a hint forbids it, and checks that its spools are read after they are
filled. -/
def QueryPlan.finish (q : QueryPlan) (hints : Hints) : BindM QueryPlan := do
  let passes := (← read).options.passes
  let root ← BindM.counted q.root
    (if hints.noPerformanceSpool then .ok q.root else q.root.improve passes)
  root.validateSpools
  return { q with root }

def QueryPlan.valueType (q : QueryPlan) : Result DataType := do
  match q.columns with
  | [] => throw (.internal "scalar plan without a column")
  | c :: _ => return (← q.schema.resolve c.source).2.dataType

def DataType.checkAssignable (target source : DataType) : Result Unit :=
  if source = .null || target = source then .ok ()
  else match target.common source with
    | .ok _ => .ok ()
    | .error _ => .error (.typeMismatch ("Operand type clash: " ++ source.sqlName ++
        " is incompatible with " ++ target.sqlName))

namespace QueryBinder

/-- A plan of one row with the value of an expression, in which `bind` binds what remains once the
subqueries are joined. -/
def valuePlan (b : QueryBinder) (e : Sql.Expr) (bind : Scope → Sql.Expr → BindM Scalar) :
    BindM QueryPlan := do
  let k ← b.subqueries [e] ⟨.oneRow, .empty⟩
  let (plan, source) ← k.plan.withColumn (← bind (k.withPlan k.plan).scope e)
  QueryPlan.finish ⟨plan, [⟨"", source⟩]⟩ {}

def value (b : QueryBinder) (e : Sql.Expr) : BindM QueryPlan :=
  b.valuePlan e Scope.bindChecked

def condition (b : QueryBinder) (e : Sql.Expr) : BindM QueryPlan :=
  b.valuePlan e Scope.bindPredicate

def assignedValue (b : QueryBinder) (target : DataType) (e : Sql.Expr) : BindM QueryPlan := do
  let plan ← b.value e
  target.checkAssignable (← plan.valueType)
  return plan

end QueryBinder

def bindThrowArgument (name : String) (numeric : Bool) (e : Sql.Expr) :
    BindM (OutputColumn × Option Definition) := do
  let bound ← Scope.empty.bindChecked e
  let type ← bound.dataType .empty
  if type != .null && !(if numeric then type.isNumeric else type.isString) then
    throw (.typeMismatch ("The " ++ name ++ " argument of THROW cannot be of type " ++
      type.sqlName))
  let (source, definition) ← bound.asColumn .empty
  return (⟨name, source⟩, definition)

def bindThrow (args : Sql.ThrowArguments) : BindM QueryPlan := do
  let number ← bindThrowArgument "number" true args.number
  let message ← bindThrowArgument "message" false args.message
  let state ← bindThrowArgument "state" true args.state
  let bound := [number, message, state]
  return ⟨.compute .oneRow (bound.filterMap (·.2)), bound.map (·.1)⟩

end BatchPlan
