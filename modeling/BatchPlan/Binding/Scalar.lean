import BatchPlan.Binding.Scope
import BatchPlan.Binding.TypeName
import BatchPlan.Date

namespace BatchPlan

/-- A number is an integer if it can be, then a decimal, then a float. -/
def Value.ofNumber (text : String) : Result Value :=
  match (digitsBelow? (1 <<< 31) text.toList).map (fun n => Value.int32 n) <|>
      (digitsBelow? (1 <<< 63) text.toList).map (fun n => Value.int64 n) <|>
      (Decimal.ofText? text).map Value.decimal <|> (Binary64.ofText? text).map Value.float64 with
  | some v => .ok v
  | none => .error (.parse ("Invalid number: " ++ text))

def Value.ofLiteral : Sql.Literal → Result Value
  | .number digits _ => Value.ofNumber digits
  | .string s | .national s | .doubleQuoted s => .ok (.text s)
  | .boolean b => .ok (.boolean b)
  | .null => .ok .null
  | other => .error (.unsupported ("literal " ++ other.text))

/-- A string after the name of a type is a text, unless it is a date. -/
def Value.ofTyped (type : Sql.TypeName) (s : String) : Value :=
  match if type.text = "DATE" then Date.ofText? s else none with
  | some d => .date d.daysSinceEpoch
  | none => .text s

/-- A doubled bar joins texts as a plus does. -/
def BinaryOp.ofSql (op : String) : Result BinaryOp :=
  if op = "||" then .ok .add
  else match BinaryOp.ofText? op with
    | some op => .ok op
    | none => .error (.unsupported ("operator " ++ op))

def Scalar.ofUnary (op : Sql.UnaryOp) (e : Scalar) : Result Scalar :=
  match op with
  | .not => .ok (.unary .not e)
  | .minus => .ok (.unary .negate e)
  | .plus => .ok e
  | .factorial => .error (.unsupported "operator !")

def ScalarFunction.ofTrimSide : Option String → ScalarFunction
  | some "LEADING" => .ltrim
  | some "TRAILING" => .rtrim
  | _ => .trim

def Arity.text (a : Arity) : String :=
  match a.most with
  | some m => if m = a.least then toString a.least else toString a.least ++ " to " ++ toString m
  | none => "at least " ++ toString a.least

/-- The scalar function of a call. Aggregates and windowed calls have their own places. -/
def ScalarFunction.ofCall (c : Sql.Call Sql.Expr) : Result ScalarFunction := do
  let name := c.function
  if c.window.isSome then
    throw (.semantic ("Windowed functions can only appear in the SELECT or ORDER BY clauses (" ++
      name ++ ")"))
  if (AggregateFunction.ofName? name).isSome then
    throw (.semantic
      ("An aggregate may not appear in this clause unless it is in a subquery contained in a " ++
        ("HAVING clause or a select list (" ++ name ++ ")")))
  match ScalarFunction.ofName? name with
  | none => throw (.unsupported ("function " ++ name))
  | some f =>
    if f.arity.admits c.exprs.length then return f
    throw (.semantic ("The " ++ name ++ " function requires " ++ f.arity.text ++ " argument(s), " ++
      toString c.exprs.length ++ " given"))

def Scalar.ofDatePart (function : String) : Sql.Expr → Result Scalar
  | .ident name => .ok (.literal (.text (Text.lower name.value)))
  | .literal (.string s) => .ok (.literal (.text (Text.lower s)))
  | e => .error (.semantic ("Invalid parameter 1 specified for " ++ function ++ ": " ++ e.text))

namespace Scope

def bindIdent (s : Scope) (name : Sql.Ident) : BindM Scalar := do
  if name.quote.isNone && name.value.startsWith "@@" then throw (.unsupported name.value)
  if name.quote.isNone && name.value.startsWith "@" then
    let v ← BindM.lookupVariable name.value
    return .var v.name v.dataType
  s.resolve (.bare name.value)

/-- A dotted name: the last part is the column and the one before it the source. -/
def bindCompound (s : Scope) (parts : List Sql.Ident) : BindM Scalar := do
  let text := Sql.ExprOf.text (.compound parts : Sql.Expr)
  match parts.reverse with
  | name :: relation :: _ =>
    if !s.knowsRelation relation.value then
      throw (.semantic ("The multi-part identifier \"" ++ text ++ "\" could not be bound"))
    s.resolve (.qualified relation.value name.value)
  | _ => throw (.parse ("Invalid identifier " ++ text))

def refuseSubquery (e : Sql.Expr) : PlanError :=
  .refuse ("subquery in " ++ e.text) "Subqueries are supported in WHERE, HAVING and the select list"

/-- The value of an expression if it is computed already, or else what a binder makes of it. -/
def orComputed (s : Scope) (e : Sql.Expr) (fresh : BindM Scalar) : BindM Scalar :=
  match s.computed? e with
  | some value => pure value
  | none => fresh

mutual

def bind (s : Scope) (e : Sql.Expr) : BindM Scalar :=
  s.orComputed e <| match e with
    | .ident name => s.bindIdent name
    | .compound parts => s.bindCompound parts
    | .literal value => return .literal (← Value.ofLiteral value)
    | .typed type value => pure (.literal (Value.ofTyped type value))
    | .binary left op right => do
      let left ← s.bind left
      let right ← s.bind right
      return .binary left (← BinaryOp.ofSql op) right
    | .unary op e => do
      let e ← s.bind e
      Scalar.ofUnary op e
    | .nested e => s.bind e
    | .isNull e negated => return .unary (if negated then .isNotNull else .isNull) (← s.bind e)
    | .between e low high negated => do
      let e ← s.bind e
      let low ← s.bind low
      let high ← s.bind high
      return .between e low high negated
    | .inList e items negated => do
      let e ← s.bind e
      return .inList e (← bindList s items) negated
    | .like e pattern form =>
      if form.caseless then throw (.unsupported (Sql.ExprOf.text (.like e pattern form : Sql.Expr)))
      else do
        let e ← s.bind e
        let pattern ← s.bind pattern
        return .binary e (if form.negated then .notLike else .like) pattern
    | .case operand branches otherwise => do
      let operand ← bindOption s operand
      let branches ← bindBranches s branches
      return .case operand branches (← bindOption s otherwise)
    | .cast _ e type _ => do
      let e ← s.bind e
      return .cast e (← DataType.ofName type)
    | .convert _ type e _ => do
      let e ← s.bind e
      return .cast e (← DataType.ofName type)
    | .collate e collation => return .collate (← s.bind e) ⟨collation.text⟩
    | .substring e start length _ => do
      let e ← s.bind e
      let start ← bindOption s start
      let length ← bindOption s length
      return .call .substring [e, start.getD (.int 1), length.getD (.int 2147483647)]
    | .round up e _ => return .call (if up then .ceiling else .floor) [← s.bind e]
    | .trim e side _ => return .call (.ofTrimSide side) [← s.bind e]
    | .call c => bindCall s c
    | .exists query negated => throw (refuseSubquery (.exists query negated))
    | .inQuery e query negated => throw (refuseSubquery (.inQuery e query negated))
    | .subquery query => throw (refuseSubquery (.subquery query))
    | .other form => throw (.unsupported form.text)

def bindList (s : Scope) : List Sql.Expr → BindM (List Scalar)
  | [] => pure []
  | e :: rest => do
    let e ← s.bind e
    return e :: (← bindList s rest)

def bindOption (s : Scope) : Option Sql.Expr → BindM (Option Scalar)
  | none => pure none
  | some e => return some (← s.bind e)

def bindBranches (s : Scope) : List (Sql.Expr × Sql.Expr) → BindM (List (Scalar × Scalar))
  | [] => pure []
  | (condition, result) :: rest => do
    let condition ← s.bind condition
    let result ← s.bind result
    return (condition, result) :: (← bindBranches s rest)

def bindCall (s : Scope) : Sql.Call Sql.Expr → BindM Scalar
  | ⟨name, args, withinGroup, ignoreNulls, window⟩ => do
    let call : Sql.Call Sql.Expr := ⟨name, args, withinGroup, ignoreNulls, window⟩
    let f ← ScalarFunction.ofCall call
    return .call f (← bindArguments s (if f.takesDatePart then some call.function else none) args)

def bindArguments (s : Scope) (datePart : Option String) :
    Sql.Arguments Sql.Expr → BindM (List Scalar)
  | .list _ args _ => bindArgumentList s datePart args
  | .none | .query _ => pure []

def bindArgumentList (s : Scope) (datePart : Option String) :
    List (Sql.Argument Sql.Expr) → BindM (List Scalar)
  | [] => pure []
  | a :: rest => do
    match ← bindArgument s datePart a with
    | some e => return e :: (← bindArgumentList s none rest)
    | none => bindArgumentList s datePart rest

def bindArgument (s : Scope) (datePart : Option String) :
    Sql.Argument Sql.Expr → BindM (Option Scalar)
  | .value _ e => do
    match datePart with
    | some function => return some (← Scalar.ofDatePart function e)
    | none => return some (← s.bind e)
  | .star _ | .tableStar _ _ => pure none

end

end Scope

/-- Fails at a comparison of texts whose collations differ. -/
def Scalar.checkCollations (e : Scalar) (schema : Schema) (base : Collation) : Result Unit :=
  e.parts.forM fun
    | .binary left op right => do
      let bothText := match left.dataType schema, right.dataType schema with
        | .ok l, .ok r => l.isString && r.isString
        | _, _ => false
      if op.isComparison && bothText then
        let l ← left.collationLabel schema base
        discard <| l.comparison (← right.collationLabel schema base)
    | _ => pure ()

namespace Scope

def bindChecked (s : Scope) (e : Sql.Expr) : BindM Scalar := do
  let bound ← s.bind e
  discard <| bound.dataType s.schema
  bound.checkCollations s.schema (← read).options.collation
  return bound

def bindPredicate (s : Scope) (e : Sql.Expr) : BindM Scalar := do
  let bound ← s.bindChecked e
  match ← bound.dataType s.schema with
  | .boolean | .null => return bound
  | _ =>
    throw (.typeMismatch
      ("An expression of non-boolean type specified in a context where a condition is " ++
        ("expected, near '" ++ e.text ++ "'")))

end Scope

/-- The column of a value. A value that is no column yet becomes one by a definition. -/
def Scalar.asColumn (e : Scalar) (schema : Schema) : BindM (Column × Option Definition) := do
  match e with
  | .column c => return (c, none)
  | e =>
    let dataType ← e.dataType schema
    let nullable := e.nullable schema
    let name ← BindM.freshExpr
    return (.bare name, some { name, expr := e, dataType, nullable })

namespace Plan

def define (p : Plan) (values : List Definition) : Plan :=
  if values.isEmpty then p else .compute p values

def withColumn (p : Plan) (e : Scalar) : BindM (Plan × Column) := do
  let (column, definition) ← e.asColumn p.schema
  return (p.define definition.toList, column)

def ordered (p : Plan) (keys : List SortKey) : Plan :=
  if p.schema.isSortedBy keys then p else .sort p keys

/-- The plan with its rows kept, so that reading them again does not run it again. -/
def spooled (p : Plan) : BindM Plan := do
  match p with
  | .constant .. | .spool .. => return p
  | p => return .spool (← BindM.freshSpool) p .eager .table

end Plan

end BatchPlan
