import BatchPlan.Binding.CommonTable

namespace BatchPlan

def ScanSource.ofSchema? : Option String → Option ScanSource
  | none => some .entity
  | some schema => match Text.lower schema with
    | "dbo" => some .entity
    | "bin" => some .recycleBin
    | "archive" => some .archive
    | _ => none

def TempTable.scan (t : TempTable) (relation : String) : Scan where
  entity := t.name
  relation := relation
  source := .tempTable
  columns := t.columns
  primaryKey := none
  rowCount := none

def Attribute.column (a : Attribute) : TableColumn :=
  ⟨a.name, a.dataType, a.nullable, a.collation⟩

def Entity.scan (e : Entity) (source : ScanSource) (relation : String) : Scan where
  entity := e.name
  relation := relation
  source := source
  columns := e.attributes.map Attribute.column
  primaryKey := some e.primaryKey
  rowCount := e.rowCount

def Entity.checkSource (e : Entity) (source : ScanSource) (name : Sql.ObjectName) : Result Unit :=
  match source with
  | .recycleBin =>
    if e.recycleBin then .ok ()
    else .error (.refuse name.dotted ("Recycle bin is not enabled for " ++ e.name))
  | .archive =>
    if e.archive then .ok ()
    else .error (.refuse name.dotted ("Long term retention is not enabled for " ++ e.name))
  | _ => .ok ()

def BindM.tempTable (name : String) : BindM TempTable := do
  let session := (← get).session
  match session.find? name with
  | some table => return table
  | none => throw (.unknownObject name session.names)

def bindStored (name : Sql.ObjectName) (relation : String) : BindM Scan := do
  if Sql.isTemporaryName name.base then
    return (← BindM.tempTable name.base).scan relation
  match ScanSource.ofSchema? name.schema? with
  | none => throw (.unknownObject name.dotted [])
  | some source =>
    let entity ← (← read).catalog.lookup name.base
    entity.checkSource source name
    return entity.scan source relation

def QueryBinder.namedQuery? (b : QueryBinder) (name : Sql.ObjectName) (columns : List String) :
    BindM (Option (QueryPlan × List String)) := do
  if name.parts.length != 1 then return none
  let context ← read
  match context.recursiveReference? name.base, context.cte? name.base with
  | some reference, _ => return some (reference.plan, columns)
  | none, some d => return some (← b.cte d, if columns.isEmpty then d.columns else columns)
  | none, none => return none

def QueryBinder.namedTable (b : QueryBinder) (name : Sql.ObjectName)
    (tableAlias : Option Sql.TableAlias) : BindM Relation := do
  let relation := (tableAlias.map (·.name.value)).getD name.base
  let columns := (tableAlias.map Sql.TableAlias.columnNames).getD []
  match ← b.namedQuery? name columns with
  | some (plan, names) => plan.named relation names
  | none =>
    if !columns.isEmpty then
      throw (.refuse ("column aliases on table " ++ name.text)
        "Alias the columns in the select list instead")
    return ⟨.scan (← bindStored name relation), [relation]⟩

def TableFunction.ofName? : String → Option TableFunction
  | "STRING_SPLIT" => some .stringSplit
  | "GENERATE_SERIES" => some .generateSeries
  | _ => none

def TableFunction.argumentError (f : TableFunction) (type : DataType) : PlanError :=
  .typeMismatch ("Argument data type " ++ type.sqlName ++
    " is invalid for argument of " ++ f.name ++
    " function")

def TableFunction.valueType (f : TableFunction) (types : List DataType) : Result DataType :=
  match f with
  | .stringSplit => do
    if types.length != 2 then
      throw (.semantic "The STRING_SPLIT function requires 2 argument(s)")
    types.forM fun t => if t.isString || t == .null then pure () else throw (f.argumentError t)
    return .utf8
  | .generateSeries => do
    if types.length != 2 && types.length != 3 then
      throw (.semantic "The GENERATE_SERIES function requires 2 to 3 argument(s)")
    types.foldlM (fun soFar t =>
      if t.isNumeric || t == .null then soFar.common t else throw (f.argumentError t)) DataType.null

def bindTableArgument (s : Scope) (function : String) (a : Sql.Argument Sql.Expr) : BindM Scalar :=
  match a with
  | .value none e => s.bindChecked e
  | a => throw (.unsupported ("argument " ++ Sql.argumentText a ++ " of " ++ function))

/-- A call of a table function. Its arguments may read the row of the left side of an APPLY. -/
def bindTableCall (name : Sql.ObjectName) (args : List (Sql.Argument Sql.Expr))
    (tableAlias : Option Sql.TableAlias) (levels : List Level) : BindM Relation := do
  let function := Text.upperAscii name.base
  match TableFunction.ofName? function with
  | none => throw (.unsupported ("table-valued function " ++ name.text))
  | some f =>
    let scope := Scope.ofSchema .empty levels
    let (bound, captured) ← BindM.enclosed (args.mapM (bindTableArgument scope function))
    BindM.absorb captured
    let dataType ← f.valueType (← bound.mapM fun e => e.dataType scope.schema)
    let relation := (tableAlias.map (·.name.value)).getD (Text.lower function)
    return ⟨.function ⟨f, bound, relation, [⟨"value", dataType, f = .stringSplit, none⟩]⟩,
      [relation]⟩

def checkConstraint (constraint : Sql.JoinConstraint) (condition : Option Sql.Expr) :
    Result Unit := do
  if constraint != .plain then throw (.refuse "USING or NATURAL join" "Use an ON clause")
  match condition with
  | some e =>
    if e.containsSubquery then
      throw (.refuse ("subquery in ON clause: " ++ e.text) "Move the subquery to the WHERE clause")
  | none => pure ()

/-- Joins two sources under a condition on both. A right outer join is a left outer join the other
way round. -/
def Relation.joinOn (left right : Relation) (type : JoinType) (condition : Option Sql.Expr)
    (levels : List Level) : BindM Relation := do
  let swap := type = .rightOuter
  let outer := if swap then right.plan else left.plan
  let inner := if swap then left.plan else right.plan
  let predicate ← condition.mapM fun e => do
    let scope := Scope.ofSchema (outer.schema.merge inner.schema) levels
    let (predicate, captured) ← BindM.enclosed (scope.bindPredicate e)
    BindM.absorb captured
    return predicate
  let plan ← outer.joined inner (if swap then .leftOuter else type) predicate
  return ⟨plan, left.tables ++ right.tables⟩

/-- Joins a source to one that runs for each of its rows. A right side that reads nothing of the row
is kept in a spool. -/
def Relation.apply (left right : Relation) (type : JoinType) (captured : List Captured) :
    BindM Relation := do
  let tables := left.tables ++ right.tables
  if captured.isEmpty && !right.plan.isCorrelated then
    return ⟨left.plan.loop (← right.plan.spooled) type [], tables⟩
  return ⟨left.plan.loop right.plan type (captured.map (·.binding)), tables⟩

namespace QueryBinder

def source (b : QueryBinder) (levels : List Level) : Sql.Source Sql.Query → BindM Relation
  | .table name args tableAlias _ => match args with
    | .list _ args _ => bindTableCall name args tableAlias levels
    | _ => b.namedTable name tableAlias
  | .derived _ query tableAlias => do
    match tableAlias with
    | none => throw (.semantic "A derived table must have an alias")
    | some a =>
      let bound ← b.query query levels
      BindM.absorb bound.captured
      bound.plan.named a.name.value a.columnNames
  | .nested inner tableAlias =>
    if tableAlias.isSome then throw (.unsupported "alias on a parenthesized join")
    else b.source levels inner
  | .join left kind right form condition => do
    let left ← b.source levels left
    let applied (type : JoinType) (right : BindM Relation) : BindM Relation := do
      let (right, captured) ← BindM.enclosed right
      left.apply right type captured
    let joined (type : JoinType) (right : BindM Relation) : BindM Relation := do
      checkConstraint form.constraint condition
      left.joinOn (← right) type condition levels
    match kind with
    | .inner => joined .inner (b.source levels right)
    | .left => joined .leftOuter (b.source levels right)
    | .right => joined .rightOuter (b.source levels right)
    | .full => joined .fullOuter (b.source levels right)
    | .cross => left.cross (← b.source levels right)
    | .crossApply => applied .inner (b.source ({ schema := left.plan.schema } :: levels) right)
    | .outerApply => applied .leftOuter (b.source ({ schema := left.plan.schema } :: levels) right)
    | .leftSemi | .rightSemi | .leftAnti | .rightAnti | .nearest _ =>
      throw (.unsupported (kind.shape (form.constraint.shape condition) ++ " join"))
  | .other form => throw (.unsupported form.text)

/-- The sources of a query in all combinations. Without any there is one row without columns. -/
def sources (b : QueryBinder) (levels : List Level) : List (Sql.Source Sql.Query) → BindM Relation
  | [] => return ⟨.oneRow, []⟩
  | first :: rest => do
    rest.foldlM (fun left s => do left.cross (← b.source levels s)) (← b.source levels first)

end QueryBinder

end BatchPlan
