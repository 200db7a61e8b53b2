import BatchPlan.Binding.Value

namespace BatchPlan

/-- A table that rows go into: its name and the names and types of its columns. -/
structure InsertTarget where
  name : String
  columns : List (String × DataType)
deriving DecidableEq, Repr, Inhabited

def InsertTarget.find (name : String) : BindM InsertTarget := do
  if Sql.isTemporaryName name then
    let table ← BindM.tempTable name
    return ⟨table.name, table.columns.map fun c => (c.name, c.dataType)⟩
  else
    let entity ← (← read).catalog.lookup name
    return ⟨entity.name, entity.attributes.map fun a => (a.name, a.dataType)⟩

def repeatedTargetError (column statement : String) : PlanError :=
  .semantic ("The column name '" ++ column ++
    "' is specified more than once in the SET clause or column list of an " ++
    statement ++ ".")

def InsertTarget.choose (t : InsertTarget) (seen : List String) :
    List Sql.Ident → Result (List (String × DataType))
  | [] => .ok []
  | c :: rest => do
    match t.columns.find? fun (name, _) => Text.sameAscii name c.value with
    | none => throw (.columnNotFound c.value)
    | some (name, type) =>
      if seen.contains (Text.lower name) then throw (repeatedTargetError name "INSERT")
      return (name, type) :: (← t.choose (Text.lower name :: seen) rest)

/-- The columns that an INSERT sets. Only temporary tables can do without a list. -/
def InsertTarget.listed (t : InsertTarget) (name : String) (columns : List Sql.Ident) :
    Result (List (String × DataType)) :=
  if !columns.isEmpty then t.choose [] columns
  else if Sql.isTemporaryName name then .ok t.columns
  else .error (.refuse ("INSERT INTO " ++ name ++ " without a column list")
    "List the columns to insert")

def insertWidthError (columns values : Nat) : PlanError :=
  .semantic ("There are " ++ (if columns > values then "more" else "fewer") ++
    " columns in the INSERT statement than values specified in the VALUES clause. The number " ++
    "of values in the VALUES clause must match the number of columns specified in the INSERT " ++
    "statement.")

def QueryBinder.insert (b : QueryBinder) (hints : Hints) (i : Sql.Insert) : BindM RootNode := do
  let name := i.table.base
  let target ← InsertTarget.find name
  let columns ← target.listed name i.columns
  match i.source with
  | none => throw (.unsupported "INSERT ... DEFAULT VALUES")
  | some query =>
    let plan := (← b.query query []).plan
    if plan.columns.length != columns.length then
      throw (insertWidthError columns.length plan.columns.length)
    let schema := plan.schema
    (plan.columns.zip columns).forM fun (output, _, type) => do
      type.checkAssignable (← schema.resolve output.source).2.dataType
    return .insert target.name (columns.map (·.1)) (← plan.finish hints)

/-- The rows of an entity that a statement changes, and the key by which they are found. -/
structure ChangedRows where
  block : Block
  entity : String
  primaryKey : String
  key : Column
deriving Repr, Inhabited

def singleTable (s : Sql.Source Sql.Query) (statement : String) :
    Result (Sql.ObjectName × Option Sql.TableAlias) :=
  match s with
  | .join .. => .error (.refuse (statement ++ " with joins") "Use a subquery in the WHERE clause")
  | .table name .none tableAlias _ => .ok (name, tableAlias)
  | s => .error (.unsupported (statement ++ " " ++ s.text))

def QueryBinder.changedRows (b : QueryBinder) (s : Sql.Source Sql.Query)
    (condition : Option Sql.Expr) (statement : String) : BindM ChangedRows := do
  let (name, tableAlias) ← singleTable s statement
  if Sql.isTemporaryName name.base then
    throw (.unsupported (statement ++ " of temporary table " ++ name.text))
  let source ← b.namedTable name tableAlias
  match source.plan with
  | .scan scan =>
    match scan.primaryKey with
    | none => throw (.internal (scan.entity ++ " has no primary key"))
    | some primaryKey =>
      let k : Block := ⟨source.plan, { schema := source.plan.schema, tables := source.tables }⟩
      let k ← match condition with
        | some condition => b.restrict condition k
        | none => pure k
      return ⟨k, scan.entity, primaryKey, .qualified scan.relation primaryKey⟩
  | _ => throw (.unsupported (statement ++ " " ++ name.text))

/-- The attributes that an UPDATE sets, each at most once and never the key. -/
def updateTargets (entity : Entity) (seen : List String) :
    List Sql.Assignment → Result (List Attribute)
  | [] => .ok []
  | a :: rest => do
    match a.target with
    | .tuple names =>
      throw (.unsupported ("UPDATE SET " ++ (Sql.AssignmentTarget.tuple names).text))
    | .column name =>
      match entity.attribute? name.base with
      | none => throw (.columnNotFound name.base)
      | some attr =>
        if Text.sameAscii attr.name entity.primaryKey then
          throw (.semantic ("Cannot update primary key column '" ++ attr.name ++ "'"))
        if seen.contains (Text.lower attr.name) then throw (repeatedTargetError attr.name "UPDATE")
        return attr :: (← updateTargets entity (Text.lower attr.name :: seen) rest)

def Scope.bindAssignment (s : Scope) (e : Sql.Expr) (target : Attribute) :
    BindM (OutputColumn × Option Definition) := do
  let bound ← s.bindChecked e
  target.dataType.checkAssignable (← bound.dataType s.schema)
  let (source, definition) ← bound.asColumn s.schema
  return (⟨target.name, source⟩, definition)

def QueryBinder.update (b : QueryBinder) (hints : Hints) (u : Sql.Update) : BindM RootNode := do
  if u.source.isSome then throw (.refuse "UPDATE ... FROM" "Use a subquery in the WHERE clause")
  if u.returning.isSome then throw (.unsupported "UPDATE ... RETURNING")
  let rows ← b.changedRows u.table u.condition "UPDATE"
  let entity ← (← read).catalog.lookup rows.entity
  let targets ← updateTargets entity [] u.assignments
  let values := u.assignments.map (·.value)
  let k ← b.subqueries values rows.block
  let bound ← (values.zip targets).mapM fun (e, target) => k.scope.bindAssignment e target
  let plan : QueryPlan :=
    ⟨k.plan.define (bound.filterMap (·.2)), ⟨entity.primaryKey, rows.key⟩ :: bound.map (·.1)⟩
  return .update rows.entity entity.primaryKey (targets.map (·.name)) (← plan.finish hints)

def QueryBinder.delete (b : QueryBinder) (hints : Hints) (d : Sql.Delete) : BindM RootNode := do
  if !d.tables.isEmpty || d.hasUsing then
    throw (.refuse "DELETE with multiple tables" "Use a subquery in the WHERE clause")
  match d.sources with
  | [table] =>
    let rows ← b.changedRows table d.condition "DELETE"
    let plan : QueryPlan := ⟨rows.block.plan, [⟨rows.primaryKey, rows.key⟩]⟩
    return .delete rows.entity rows.primaryKey (← plan.finish hints)
  | _ => throw (.refuse "DELETE from multiple tables" "Use a subquery in the WHERE clause")

def tableColumns (seen : List String) : List Sql.ColumnDef → Result (List TableColumn)
  | [] => .ok []
  | c :: rest => do
    let name := c.name.value
    if seen.contains (Text.lower name) then throw (.duplicate "column" name)
    let column : TableColumn :=
      ⟨name, ← DataType.ofName c.type, !c.notNull, c.collation.map fun n => ⟨n.text⟩⟩
    return column :: (← tableColumns (Text.lower name :: seen) rest)

def createTable (c : Sql.CreateTable) : BindM RootNode := do
  let name := c.name.base
  if !Sql.isTemporaryName name || c.name.parts.length > 1 then
    throw (.refuse ("CREATE TABLE " ++ c.name.text) "Only temporary tables (#name) can be created")
  if c.hasQuery then
    throw (.refuse "CREATE TABLE ... AS SELECT" "Create the table, then INSERT INTO ... SELECT")
  if ((← get).session.find? name).isSome then
    throw (.semantic ("There is already an object named '" ++ name ++ "' in the database."))
  let columns ← tableColumns [] c.columns
  modify fun s => { s with session := s.session.create ⟨name, columns⟩ }
  return .createTable name columns

/-- Removes tables one after the other; those before a missing one stay removed. -/
def dropTables (ifExists : Bool) : List Sql.ObjectName → BindM (List RootNode)
  | [] => return []
  | object :: rest => do
    let name := object.base
    if !Sql.isTemporaryName name then
      throw (.refuse ("DROP TABLE " ++ object.text) "Only temporary tables (#name) can be dropped")
    let session := (← get).session
    match session.find? name with
    | some table =>
      modify fun s => { s with session := s.session.drop table.name }
      return .dropTable table.name :: (← dropTables ifExists rest)
    | none =>
      if ifExists then dropTables ifExists rest
      else throw (.unknownObject name session.names)

def QueryBinder.statement (b : QueryBinder) (hints : Hints) : Sql.Statement → BindM (List RootNode)
  | .query q => do return [.select (← (← b.query q []).plan.finish hints)]
  | .insert i => return [← b.insert hints i]
  | .update u => return [← b.update hints u]
  | .delete d => return [← b.delete hints d]
  | .createTable c => return [← createTable c]
  | .drop d =>
    if d.kind = "TABLE" then dropTables d.ifExists d.names
    else throw (.unsupported ("DROP " ++ d.kind))
  | .other headline => throw (.unsupported headline)

end BatchPlan
