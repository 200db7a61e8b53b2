import BatchPlan.Sql.Grammar.Source

namespace BatchPlan.Sql.Reader

variable (g : Nested)

def selectItem : Reader (SelectItem Query) := do
  match ← item g with
  | .tableStar table => return .tableStar table
  | .star => return .star
  | .expr (.ident name) =>
    if name.quote.isNone && Text.lower name.value = "from" then
      fail ("Expected an expression, found: " ++ name.value)
    return .expr (.ident name) (← alias? reservedForColumnAlias)
  | .expr (.binary (.ident name) "=" right) => return .expr right (some name)
  | .expr e => return .expr e (← alias? reservedForColumnAlias)

def returning? : Reader (Option (List (SelectItem Query))) := do
  if ← keyword "RETURNING" then return some (← commaSeparated (selectItem g)) else return none

def where? : Reader (Option Expr) := do
  if ← keyword "WHERE" then return some (← expr g) else return none

def assignment : Reader Assignment := do
  let target ← do
    if (← peek) = .symbol "(" then
      pure (AssignmentTarget.tuple (← parenthesized (commaSeparated objectName)))
    else pure (AssignmentTarget.column (← objectName))
  expectSymbol "="
  return ⟨target, ← expr g⟩

def conflictTarget? : Reader (Option Rendered) := do
  if ← keywords ["ON", "CONSTRAINT"] then
    let name ← objectName
    return some ⟨" ON CONSTRAINT " ++ name.text, Shape.tuple "OnConstraint" [name.shape]⟩
  else if (← peek) = .symbol "(" then
    let columns ← columnList
    return some ⟨"(" ++ commas (columns.map Ident.text) ++ ")",
      Shape.tuple "Columns" [identShapes columns]⟩
  else return none

def conflictAction : Reader Rendered := do
  if ← keyword "NOTHING" then return ⟨"DO NOTHING", "DoNothing"⟩
  expectKeywords ["UPDATE", "SET"]
  let assignments ← commaSeparated (assignment g)
  let condition ← where? g
  return ⟨"DO UPDATE SET " ++ commas (assignments.map Assignment.text) ++
      clauseText "WHERE" (condition.map ExprOf.text),
    Shape.tuple "DoUpdate" [Shape.record "DoUpdate" [("assignments", assignmentShapes assignments),
      ("selection", optionShape condition)]]⟩

def onExisting? : Reader (Option Rendered) := do
  if ← keyword "ON" then
    if ← keyword "CONFLICT" then
      let target ← conflictTarget?
      expectKeyword "DO"
      let action ← conflictAction g
      return some ⟨" ON CONFLICT" ++ (target.map Rendered.text).getD "" ++ " " ++ action.text,
        Shape.tuple "OnConflict" [Shape.record "OnConflict"
          [("conflict_target", Shape.option (target.map Rendered.shape)),
            ("action", action.shape)]]⟩
    else
      expectKeywords ["DUPLICATE", "KEY", "UPDATE"]
      let assignments ← commaSeparated (assignment g)
      return some ⟨" ON DUPLICATE KEY UPDATE " ++ commas (assignments.map Assignment.text),
        Shape.tuple "DuplicateKeyUpdate" [assignmentShapes assignments]⟩
  else return none

def insertPartition? : Reader (Option (List Expr)) := do
  if ← keyword "PARTITION" then return some (← parenthesized (commaSeparated (expr g)))
  else return none

def insert : Reader Insert := do
  let overwrite ← keyword "OVERWRITE"
  let into ← keyword "INTO"
  let _ ← keyword "LOCAL"
  let tableWord ← keyword "TABLE"
  let table ← objectName
  let (columns, partition, source) ← do
    if ← keywords ["DEFAULT", "VALUES"] then pure ([], none, none)
    else
      let (columns, partition) ← do
        if (← peek) = .symbol "(" && isKeyword "SELECT" (← peekNth 1) then pure ([], none)
        else
          let columns ← columnList?
          pure (columns, ← insertPartition? g)
      pure (columns, partition, some (← g.query))
  let onExisting ← onExisting? g
  let returning ← returning? g
  let word (present : Bool) (text : String) : String := if present then text else ""
  let text :=
    "INSERT" ++ word overwrite " OVERWRITE" ++ word into " INTO" ++
      word tableWord " TABLE" ++ " " ++ table.text ++ " " ++
      (if columns.isEmpty then "" else "(" ++ commas (columns.map Ident.text) ++ ") ") ++
      (match partition with
        | some parts => "PARTITION (" ++ commas (parts.map ExprOf.text) ++ ") "
        | none => "") ++
      (match source with
        | some q => q.text
        | none => word columns.isEmpty "DEFAULT VALUES") ++
      (onExisting.map Rendered.text).getD "" ++ returningText returning
  let shape := Shape.record "Insert" [("or", "None"), ("ignore", "false"),
    ("into", Shape.truth into),
    ("table_name", table.shape), ("table_alias", "None"), ("columns", identShapes columns),
    ("overwrite", Shape.truth overwrite), ("source", Shape.option (source.map Query.shape)),
    ("partitioned", Shape.option (partition.map listShape)), ("after_columns", "[]"),
    ("table", Shape.truth tableWord), ("on", Shape.option (onExisting.map Rendered.shape)),
    ("returning", returningShape returning), ("replace_into", "false"), ("priority", "None"),
    ("insert_alias", "None")]
  return { table, columns, source, form := ⟨text, shape⟩ }

def update : Reader Update := do
  let table ← g.source
  expectKeyword "SET"
  let assignments ← commaSeparated (assignment g)
  let from_ ← do
    if ← keyword "FROM" then pure (some (← g.source)) else pure none
  let condition ← where? g
  return ⟨table, assignments, from_, condition, ← returning? g⟩

def delete : Reader Delete := do
  let tables ← do
    if ← keyword "FROM" then pure []
    else
      let tables ← commaSeparated objectName
      expectKeyword "FROM"
      pure tables
  let sources ← commaSeparated g.source
  let hasUsing ← keyword "USING"
  if hasUsing then
    let _ ← commaSeparated g.source
  let condition ← where? g
  let _ ← returning? g
  let _ ← orderBy? g
  if ← keyword "LIMIT" then
    unless ← keyword "ALL" do
      let _ ← expr g
  return ⟨tables, sources, hasUsing, condition⟩

end BatchPlan.Sql.Reader
