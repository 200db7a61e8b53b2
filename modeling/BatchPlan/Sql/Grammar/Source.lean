import BatchPlan.Sql.Grammar.Expr

namespace BatchPlan.Sql.Reader

variable (g : Nested)

def aliased (item : Reader Expr) : Reader Rendered := do
  let e ← item
  let name ← do
    if ← keyword "AS" then pure (some (← identifier)) else pure none
  return ⟨e.text ++ clauseText "AS" (name.map Ident.text),
    Shape.record "ExprWithAlias" [("expr", e.shape),
      ("alias", Shape.option (name.map Ident.shape))]⟩

def pivotValues : Reader Rendered := do
  if ← keyword "ANY" then
    let order ← orderBy? g
    return ⟨if order.isEmpty then "ANY" else "ANY ORDER BY " ++ commas (order.map orderText),
      Shape.tuple "Any" [Shape.list (order.map orderShape)]⟩
  else if ← peekQuery then
    let q ← g.query
    return ⟨q.text, Shape.tuple "Subquery" [q.shape]⟩
  else
    let items ← commaSeparated (aliased (expr g))
    return ⟨commas (items.map Rendered.text),
      Shape.tuple "List" [Shape.list (items.map Rendered.shape)]⟩

def pivot (table : Source Query) : Reader (Source Query) := do
  let (aggregates, column, values, fallback) ← parenthesized do
    let aggregates ← commaSeparated <| aliased do
      match ← next with
      | .word value _ => return ExprOf.call (← call g ⟨[⟨value, none⟩]⟩)
      | _ => fail "Expected: a function identifier"
    expectKeyword "FOR"
    let column ← objectName
    expectKeyword "IN"
    let values ← parenthesized (pivotValues g)
    let fallback ← do
      if ← keywords ["DEFAULT", "ON", "NULL"] then pure (some (← parenthesized (expr g)))
      else pure none
    return (aggregates, column, values, fallback)
  let tableAlias ← tableAlias?
  let fallbackText := match fallback with
    | some e => " DEFAULT ON NULL (" ++ e.text ++ ")"
    | none => ""
  return .other
    ⟨table.text ++ " PIVOT(" ++ commas (aggregates.map Rendered.text) ++ " FOR " ++ column.text ++
        " IN (" ++ values.text ++ ")" ++ fallbackText ++ ")" ++ aliasText tableAlias,
      Shape.record "Pivot" [("table", table.tableShape),
        ("aggregate_functions", Shape.list (aggregates.map Rendered.shape)),
        ("value_column", identShapes column.parts), ("value_source", values.shape),
        ("default_on_null", optionShape fallback), ("alias", aliasShape tableAlias)]⟩

def unpivot (table : Source Query) : Reader (Source Query) := do
  let (value, name, columns) ← parenthesized do
    let value ← identifier
    expectKeyword "FOR"
    let name ← identifier
    expectKeyword "IN"
    return (value, name, ← columnList)
  let tableAlias ← tableAlias?
  return .other
    ⟨table.text ++ " UNPIVOT(" ++ value.text ++ " FOR " ++ name.text ++ " IN (" ++
        commas (columns.map Ident.text) ++ "))" ++ aliasText tableAlias,
      Shape.record "Unpivot" [("table", table.tableShape), ("value", value.shape),
        ("name", name.shape), ("columns", identShapes columns), ("alias", aliasShape tableAlias)]⟩

def pivots (table : Source Query) : Reader (Source Query) :=
  loop (fun table => do
    match ← oneOf ["PIVOT", "UNPIVOT"] with
    | some "PIVOT" => return some (← pivot g table)
    | some _ => return some (← unpivot table)
    | none => return none) table

def derivedTable (lateral : Bool) : Reader (Source Query) := do
  let q ← g.query
  expectSymbol ")"
  return .derived lateral q (← tableAlias?)

/-- Hints in parentheses after WITH. Another WITH is left for a later statement. -/
def tableHints : Reader (List Expr) := do
  if (← peekKeyword "WITH") && (← peekNth 1) = .symbol "(" then
    let _ ← next
    parenthesized (commaSeparated (expr g))
  else return []

def plainArguments : Reader (List (Argument Expr)) := do
  if ← symbol ")" then return []
  let args ← commaSeparated (argument g)
  expectSymbol ")"
  return args

def namedTable : Reader (Source Query) := do
  let name ← objectName
  let version ← do
    if ← keywords ["FOR", "SYSTEM_TIME", "AS", "OF"] then pure (some (← expr g)) else pure none
  let args ← do
    if ← symbol "(" then pure (Arguments.list none (← plainArguments g) []) else pure Arguments.none
  let ordinality ← keywords ["WITH", "ORDINALITY"]
  let tableAlias ← tableAlias?
  let hints ← tableHints g
  pivots g (.table name args tableAlias { ordinality, hints, version })

/-- What to do about a missing value of a document, and about a faulty one. -/
def documentFallbacks : Reader (Option Rendered × Option Rendered) :=
  loop (fun (onEmpty, onError) => do
    let what : Option Rendered ← do
      match ← oneOf ["NULL", "ERROR", "DEFAULT"] with
      | some "DEFAULT" =>
        let value ← literal
        pure (some ⟨"DEFAULT " ++ value.text, Shape.tuple "Default" [value.shape]⟩)
      | word => pure (word.map fun word => ⟨word, Shape.capitalized word⟩)
    if what.isNone then return none
    expectKeyword "ON"
    if ← keyword "EMPTY" then return some (what, onError)
    else
      expectKeyword "ERROR"
      return some (onEmpty, what)) (none, none)

def fallbackText (case_ : String) (what : Option Rendered) : String :=
  match what with
  | some form => " " ++ form.text ++ " ON " ++ case_
  | none => ""

/-- The columns of JSON_TABLE; the fuel bounds their nesting. -/
def documentColumns : Nat → Reader (List Rendered)
  | 0 => fail "recursion limit exceeded"
  | fuel + 1 => commaSeparated do
    if ← keyword "NESTED" then
      let _ ← keyword "PATH"
      let path ← literal
      expectKeyword "COLUMNS"
      let columns ← parenthesized (documentColumns fuel)
      return ⟨"NESTED PATH " ++ path.text ++ " COLUMNS (" ++
        commas (columns.map Rendered.text) ++ ")",
        Shape.tuple "Nested" [Shape.record "JsonTableNestedColumn" [("path", path.shape),
          ("columns", Shape.list (columns.map Rendered.shape))]]⟩
    let name ← identifier
    if ← keyword "FOR" then
      expectKeyword "ORDINALITY"
      return ⟨name.text ++ " FOR ORDINALITY", Shape.tuple "ForOrdinality" [name.shape]⟩
    let type ← typeName
    let exists_ ← keyword "EXISTS"
    expectKeyword "PATH"
    let path ← literal
    let (onEmpty, onError) ← documentFallbacks
    return ⟨name.text ++ " " ++ type.text ++ (if exists_ then " EXISTS" else "") ++ " PATH " ++
        path.text ++ fallbackText "EMPTY" onEmpty ++ fallbackText "ERROR" onError,
      Shape.tuple "Named" [Shape.record "JsonTableNamedColumn" [("name", name.shape),
        ("type", type.shape), ("path", path.shape), ("exists", Shape.truth exists_),
        ("on_empty", Shape.option (onEmpty.map Rendered.shape)),
        ("on_error", Shape.option (onError.map Rendered.shape))]]⟩

def documentTable : Reader (Source Query) := do
  let (document, path, columns) ← parenthesized do
    let document ← expr g
    expectSymbol ","
    let path ← literal
    expectKeyword "COLUMNS"
    return (document, path, ← parenthesized (documentColumns (← remaining).length))
  let tableAlias ← tableAlias?
  return .other
    ⟨"JSON_TABLE(" ++ document.text ++ ", " ++ path.text ++ " COLUMNS(" ++
        commas (columns.map Rendered.text) ++ "))" ++ aliasText tableAlias,
      Shape.record "JsonTable" [("json_expr", document.shape), ("json_path", path.shape),
        ("columns", Shape.list (columns.map Rendered.shape)), ("alias", aliasShape tableAlias)]⟩

def lateralCall : Reader (Source Query) := do
  let name ← objectName
  expectSymbol "("
  let args ← plainArguments g
  let tableAlias ← tableAlias?
  return .other
    ⟨"LATERAL " ++ name.text ++ "(" ++ commas (args.map argumentText) ++ ")" ++
      aliasText tableAlias, Shape.record "Function" [("lateral", "true"), ("name", name.shape),
        ("args", Shape.list (args.map argumentShape)), ("alias", aliasShape tableAlias)]⟩

def tableExpr : Reader (Source Query) := do
  let e ← parenthesized (expr g)
  let tableAlias ← tableAlias?
  return .other ⟨"TABLE(" ++ e.text ++ ")" ++ aliasText tableAlias,
    Shape.record "TableFunction" [("expr", e.shape), ("alias", aliasShape tableAlias)]⟩

def tableFactor : Reader (Source Query) := do
  if ← keyword "LATERAL" then
    if ← symbol "(" then derivedTable g true else lateralCall g
  else if ← keyword "TABLE" then tableExpr g
  else if ← symbol "(" then
    match ← attempt (derivedTable g false) with
    | some table => pivots g table
    | none =>
      let inner ← g.source
      match inner with
      | .join .. | .nested .. =>
        expectSymbol ")"
        return .nested inner (← tableAlias?)
      | _ => expected "joined table"
  else if (← peekKeyword "JSON_TABLE") && (← peekNth 1) = .symbol "(" then
    let _ ← next
    documentTable g
  else namedTable g

def joinKind? : Reader (Option JoinKind) := do
  if ← keyword "INNER" then
    expectKeyword "JOIN"
    return some .inner
  else if ← keyword "JOIN" then return some .inner
  else if ← keyword "FULL" then
    let _ ← keyword "OUTER"
    expectKeyword "JOIN"
    return some .full
  else
    match ← oneOf ["LEFT", "RIGHT"] with
    | some side =>
      let isLeft := side == "LEFT"
      let kind := if isLeft then JoinKind.left else JoinKind.right
      match ← oneOf ["OUTER", "SEMI", "ANTI", "JOIN"] with
      | some "JOIN" => return some kind
      | some "OUTER" =>
        expectKeyword "JOIN"
        return some kind
      | some "SEMI" =>
        expectKeyword "JOIN"
        return some (if isLeft then .leftSemi else .rightSemi)
      | some _ =>
        expectKeyword "JOIN"
        return some (if isLeft then .leftAnti else .rightAnti)
      | none => expected "OUTER, SEMI, ANTI or JOIN"
    | none => return none

def joinConstraint (natural : Bool) : Reader (JoinConstraint × Option Expr) := do
  if natural then return (.natural, none)
  else if ← keyword "ON" then return (.plain, some (← expr g))
  else if ← keyword "USING" then return (.using (← columnList), none)
  else return (.plain, none)

def nearestJoin (left : Source Query) (global : Bool) : Reader (Source Query) := do
  expectKeyword "JOIN"
  let right ← tableFactor g
  expectKeyword "MATCH_CONDITION"
  let nearest ← parenthesized (expr g)
  let (constraint, condition) ← joinConstraint g false
  return .join left (.nearest nearest.rendered) right ⟨constraint, global⟩ condition

def nextJoin (left : Source Query) : Reader (Option (Source Query)) := do
  let global ← keyword "GLOBAL"
  let plain (kind : JoinKind) : Reader (Option (Source Query)) := do
    return some (.join left kind (← tableFactor g) ⟨.plain, global⟩ none)
  if ← keyword "CROSS" then
    if ← keyword "JOIN" then plain .cross
    else if ← keyword "APPLY" then plain .crossApply
    else expected "JOIN or APPLY after CROSS"
  else if ← keyword "OUTER" then
    expectKeyword "APPLY"
    plain .outerApply
  else if ← keyword "ASOF" then return some (← nearestJoin g left global)
  else
    let natural ← keyword "NATURAL"
    match ← joinKind? with
    | none => if natural then expected "a join type after NATURAL" else return none
    | some kind =>
      let right ← tableFactor g
      let (constraint, condition) ← joinConstraint g natural
      return some (.join left kind right ⟨constraint, global⟩ condition)

def source : Reader (Source Query) := do
  loop (nextJoin g) (← tableFactor g)

end BatchPlan.Sql.Reader
