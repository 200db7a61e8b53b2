import BatchPlan.Sql.Grammar.Change

namespace BatchPlan.Sql.Reader

variable (g : Nested)

def top : Reader (Top Query) := do
  let (count, bare) ← do
    if (← peek) = .symbol "(" then pure (← parenthesized (expr g), false)
    else pure (.literal (.number (toString (← literalNat)) false), true)
  let percent ← keyword "PERCENT"
  let withTies ← keywords ["WITH", "TIES"]
  return ⟨count, bare, percent, withTies⟩

def distinct? : Reader (Option (Distinct Query)) := do
  let all ← keyword "ALL"
  if ← keyword "DISTINCT" then
    if all then fail "Cannot specify both ALL and DISTINCT"
    if ← keyword "ON" then
      let columns ← parenthesized do
        if (← peek) = .symbol ")" then return [] else commaSeparated (expr g)
      return some (.on columns)
    else return some .rows
  else return none

def into? : Reader (Option Into) := do
  if ← keyword "INTO" then
    let temporary := (← oneOf ["TEMP", "TEMPORARY"]).isSome
    let unlogged ← keyword "UNLOGGED"
    let table ← keyword "TABLE"
    return some ⟨temporary, unlogged, table, ← objectName⟩
  else return none

def lateralViews : Reader (List (LateralView Query)) := do
  let views ← loop (fun views => do
    if ← keywords ["LATERAL", "VIEW"] then
      let outer ← keyword "OUTER"
      let e ← expr g
      let name ← objectName
      let columns ← commaSeparated
        (alias? ["WHERE", "GROUP", "CLUSTER", "HAVING", "LATERAL"])
      return some (⟨outer, e, name, columns.filterMap id⟩ :: views)
    else return none) []
  return views.reverse

def listClause (first : String) : Reader (List Expr) := do
  if ← keywords [first, "BY"] then commaSeparated (expr g) else return []

def namedWindows : Reader (List (NamedWindow Query)) :=
  commaSeparated do
    let name ← identifier
    expectKeyword "AS"
    expectSymbol "("
    return ⟨name, ← windowSpec g⟩

/-- The WINDOW and QUALIFY clauses in either order, and whether WINDOW comes first. -/
def windowsAndQualify : Reader (List (NamedWindow Query) × Option Expr × Bool) := do
  if ← keyword "WINDOW" then
    let windows ← namedWindows g
    if ← keyword "QUALIFY" then return (windows, some (← expr g), true)
    else return (windows, none, true)
  else if ← keyword "QUALIFY" then
    let condition ← expr g
    if ← keyword "WINDOW" then return (← namedWindows g, some condition, false)
    else return ([], some condition, false)
  else return ([], none, false)

def hierarchy? : Reader (Option (Hierarchy Query)) := do
  let start : Reader Expr := do
    expectKeywords ["START", "WITH"]
    expr g
  let links : Reader (List Expr) := do
    expectKeywords ["CONNECT", "BY"]
    commaSeparated g.linkExpr
  if ← peekKeyword "START" then
    let first ← start
    return some ⟨first, ← links⟩
  else if ← peekKeyword "CONNECT" then
    let next ← links
    return some ⟨← start, next⟩
  else return none

def select : Reader (Select Query) := do
  let distinct ← distinct? g
  let top ← do
    if ← keyword "TOP" then pure (some (← top g)) else pure none
  let items ← commaSeparated (selectItem g)
  let into ← into?
  let sources ← do
    if ← keyword "FROM" then commaSeparated g.source else pure []
  let lateralViews ← lateralViews g
  let condition ← where? g
  let (groupByAll, groupBy) ← do
    if ← keywords ["GROUP", "BY"] then
      if ← keyword "ALL" then pure (true, []) else pure (false, ← commaSeparated (expr g))
    else pure (false, [])
  let clusterBy ← listClause g "CLUSTER"
  let distributeBy ← listClause g "DISTRIBUTE"
  let sortBy ← listClause g "SORT"
  let having ← do
    if ← keyword "HAVING" then pure (some (← expr g)) else pure none
  let (windows, qualify, windowsFirst) ← windowsAndQualify g
  let hierarchy ← hierarchy? g
  return {
    distinct, top, items, into, sources, lateralViews, condition, groupByAll, groupBy, clusterBy,
    distributeBy, sortBy, having, windows, qualify, windowsFirst, hierarchy }

def values : Reader (SetExpr Query) := do
  let rows ← commaSeparated do
    let explicit ← keyword "ROW"
    return (explicit, ← parenthesized (commaSeparated (expr g)))
  return .values (rows.any Prod.fst) (rows.map Prod.snd)

/-- A table as a query, after TABLE. The three tokens after the keyword are taken whatever the last
two are. -/
def tableQuery : Reader (SetExpr Query) := do
  let first ← next
  let second ← next
  let third ← next
  let name : Token → Reader String
    | .word value _ => return value
    | _ => fail "Expected: Table name"
  let shape (table : String) (schema : Option String) : String :=
    Shape.tuple "Table" [Shape.record "Table"
      [("table_name", Shape.option (some (Shape.quoted table))),
      ("schema_name", Shape.option (schema.map Shape.quoted))]]
  if second = .symbol "." then
    let schema ← name first
    let table ← name third
    return .other ⟨"TABLE " ++ schema ++ "." ++ table, shape table (some schema)⟩
  else
    let table ← name first
    return .other ⟨"TABLE " ++ table, shape table none⟩

def setOperand : Reader (SetExpr Query) := do
  if ← keyword "SELECT" then return .select (← select g)
  else if ← symbol "(" then
    let q ← g.query
    expectSymbol ")"
    return .query q
  else if ← keyword "VALUES" then values g
  else if ← keyword "TABLE" then tableQuery
  else expected "SELECT, VALUES, or a subquery in the query body"

def setQuantifier (op : SetOp) : Reader SetQuantifier := do
  if op = .union then
    if ← keywords ["DISTINCT", "BY", "NAME"] then return .distinctByName
    if ← keywords ["BY", "NAME"] then return .byName
  if ← keyword "ALL" then
    if op = .union then
      if ← keywords ["BY", "NAME"] then return .allByName
    return .all
  else if ← keyword "DISTINCT" then return .distinct
  else return .none

/-- Operands joined by INTERSECT, which binds tighter than the other set operators. -/
def intersections : Reader (SetExpr Query) := do
  loop (fun left => do
    if ← keyword "INTERSECT" then
      let quantifier ← setQuantifier .intersect
      return some (.operation .intersect quantifier left (← setOperand g))
    else return none) (← setOperand g)

def setExpr : Reader (SetExpr Query) := do
  loop (fun left => do
    match ← oneOf ["UNION", "EXCEPT"] with
    | some word =>
      let op := if word = "UNION" then SetOp.union else SetOp.except
      let quantifier ← setQuantifier op
      return some (.operation op quantifier left (← intersections g))
    | none => return none) (← intersections g)

def cte : Reader (Cte Query) := do
  let name ← identifier
  let columns ← columnList?
  expectKeyword "AS"
  let q ← parenthesized g.query
  let from_ ← do
    if ← keyword "FROM" then pure (some (← identifier)) else pure none
  return ⟨⟨name, columns⟩, q, from_⟩

def fetch : Reader Fetch := do
  require ["FIRST", "NEXT"] "FIRST or NEXT"
  let (count, percent) ← do
    if (← oneOf ["ROW", "ROWS"]).isSome then pure (none, false)
    else
      let n ← literal
      let percent ← keyword "PERCENT"
      require ["ROW", "ROWS"] "ROW or ROWS"
      pure (some n, percent)
  if ← keyword "ONLY" then return ⟨count, percent, false⟩
  else if ← keywords ["WITH", "TIES"] then return ⟨count, percent, true⟩
  else expected "one of ONLY or WITH TIES"

def rootName : Reader String :=
  parenthesized literalString

def rootName? : Reader (Option String) := do
  if (← peek) = .symbol "(" then return some (← rootName) else return none

def forXml : Reader ForClause := do
  let form ← do
    match ← oneOf ["RAW", "AUTO", "EXPLICIT", "PATH"] with
    | some "RAW" => pure (XmlForm.raw (← rootName?))
    | some "AUTO" => pure .auto
    | some "EXPLICIT" => pure .explicit
    | some _ => pure (.path (← rootName?))
    | none => expected "FOR XML [RAW | AUTO | EXPLICIT | PATH ]"
  let (elements, base64, root, type) ← loop (fun (elements, base64, root, type) => do
    if ← symbol "," then
      if ← keyword "ELEMENTS" then return some (true, base64, root, type)
      else if ← keyword "BINARY" then
        expectKeyword "BASE64"
        return some (elements, true, root, type)
      else if ← keyword "ROOT" then return some (elements, base64, some (← rootName), type)
      else if ← keyword "TYPE" then return some (elements, base64, root, true)
      else return some (elements, base64, root, type)
    else return none) (false, false, none, false)
  return .xml form elements base64 root type

def forJson : Reader ForClause := do
  let form ← do
    match ← oneOf ["AUTO", "PATH"] with
    | some "AUTO" => pure JsonForm.auto
    | some _ => pure .path
    | none => expected "FOR JSON [AUTO | PATH ]"
  let (root, nulls, bare) ← loop (fun (root, nulls, bare) => do
    if ← symbol "," then
      if ← keyword "ROOT" then return some (some (← rootName), nulls, bare)
      else if ← keyword "INCLUDE_NULL_VALUES" then return some (root, true, bare)
      else if ← keyword "WITHOUT_ARRAY_WRAPPER" then return some (root, nulls, true)
      else return some (root, nulls, bare)
    else return none) (none, false, false)
  return .json form root nulls bare

def lock : Reader Lock := do
  match ← oneOf ["UPDATE", "SHARE"] with
  | some kind =>
    let table ← do
      if ← keyword "OF" then pure (some (← objectName)) else pure none
    let wait ← do
      if ← keyword "NOWAIT" then pure (some .nowait)
      else if ← keywords ["SKIP", "LOCKED"] then pure (some .skipLocked)
      else pure none
    return ⟨kind == "UPDATE", table, wait⟩
  | none => expected "UPDATE or SHARE"

/-- The FOR clauses at the end of a query: locks, then perhaps a form of the result. -/
def forClauses : Reader (List Lock × Option ForClause) :=
  loop (fun (locks, form) => do
    if form.isSome then return none
    if ← keyword "FOR" then
      if ← keyword "XML" then return some (locks, some (← forXml))
      else if ← keyword "JSON" then return some (locks, some (← forJson))
      else if ← keyword "BROWSE" then return some (locks, some .browse)
      else return some (locks ++ [← lock], none)
    else return none) ([], none)

def limit? : Reader (Option Expr) := do
  if ← keyword "LIMIT" then
    if ← keyword "ALL" then return none else return some (← expr g)
  else return none

def offset? : Reader (Option (Expr × String)) := do
  if ← keyword "OFFSET" then
    let count ← expr g
    return some (count, (← oneOf ["ROW", "ROWS"]).getD "")
  else return none

def limits : Reader (Option Expr × Option (Expr × String)) := do
  let limit ← limit? g
  let offset ← offset? g
  let limit ← if limit.isNone then limit? g else pure limit
  let offset ← if offset.isNone then offset? g else pure offset
  return (limit, offset)

/-- A query with its common table expressions. INSERT and UPDATE may stand as its body. -/
def queryExpr : Reader Query := do
  let (recursive, ctes) ← do
    if ← keyword "WITH" then
      let recursive ← keyword "RECURSIVE"
      pure (recursive, ← commaSeparated (cte g))
    else pure (false, [])
  if ← keyword "INSERT" then
    let i ← insert g
    let body := SetExpr.other ⟨i.form.text, Shape.tuple "Insert"
      [Shape.tuple "Insert" [i.form.shape]]⟩
    return ({ Query.ofBody body with recursive, ctes } : Query).sealed
  if ← keyword "UPDATE" then
    let u ← update g
    let body := SetExpr.other ⟨u.text, Shape.tuple "Update" [u.shape]⟩
    return ({ Query.ofBody body with recursive, ctes } : Query).sealed
  let body ← setExpr g
  let orderBy ← orderBy? g
  let (limit, offset) ← limits g
  let fetch ← do
    if ← keyword "FETCH" then pure (some (← fetch)) else pure none
  let (locks, forClause) ← forClauses
  return ({ recursive, ctes, body, orderBy, limit, offset := offset.map Prod.fst,
            offsetUnit := (offset.map Prod.snd).getD "", fetch, locks, forClause,
            form := default } : Query).sealed

end BatchPlan.Sql.Reader
