import BatchPlan.Sql.Grammar.Definition

namespace BatchPlan.Sql

def Statement.opening : Statement → String
  | .query q => q.text
  | .insert i => i.form.text
  | .update u => u.text
  | .delete _ => "DELETE FROM"
  | .createTable _ => "CREATE TABLE"
  | .drop d => "DROP " ++ d.kind
  | .other text => text

namespace Reader

variable (g : Nested)

def mergeClauses : Reader Unit :=
  loop (fun () => do
    let t ← peek
    if t = .eof || t = .symbol ";" then return none
    expectKeyword "WHEN"
    let negated ← keyword "NOT"
    expectKeyword "MATCHED"
    let bySource ← if negated then keywords ["BY", "SOURCE"] else pure false
    if negated && !bySource then
      let _ ← keywords ["BY", "TARGET"]
    also ["AND"] (expr g)
    expectKeyword "THEN"
    let inserting := negated && !bySource
    match ← oneOf ["UPDATE", "INSERT", "DELETE"] with
    | some "UPDATE" =>
      if inserting then fail "UPDATE in NOT MATCHED merge clause"
      expectKeyword "SET"
      let _ ← commaSeparated (assignment g)
    | some "DELETE" => if inserting then fail "DELETE in NOT MATCHED merge clause"
    | some _ =>
      unless inserting do fail "INSERT in MATCHED merge clause"
      let _ ← columnList?
      expectKeyword "VALUES"
      let _ ← values g
    | none => expected "UPDATE, DELETE or INSERT in merge clause"
    return some ()) ()

def merge : Reader Statement := do
  let into ← keyword "INTO"
  let table ← tableFactor g
  expectKeyword "USING"
  let _ ← tableFactor g
  expectKeyword "ON"
  let _ ← expr g
  mergeClauses g
  return .other (headline (if into then "MERGE INTO" else "MERGE " ++ table.text))

def showFilter : Reader Unit := do
  if (← oneOf ["LIKE", "ILIKE"]).isSome then
    let _ ← literalString
  else if (← where? g).isNone then
    let _ ← attempt literalString

/-- The words up to an equals sign or the end; all else between them is passed over. -/
def looseWords : Reader (List Ident) := do
  let taken := (← remaining).takeWhile fun t => t.token ≠ .symbol "="
  skip taken.length
  return taken.filterMap fun t =>
    match t.token with
    | .word value quote => some ⟨value, quote⟩
    | _ => none

def show_ : Reader Statement := do
  let extended ← keyword "EXTENDED"
  let full ← keyword "FULL"
  let _ ← keyword "SESSION"
  let _ ← keyword "GLOBAL"
  let lead := "SHOW " ++ (if extended then "EXTENDED " else "") ++ (if full then "FULL " else "")
  let container : Reader Unit := do
    if (← oneOf ["FROM", "IN"]).isSome then
      let _ ← identifier
  if (← oneOf ["COLUMNS", "FIELDS"]).isSome then
    require ["FROM", "IN"] "one of FROM or IN"
    let _ ← objectName
    container
    showFilter g
    return .other (headline (lead ++ "COLUMNS"))
  if ← keyword "TABLES" then
    container
    showFilter g
    return .other (headline (lead ++ "TABLES"))
  if ← keywords ["MATERIALIZED", "VIEWS"] then
    container
    showFilter g
    return .other "SHOW MATERIALIZED"
  if ← keyword "VIEWS" then
    container
    showFilter g
    return .other "SHOW VIEWS"
  if ← keyword "FUNCTIONS" then
    showFilter g
    return .other "SHOW FUNCTIONS"
  if extended || full then fail "EXTENDED/FULL are not supported with this type of SHOW query"
  if ← keyword "CREATE" then
    require ["TABLE", "TRIGGER", "FUNCTION", "PROCEDURE", "EVENT", "VIEW"]
      "one of TABLE or TRIGGER or FUNCTION or PROCEDURE or EVENT or VIEW"
    let _ ← objectName
    return .other "SHOW CREATE"
  if ← keyword "COLLATION" then
    showFilter g
    return .other "SHOW COLLATION"
  let _ ← keyword "VARIABLES"
  let _ ← keyword "STATUS"
  match ← oneOf ["DATABASES", "SCHEMAS"] with
  | some word =>
    showFilter g
    return .other ("SHOW " ++ word)
  | none =>
    let names ← looseWords
    return .other (headline (" ".intercalate ("SHOW" :: names.map Ident.text)))

def chain : Reader Bool := do
  let _ ← oneOf ["TRANSACTION", "WORK"]
  if ← keyword "AND" then
    let no ← keyword "NO"
    expectKeyword "CHAIN"
    return !no
  else return false

/-- The modes of a transaction; a comma needs another one after it. -/
def transactionModes : Reader Unit := do
  let _ ← loop (fun required => do
    let found ← do
      if ← keywords ["ISOLATION", "LEVEL"] then
        if ← anyKeywords [["READ", "UNCOMMITTED"], ["READ", "COMMITTED"], ["REPEATABLE", "READ"],
            ["SERIALIZABLE"]] then
          pure true
        else expected "isolation level"
      else anyKeywords [["READ", "ONLY"], ["READ", "WRITE"]]
    if found then return some (← symbol ",")
    else if required then expected "transaction mode"
    else return none) false

def setRole (modifier : Option String) : Reader Statement := do
  expectKeyword "ROLE"
  unless ← keyword "NONE" do
    let _ ← identifier
  return .other ("SET " ++ modifier.getD "ROLE")

def setVariable (modifier : Option String) : Reader Statement := do
  let lead :=
    match modifier with
    | some "LOCAL" => "SET LOCAL "
    | some "HIVEVAR" => "SET HIVEVAR:"
    | _ => "SET "
  let variable_ ← do
    if ← keywords ["TIME", "ZONE"] then pure (ObjectName.mk [⟨"TIMEZONE", none⟩]) else objectName
  let assigned ← do
    if ← symbol "=" then pure true else keyword "TO"
  if assigned then
    let _ ← commaSeparated do
      if ← peekQuery then
        let _ ← g.query
      else
        let _ ← expr g
    return .other (headline (lead ++ variable_.text ++ " ="))
  else if Text.sameAscii variable_.text "TIMEZONE" then
    let _ ← expr g
    return .other
      (headline ((if modifier = some "LOCAL" then "SET LOCAL " else "SET ") ++ "TIME ZONE"))
  else if variable_.text = "CHARACTERISTICS" then
    expectKeywords ["AS", "TRANSACTION"]
    transactionModes
    return .other "SET SESSION"
  else if variable_.text = "TRANSACTION" && modifier.isNone then
    if ← keyword "SNAPSHOT" then
      let _ ← literal
    else transactionModes
    return .other "SET TRANSACTION"
  else expected "equals sign or TO"

def setStatement : Reader Statement := do
  let modifier ← oneOf ["SESSION", "LOCAL", "HIVEVAR"]
  if modifier = some "HIVEVAR" then
    expectSymbol ":"
    setVariable g modifier
  else
    match ← attempt (setRole modifier) with
    | some s => return s
    | none => setVariable g modifier

def execute : Reader Statement := do
  let name ← objectName
  let using_ : Reader Unit := do
    also ["USING"] (commaSeparated (expr g))
  if ← symbol "(" then
    let params ← do
      if (← peek) = .symbol ")" then pure [] else commaSeparated (expr g)
    expectSymbol ")"
    using_
    return .other
      (headline ("EXECUTE " ++ name.text ++ "(" ++ commas (params.map ExprOf.text) ++ ")"))
  else
    let t ← peek
    unless t = .eof || t = .symbol ";" || isKeyword "USING" t do
      let _ ← commaSeparated (expr g)
    using_
    return .other (headline ("EXECUTE " ++ name.text))

/-- DECLARE after its keyword. The token after the last declaration is taken with it. -/
def declare : Reader Statement := do
  let first ← peek
  let declaration : Reader Bool := do
    let name ← identifier
    unless name.value.startsWith "@" do fail "Invalid variable declaration"
    unless ← keyword "CURSOR" do
      let _ ← keyword "AS"
      let _ ← typeName
    if ← symbol "=" then
      let _ ← expr g
    return (← next) = .symbol ","
  let _ ← loop (fun more => do
    if more then return some (← declaration) else return none) true
  return .other (headline ("DECLARE " ++ first.text))

def privilege : Reader String := do
  match ← oneOf ["SELECT", "INSERT", "UPDATE", "DELETE", "REFERENCES", "CONNECT",
    "CREATE", "EXECUTE",
      "TEMPORARY", "TRIGGER", "TRUNCATE", "USAGE"] with
  | some word =>
    let columns ← do
      if word ∈ ["SELECT", "INSERT", "UPDATE", "REFERENCES"] then columnList? else pure []
    return if columns.isEmpty then word else word ++ " (" ++ commas (columns.map Ident.text) ++ ")"
  | none => expected "a privilege keyword"

def grant (lead before : String) : Reader Statement := do
  let privileges ← do
    if ← keyword "ALL" then
      pure (if ← keyword "PRIVILEGES" then "ALL PRIVILEGES" else "ALL")
    else pure (commas (← commaSeparated privilege))
  expectKeyword "ON"
  if ← keywords ["ALL", "TABLES", "IN", "SCHEMA"] then pure ()
  else if ← keywords ["ALL", "SEQUENCES", "IN", "SCHEMA"] then pure ()
  else
    let _ ← oneOf ["SEQUENCE", "SCHEMA", "TABLE"]
  let _ ← commaSeparated objectName
  expectKeyword before
  let _ ← commaSeparated identifier
  if before = "TO" then
    let _ ← keywords ["WITH", "GRANT", "OPTION"]
  also ["GRANTED", "BY"] identifier
  if before = "FROM" then
    let _ ← oneOf ["CASCADE", "RESTRICT"]
  return .other (headline (lead ++ " " ++ privileges))

/-- EXPLAIN and its synonyms after their keyword: of a statement that does not itself explain, or
of a table. -/
def explain (word : String) : Reader Statement := do
  let lead ← do
    if ← keywords ["QUERY", "PLAN"] then pure " QUERY PLAN "
    else
      let analyze ← keyword "ANALYZE"
      let verbose ← keyword "VERBOSE"
      let format ← do
        if ← keyword "FORMAT" then
          match ← oneOf ["TEXT", "GRAPHVIZ", "JSON"] with
          | some format => pure ("FORMAT " ++ format ++ " ")
          | none => expected "fileformat"
        else pure ""
      pure (" " ++ (if analyze then "ANALYZE " else "") ++ (if verbose then "VERBOSE " else "") ++
        format)
  let t ← peek
  match ← attempt g.statement with
  | some s =>
    if ["EXPLAIN", "DESCRIBE", "DESC"].any fun kw => isKeyword kw t then
      fail "Explain must be root of the plan"
    return .other (headline (word ++ lead ++ s.opening))
  | none =>
    let form ← oneOf ["EXTENDED", "FORMATTED"]
    let name ← objectName
    return .other (headline (word ++ " " ++ (form.map (· ++ " ")).getD "" ++ name.text))

def fetchCursor : Reader Statement := do
  let word ← do
    match ← oneOf ["NEXT", "PRIOR", "FIRST", "LAST", "ABSOLUTE", "RELATIVE", "FORWARD", "BACKWARD",
        "ALL"] with
    | some word =>
      if word = "ABSOLUTE" || word = "RELATIVE" then
        let _ ← numberLiteral
      else if word = "FORWARD" || word = "BACKWARD" then
        unless ← keyword "ALL" do
          let _ ← numberLiteral
      pure word
    | none => pure (← numberLiteral).text
  require ["FROM", "IN"] "FROM or IN"
  let _ ← identifier
  also ["INTO"] objectName
  return .other ("FETCH " ++ word)

def analyze : Reader Statement := do
  expectKeyword "TABLE"
  let _ ← objectName
  loop (fun () => do
    match ← oneOf ["PARTITION", "NOSCAN", "FOR", "CACHE", "COMPUTE"] with
    | some "PARTITION" =>
      let _ ← parenthesized (commaSeparated (expr g))
      return some ()
    | some "FOR" =>
      expectKeyword "COLUMNS"
      let _ ← attempt (commaSeparated identifier)
      return some ()
    | some "CACHE" =>
      expectKeyword "METADATA"
      return some ()
    | some "COMPUTE" =>
      expectKeyword "STATISTICS"
      return some ()
    | some _ => return some ()
    | none => return none) ()
  return .other "ANALYZE TABLE"

def pragma : Reader Statement := do
  let name ← objectName
  let value : Reader String := do
    match ← literal with
    | .boolean _ | .null | .national _ | .escape _ | .hex _ | .dollarQuoted .. =>
      expected "number or string or ? placeholder"
    | l => return l.text
  if ← symbol "(" then
    let v ← value
    expectSymbol ")"
    return .other (headline ("PRAGMA " ++ name.text ++ "(" ++ v ++ ")"))
  else
    if ← symbol "=" then
      let _ ← value
    return .other (headline ("PRAGMA " ++ name.text))

def prepare : Reader Statement := do
  let name ← identifier
  if ← symbol "(" then
    let _ ← commaSeparated typeName
    expectSymbol ")"
  expectKeyword "AS"
  let _ ← g.statement
  return .other (headline ("PREPARE " ++ name.text))

/-- INSERT after its keyword, into a table or into files of a directory. -/
def insertStatement : Reader Statement := do
  let directory ← attempt do
    let overwrite ← keyword "OVERWRITE"
    let _ ← keyword "INTO"
    let local_ ← keyword "LOCAL"
    expectKeyword "DIRECTORY"
    return (if overwrite then " OVERWRITE" else "") ++
      (if local_ then " LOCAL" else "") ++ " DIRECTORY"
  match directory with
  | some words =>
    let _ ← literalString
    if ← keywords ["STORED", "AS"] then fileFormat
    let _ ← g.query
    return .other (headline ("INSERT" ++ words))
  | none => return .insert (← insert g)

def literalChar : Reader Unit := do
  let s ← literalString
  unless s.length = 1 do fail "Expect a char"

def copyOption : Reader Unit := do
  match ← oneOf ["FORMAT", "FREEZE", "DELIMITER", "NULL", "HEADER", "QUOTE",
    "ESCAPE", "FORCE_QUOTE",
      "FORCE_NOT_NULL", "FORCE_NULL", "ENCODING"] with
  | some "FORMAT" =>
    let _ ← identifier
  | some "FREEZE" | some "HEADER" =>
    let _ ← oneOf ["TRUE", "FALSE"]
  | some "DELIMITER" | some "QUOTE" | some "ESCAPE" => literalChar
  | some "NULL" | some "ENCODING" =>
    let _ ← literalString
  | some _ =>
    let _ ← columnList
  | none => expected "option"

def copyFlag : Reader Unit := do
  match ← oneOf ["BINARY", "DELIMITER", "NULL", "CSV"] with
  | some "BINARY" => return ()
  | some "DELIMITER" =>
    let _ ← keyword "AS"
    literalChar
  | some "NULL" =>
    let _ ← keyword "AS"
    let _ ← literalString
  | some _ =>
    let flag : Reader Unit := do
      match ← oneOf ["HEADER", "QUOTE", "ESCAPE", "FORCE"] with
      | some "HEADER" => return ()
      | some "FORCE" =>
        unless ← anyKeywords [["NOT", "NULL"], ["QUOTE"]] do expected "csv option"
        let _ ← commaSeparated identifier
      | some _ =>
        let _ ← keyword "AS"
        literalChar
      | none => expected "csv option"
    loop (fun () => attempt flag) ()
  | none => expected "option"

/-- COPY after its keyword. The rows that follow a copy from the standard input are passed over. -/
def copy : Reader Statement := do
  let (isQuery, text) ← do
    if ← symbol "(" then
      let q ← g.query
      expectSymbol ")"
      pure (true, "(" ++ q.text ++ ")")
    else
      let name ← objectName
      let _ ← columnList?
      pure (false, name.text)
  match ← oneOf ["FROM", "TO"] with
  | some "FROM" => if isQuery then fail "COPY ... FROM does not support query as a source"
  | some _ => pure ()
  | none => expected "FROM or TO"
  let target ← oneOf ["STDIN", "STDOUT", "PROGRAM"]
  if target.isNone || target = some "PROGRAM" then
    let _ ← literalString
  let _ ← keyword "WITH"
  if (← peek) = .symbol "(" then
    let _ ← parenthesized (commaSeparated copyOption)
  loop (fun () => attempt copyFlag) ()
  if target = some "STDIN" then
    expectSymbol ";"
    skip (← remaining).length
  return .other (headline ("COPY " ++ text))

def cache : Reader Statement := do
  let flag ← do
    if ← peekKeyword "TABLE" then pure none else pure (some (← objectName))
  expectKeyword "TABLE"
  let _ ← objectName
  unless (← peek) = .eof do
    let _ ← options? g ["OPTIONS"]
    unless (← peek) = .eof do
      match ← peek with
      | .word .. =>
        let _ ← keyword "AS"
        let _ ← g.query
      | _ => expected "a QUERY statement"
  return .other (headline ("CACHE " ++ (flag.map ObjectName.text).getD "TABLE"))

def statementAfter (word : String) : Reader Statement := do
  match word with
  | "INSERT" => insertStatement g
  | "UPDATE" => return .update (← update g)
  | "DELETE" => return .delete (← delete g)
  | "CREATE" => create g
  | "DROP" => drop g
  | "ALTER" => alter g
  | "MERGE" => merge g
  | "SHOW" => show_ g
  | "USE" => return .other (headline ("USE " ++ (← objectName).text))
  | "SET" => setStatement g
  | "EXEC" | "EXECUTE" => execute g
  | "DECLARE" => declare g
  | "GRANT" => grant "GRANT" "TO"
  | "REVOKE" => grant "REVOKE" "FROM"
  | "EXPLAIN" | "DESCRIBE" | "DESC" => explain g word
  | "FETCH" => fetchCursor
  | "ANALYZE" => analyze g
  | "PRAGMA" => pragma
  | "PREPARE" => prepare g
  | "ASSERT" =>
    let condition ← expr g
    also ["AS"] (expr g)
    return .other (headline ("ASSERT " ++ condition.text))
  | "ATTACH" =>
    let database ← keyword "DATABASE"
    let file ← expr g
    expectKeyword "AS"
    let _ ← identifier
    return .other (headline ("ATTACH " ++ (if database then "DATABASE " else "") ++ file.text))
  | "DISCARD" =>
    match ← oneOf ["ALL", "PLANS", "SEQUENCES", "TEMP", "TEMPORARY"] with
    | some kind => return .other ("DISCARD " ++ (if kind = "TEMPORARY" then "TEMP" else kind))
    | none => expected "ALL, PLANS, SEQUENCES, TEMP or TEMPORARY after DISCARD"
  | "MSCK" =>
    let repair ← keyword "REPAIR"
    expectKeyword "TABLE"
    let _ ← objectName
    let _ ← attempt do
      let _ ← oneOf ["ADD", "DROP", "SYNC"]
      expectKeyword "PARTITIONS"
    return .other (if repair then "MSCK REPAIR" else "MSCK TABLE")
  | "UNCACHE" =>
    expectKeyword "TABLE"
    let _ ← ifExists
    let _ ← objectName
    return .other "UNCACHE TABLE"
  | "COPY" => copy g
  | "CACHE" => cache g
  | "UNLOAD" =>
    let q ← parenthesized g.query
    expectKeyword "TO"
    let _ ← identifier
    let _ ← options? g ["WITH"]
    return .other (headline ("UNLOAD(" ++ q.text ++ ")"))
  | "CLOSE" =>
    if ← keyword "ALL" then return .other "CLOSE ALL"
    else return .other (headline ("CLOSE " ++ (← identifier).text))
  | "DEALLOCATE" =>
    let prepared ← keyword "PREPARE"
    let name ← identifier
    return .other (headline ("DEALLOCATE " ++ (if prepared then "PREPARE " else "") ++ name.text))
  | "CALL" =>
    let name ← objectName
    if (← peek) = .symbol "(" then
      return .other (headline ("CALL " ++ (ExprOf.call (← call g name) : Expr).text))
    else return .other (headline ("CALL " ++ name.text))
  | "TRUNCATE" =>
    let tableWord ← keyword "TABLE"
    let only ← keyword "ONLY"
    let names ← commaSeparated objectName
    also ["PARTITION"] (parenthesized (commaSeparated (expr g)))
    cluster?
    return .other (headline ("TRUNCATE " ++ (if tableWord then "TABLE " else "") ++
      (if only then "ONLY " else "") ++ commas (names.map ObjectName.text)))
  | "COMMIT" | "END" =>
    return .other (if ← chain then "COMMIT AND" else "COMMIT")
  | "ROLLBACK" =>
    let chained ← chain
    if ← keyword "TO" then
      let _ ← keyword "SAVEPOINT"
      let _ ← identifier
      return .other (if chained then "ROLLBACK AND" else "ROLLBACK TO")
    else return .other (if chained then "ROLLBACK AND" else "ROLLBACK")
  | "BEGIN" =>
    let _ ← oneOf ["TRANSACTION", "WORK"]
    transactionModes
    return .other "BEGIN TRANSACTION"
  | "START" =>
    expectKeyword "TRANSACTION"
    transactionModes
    return .other "START TRANSACTION"
  | "SAVEPOINT" => return .other (headline ("SAVEPOINT " ++ (← identifier).text))
  | "RELEASE" =>
    let _ ← keyword "SAVEPOINT"
    let _ ← identifier
    return .other "RELEASE SAVEPOINT"
  | "KILL" =>
    let modifier ← oneOf ["CONNECTION", "QUERY"]
    let id ← literalNat
    return .other ("KILL " ++ modifier.getD (toString id))
  | _ => fail ("Expected: an SQL statement, found: " ++ word)

def statement : Reader Statement := do
  match ← peek with
  | .word value none =>
    let word := keywordForm value
    if word ∈ ["SELECT", "WITH", "VALUES"] then return .query (← g.query)
    let _ ← next
    statementAfter g word
  | .symbol "(" => return .query (← g.query)
  | _ => expected "an SQL statement"

end Reader

def nestedWithin (prior : Bool) : Nat → Nested
  | 0 =>
    { prior
      expr := fun _ => Reader.fail "recursion limit exceeded"
      operand := Reader.fail "recursion limit exceeded"
      linkExpr := Reader.fail "recursion limit exceeded"
      query := Reader.fail "recursion limit exceeded"
      source := Reader.fail "recursion limit exceeded"
      statement := Reader.fail "recursion limit exceeded" }
  | depth + 1 =>
    let inner := nestedWithin prior depth
    { prior
      expr := Reader.exprAbove inner
      operand := Reader.operand inner
      linkExpr := .delayed fun () => Reader.exprAbove (nestedWithin true depth) 0
      query := Reader.queryExpr inner
      source := Reader.source inner
      statement := Reader.statement inner }

/-- How deep expressions, queries and statements may nest. -/
def nestingLimit : Nat := 50

def grammar : Nested :=
  nestedWithin false nestingLimit

def parseStatement (text : String) : Result Statement := do
  let tokens ← (tokens text).mapError fun e => .parse ("sql parser error: " ++ e.message)
  match ← (Reader.statements grammar).read tokens with
  | [] => throw (.parse "Empty SQL statement")
  | [statement] => return statement
  | _ => throw (.parse "Multiple statements not supported")

end BatchPlan.Sql
