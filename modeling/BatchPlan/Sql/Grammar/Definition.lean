import BatchPlan.Sql.Grammar.Query

namespace BatchPlan.Sql

def wordsOf (cs : List Char) : List String :=
  ((cs.splitBy fun a b => Text.isBlank a == Text.isBlank b).filter fun w =>
    !(w.all Text.isBlank)).map String.ofList

def headline (text : String) : String :=
  " ".intercalate ((wordsOf text.toList).take 2)

namespace Reader

/-- A statement that is read for its place alone. -/
def headed {α : Type} (text : String) (statement : Reader α) : Reader Statement := do
  let _ ← statement
  return .other text

def once (done : Bool) (choices : List (List String)) : Reader Bool :=
  if done then return false else anyKeywords choices

/-- Items up to a closing parenthesis. A comma may stand after the last of them. -/
def closedList (item : Reader Unit) : Reader Unit := do
  let _ ← loop (fun closed => do
    if closed then return none
    item
    let comma ← symbol ","
    if ← symbol ")" then return some true
    else if comma then return some false
    else expected "',' or ')'") false

def numberLiteral : Reader Literal := do
  match ← literal with
  | .number digits long => return .number digits long
  | .placeholder text => return .placeholder text
  | _ => expected "literal number"

def signedNumber : Reader Unit := do
  unless ← symbol "+" do
    let _ ← symbol "-"
  let _ ← numberLiteral

def sequenceOptions : Reader Unit := do
  let bound (kw : String) : Reader Unit := do
    if ← keyword kw then signedNumber
    else
      let _ ← keywords ["NO", kw]
  if ← keyword "INCREMENT" then
    let _ ← keyword "BY"
    signedNumber
  bound "MINVALUE"
  bound "MAXVALUE"
  if ← keyword "START" then
    let _ ← keyword "WITH"
    signedNumber
  if ← keyword "CACHE" then signedNumber
  let _ ← anyKeywords [["NO", "CYCLE"], ["CYCLE"]]

def constraintTraits : Reader Unit := do
  let _ ← loop (fun (deferrable, initially, enforced) => do
    if ← once deferrable [["NOT", "DEFERRABLE"], ["DEFERRABLE"]] then
      return some (true, initially, enforced)
    else if ← once initially [["INITIALLY"]] then
      require ["DEFERRED", "IMMEDIATE"] "one of DEFERRED or IMMEDIATE"
      return some (deferrable, true, enforced)
    else if ← once enforced [["ENFORCED"], ["NOT", "ENFORCED"]] then
      return some (deferrable, initially, true)
    else return none) (false, false, false)

def referentialAction : Reader Unit := do
  unless ← anyKeywords [["RESTRICT"], ["CASCADE"], ["SET", "NULL"], ["NO", "ACTION"],
      ["SET", "DEFAULT"]] do
    expected "one of RESTRICT, CASCADE, SET NULL, NO ACTION or SET DEFAULT"

def foreignReference (columns : Reader (List Ident)) : Reader Unit := do
  let _ ← objectName
  let _ ← columns
  let _ ← loop (fun (onDelete, onUpdate) => do
    if ← once onDelete [["ON", "DELETE"]] then
      referentialAction
      return some (true, onUpdate)
    else if ← once onUpdate [["ON", "UPDATE"]] then
      referentialAction
      return some (onDelete, true)
    else return none) (false, false)
  constraintTraits

def indexKind? : Reader Bool := do
  if ← keyword "USING" then
    require ["BTREE", "HASH"] "index type"
    return true
  else return false

/-- The name, the columns and the options of the index of a constraint. Any word may be its name. -/
def constraintIndex : Reader Unit := do
  let _ ← attempt identifier
  let _ ← indexKind?
  let _ ← columnList
  loop (fun () => do
    if ← indexKind? then return some ()
    else if ← keyword "COMMENT" then
      let _ ← literalString
      return some ()
    else return none) ()
  constraintTraits

section

variable (g : Nested)

def generation : Reader Bool := do
  if ← anyKeywords [["ALWAYS", "AS", "IDENTITY"], ["BY", "DEFAULT", "AS", "IDENTITY"]] then
    if ← symbol "(" then
      sequenceOptions
      expectSymbol ")"
    return true
  else if ← keywords ["ALWAYS", "AS"] then
    if (← peek) = .symbol "(" then
      let _ ← parenthesized (expr g)
      let _ ← oneOf ["STORED", "VIRTUAL"]
      return true
    else return false
  else return false

/-- An option of a column: `none` if there is none, else whether it forbids nulls. -/
def columnOption? : Reader (Option Bool) := do
  if ← keywords ["CHARACTER", "SET"] then
    let _ ← objectName
    return some false
  else if ← keywords ["NOT", "NULL"] then return some true
  else if ← keyword "COMMENT" then
    match ← next with
    | .string _ => return some false
    | _ => fail "Expected: string"
  else if ← keyword "NULL" then return some false
  else if ← keyword "DEFAULT" then
    let _ ← expr g
    return some false
  else if ← anyKeywords [["PRIMARY", "KEY"], ["UNIQUE"]] then
    constraintTraits
    return some false
  else if ← keyword "REFERENCES" then
    foreignReference columnList?
    return some false
  else if ← keyword "CHECK" then
    let _ ← parenthesized (expr g)
    return some false
  else if ← keyword "GENERATED" then
    if ← generation g then return some false else return none
  else if ← keyword "IDENTITY" then
    if ← symbol "(" then
      signedNumber
      expectSymbol ","
      signedNumber
      expectSymbol ")"
    return some false
  else return none

def columnOptions : Reader Bool :=
  loop (fun notNull => do
    if ← keyword "CONSTRAINT" then
      let _ ← identifier
      match ← columnOption? g with
      | some b => return some (notNull || b)
      | none => expected "constraint details after CONSTRAINT <name>"
    else
      match ← columnOption? g with
      | some b => return some (notNull || b)
      | none => return none) false

def columnDef : Reader ColumnDef := do
  let name ← identifier
  let type ← typeName
  let collation ← do
    if ← keyword "COLLATE" then pure (some (← objectName)) else pure none
  return ⟨name, type, collation, ← columnOptions g⟩

def tableConstraint? : Reader Bool := do
  let hasName ← keyword "CONSTRAINT"
  if hasName then
    let _ ← identifier
  if ← keyword "UNIQUE" then
    if (← oneOf ["KEY", "INDEX"]).isSome then expected "an index name or a list of columns"
    constraintIndex
    return true
  else if ← keyword "PRIMARY" then
    expectKeyword "KEY"
    constraintIndex
    return true
  else if ← keyword "FOREIGN" then
    expectKeyword "KEY"
    let _ ← columnList
    expectKeyword "REFERENCES"
    foreignReference columnList
    return true
  else if ← keyword "CHECK" then
    let _ ← parenthesized (expr g)
    return true
  else if hasName then expected "PRIMARY, UNIQUE, FOREIGN, or CHECK"
  else return false

def columnDefs : Reader (List ColumnDef) := do
  unless ← symbol "(" do return []
  if ← symbol ")" then return []
  let (defs, _) ← loop (fun (defs, closed) => do
    if closed then return none
    let defs ← do
      if ← tableConstraint? g then pure defs
      else
        match ← peek with
        | .word .. => pure ((← columnDef g) :: defs)
        | _ => expected "column name or constraint definition"
    if ← symbol "," then return some (defs, false)
    else if ← symbol ")" then return some (defs, true)
    else expected "',' or ')' after column definition") (([] : List ColumnDef), false)
  return defs.reverse

def tableOption : Reader Unit := do
  if ← keyword "HEAP" then return ()
  else if ← keyword "PARTITION" then
    parenthesized do
      let _ ← identifier
      expectKeyword "RANGE"
      let _ ← oneOf ["LEFT", "RIGHT"]
      expectKeywords ["FOR", "VALUES"]
      let _ ← parenthesized (commaSeparated (expr g))
  else if ← keyword "CLUSTERED" then
    if ← keywords ["COLUMNSTORE", "INDEX", "ORDER"] then
      let _ ← columnList
    else if ← keywords ["COLUMNSTORE", "INDEX"] then return ()
    else
      expectKeyword "INDEX"
      let _ ← parenthesized <| commaSeparated do
        let _ ← identifier
        oneOf ["ASC", "DESC"]
  else
    let _ ← identifier
    expectSymbol "="
    let _ ← expr g

def options? (kws : List String) : Reader Bool := do
  if ← keywords kws then
    parenthesized do
      if (← peek) = .symbol ")" then return false
      let _ ← commaSeparated (tableOption g)
      return true
  else return false

def cluster? : Reader Unit := do
  also ["ON", "CLUSTER"] identifier

def fileFormat : Reader Unit := do
  require ["AVRO", "JSONFILE", "ORC", "PARQUET", "RCFILE", "SEQUENCEFILE",
      "TEXTFILE"] "fileformat"

def rowFormat : Reader Unit := do
  if ← keyword "SERDE" then
    let _ ← literalString
  else
    let _ ← keyword "DELIMITED"
    loop (fun () => do
      if ← keywords ["FIELDS", "TERMINATED", "BY"] then
        let _ ← identifier
        also ["ESCAPED", "BY"] identifier
        return some ()
      else if ← anyKeywords [["COLLECTION", "ITEMS", "TERMINATED", "BY"],
          ["MAP", "KEYS", "TERMINATED", "BY"], ["LINES", "TERMINATED", "BY"],
          ["NULL", "DEFINED", "AS"]] then
        let _ ← identifier
        return some ()
      else return none) ()

def fileStorage : Reader Unit :=
  loop (fun () => do
    if ← keyword "ROW" then
      expectKeyword "FORMAT"
      rowFormat
      return some ()
    else if ← keyword "STORED" then
      expectKeyword "AS"
      if ← keyword "INPUTFORMAT" then
        let _ ← expr g
        expectKeyword "OUTPUTFORMAT"
        let _ ← expr g
      else fileFormat
      return some ()
    else if ← keyword "LOCATION" then
      let _ ← literalString
      return some ()
    else if ← options? g ["WITH", "SERDEPROPERTIES"] then return some ()
    else return none) ()

def partitions? : Reader Unit := do
  also ["PARTITIONED", "BY"] (parenthesized (commaSeparated (columnDef g)))

def buckets? : Reader Unit := do
  if ← keywords ["CLUSTERED", "BY"] then
    let _ ← columnList
    also ["SORTED", "BY"] (parenthesized (orderItems g))
    expectKeyword "INTO"
    let _ ← numberLiteral
    expectKeyword "BUCKETS"

def tableSettings : Reader Unit := do
  let word : Reader Unit := do
    match ← next with
    | .word .. => return ()
    | _ => fail "Expected: identifier"
  if ← keyword "ENGINE" then
    expectSymbol "="
    word
    let _ ← columnList?
  if ← keyword "AUTO_INCREMENT" then
    let _ ← symbol "="
    let _ ← literalNat
  if ← keywords ["ORDER", "BY"] then
    if ← symbol "(" then
      unless (← peek) = .symbol ")" do
        let _ ← commaSeparated (expr g)
      expectSymbol ")"
    else
      let _ ← expr g
  if ← keywords ["DEFAULT", "CHARSET"] then
    expectSymbol "="
    word
  if ← keyword "COLLATE" then
    expectSymbol "="
    word
  if ← keywords ["ON", "COMMIT"] then
    unless ← anyKeywords [["DELETE", "ROWS"], ["PRESERVE", "ROWS"], ["DROP"]] do
      expected "DELETE ROWS, PRESERVE ROWS or DROP"
  let _ ← keyword "STRICT"
  if ← keyword "COMMENT" then
    let _ ← symbol "="
    match ← next with
    | .string _ => return ()
    | _ => fail "Expected: comment"

def createTable : Reader CreateTable := do
  let _ ← ifNotExists
  let name ← objectName
  cluster?
  if (← oneOf ["LIKE", "ILIKE"]).isSome then
    let _ ← attempt objectName
  also ["CLONE"] (attempt objectName)
  let columns ← columnDefs g
  let _ ← keywords ["WITHOUT", "ROWID"]
  partitions? g
  buckets? g
  fileStorage g
  let _ ← options? g ["WITH"]
  let _ ← options? g ["TBLPROPERTIES"]
  tableSettings g
  if ← keyword "AS" then
    let _ ← g.query
    return ⟨name, columns, true⟩
  else return ⟨name, columns, false⟩

def createExternalTable : Reader CreateTable := do
  expectKeyword "TABLE"
  let _ ← ifNotExists
  let name ← objectName
  let columns ← columnDefs g
  partitions? g
  fileStorage g
  let _ ← options? g ["TBLPROPERTIES"]
  return ⟨name, columns, false⟩

/-- Statements up to the end, or up to END after at least one of them. Two statements need a `;`
between them. -/
def statements : Reader (List Statement) := do
  let (found, _, _) ← loop (fun (found, needsDelimiter, done) => do
    if done then return none
    if ← symbol ";" then return some (found, false, false)
    let t ← peek
    if t = .eof || (needsDelimiter && isKeyword "END" t) then return some (found, false, true)
    if needsDelimiter then expected "end of statement"
    return some ((← g.statement) :: found, true, false)) (([] : List Statement), false, false)
  return found.reverse

def procedureParameters : Reader Unit := do
  if ← symbol "(" then
    unless ← symbol ")" do
      closedList do
        match ← peek with
        | .word .. =>
          let _ ← identifier
          let _ ← typeName
        | _ => return ()

def createIndex : Reader Unit := do
  let _ ← keyword "CONCURRENTLY"
  let ifNotExists ← ifNotExists
  let unnamed ← if ifNotExists then pure false else keyword "ON"
  unless unnamed do
    let _ ← objectName
    expectKeyword "ON"
  let _ ← objectName
  also ["USING"] identifier
  let _ ← parenthesized (orderItems g)
  also ["INCLUDE"] columnList
  if ← keyword "NULLS" then
    let _ ← keyword "NOT"
    expectKeyword "DISTINCT"
  let _ ← where? g

def viewBody (columns : Reader Unit) : Reader Unit := do
  let _ ← objectName
  columns
  let _ ← options? g ["WITH"]
  also ["CLUSTER", "BY"] columnList?
  expectKeyword "AS"
  let _ ← g.query

def policyConditions : Reader Unit := do
  also ["TO"] (commaSeparated identifier)
  also ["USING"] (parenthesized (expr g))
  also ["WITH", "CHECK"] (parenthesized (expr g))

def createPolicy : Reader Unit := do
  let _ ← identifier
  expectKeyword "ON"
  let _ ← objectName
  if ← keyword "AS" then
    require ["PERMISSIVE", "RESTRICTIVE"] "PERMISSIVE or RESTRICTIVE"
  if ← keyword "FOR" then
    require ["ALL", "SELECT", "INSERT", "UPDATE", "DELETE"] "a command"
  policyConditions g

def createSecret : Reader Unit := do
  let _ ← ifNotExists
  unless (← peek) = .symbol "(" do
    unless ← keyword "IN" do
      let _ ← attempt identifier
      let _ ← keyword "IN"
    unless (← peek) = .symbol "(" do
      let _ ← attempt identifier
  parenthesized do
    expectKeyword "TYPE"
    let _ ← identifier
    if ← symbol "," then
      let _ ← commaSeparated do
        let _ ← identifier
        identifier

def createExtension : Reader Unit := do
  let _ ← ifNotExists
  let _ ← identifier
  if ← keyword "WITH" then
    also ["SCHEMA"] identifier
    also ["VERSION"] identifier
    let _ ← keyword "CASCADE"

def createVirtualTable : Reader Unit := do
  expectKeyword "TABLE"
  let _ ← ifNotExists
  let _ ← objectName
  expectKeyword "USING"
  let _ ← identifier
  let _ ← columnList?

def createSchema : Reader Unit := do
  let _ ← ifNotExists
  unless ← peekKeyword "AUTHORIZATION" do
    let _ ← objectName
  also ["AUTHORIZATION"] identifier

def createDatabase : Reader Unit := do
  let _ ← ifNotExists
  let _ ← objectName
  loop (fun () => do
    if (← oneOf ["LOCATION", "MANAGEDLOCATION"]).isSome then
      let _ ← literalString
      return some ()
    else return none) ()

def createRole : Reader Unit := do
  let _ ← ifNotExists
  let _ ← commaSeparated objectName
  let _ ← keyword "WITH"
  if ← keyword "AUTHORIZATION" then
    let _ ← objectName
    if ← keyword "AUTHORIZATION" then fail "Found multiple AUTHORIZATION"

def createSequence : Reader Unit := do
  let _ ← ifNotExists
  let _ ← objectName
  also ["AS"] typeName
  sequenceOptions
  also ["OWNED", "BY"] objectName

def createType : Reader Unit := do
  let _ ← objectName
  expectKeyword "AS"
  if ← keyword "ENUM" then
    parenthesized do
      unless (← peek) = .symbol ")" do
        let _ ← commaSeparated identifier
  else if ← symbol "(" then
    unless ← symbol ")" do
      closedList do
        let _ ← identifier
        let _ ← typeName
        also ["COLLATE"] objectName

def createProcedure : Reader Unit := do
  let _ ← objectName
  procedureParameters
  expectKeywords ["AS", "BEGIN"]
  let _ ← statements g
  expectKeyword "END"

def create : Reader Statement := do
  let orReplace ← keywords ["OR", "REPLACE"]
  let orAlter ← keywords ["OR", "ALTER"]
  let _ ← keyword "LOCAL"
  let _ ← keyword "GLOBAL"
  let _ ← keyword "TRANSIENT"
  let temporary := (← oneOf ["TEMP", "TEMPORARY"]).isSome
  let lead := "CREATE " ++ (if orReplace then "OR REPLACE " else "")
  let temporaryWord := if temporary then "TEMPORARY " else ""
  if ← keyword "TABLE" then return .createTable (← createTable g)
  let materialized ← keyword "MATERIALIZED"
  if ← keyword "VIEW" then
    viewBody g do
      if ← symbol "(" then
        unless ← symbol ")" do
          let _ ← commaSeparated identifier
          expectSymbol ")"
    return .other (headline (lead ++ (if materialized then "MATERIALIZED " else "") ++
      temporaryWord ++ "VIEW"))
  if materialized then expected "VIEW"
  if ← keyword "POLICY" then return ← headed "CREATE POLICY" (createPolicy g)
  if ← keyword "EXTERNAL" then return .createTable (← createExternalTable g)
  if ← keyword "SECRET" then
    createSecret
    return .other (headline (lead ++ temporaryWord ++ "SECRET"))
  if orReplace then
    expected "[EXTERNAL] TABLE or [MATERIALIZED] VIEW or FUNCTION after CREATE OR REPLACE"
  firstOf (expected "an object type after CREATE") [
    (["EXTENSION"], headed "CREATE EXTENSION" createExtension),
    (["INDEX"], headed "CREATE INDEX" (createIndex g)),
    (["UNIQUE", "INDEX"], headed "CREATE UNIQUE" (createIndex g)),
    (["VIRTUAL"], headed "CREATE VIRTUAL" createVirtualTable),
    (["SCHEMA"], headed "CREATE SCHEMA" createSchema),
    (["DATABASE"], headed "CREATE DATABASE" createDatabase),
    (["ROLE"], headed "CREATE ROLE" createRole),
    (["SEQUENCE"], headed (if temporary then "CREATE TEMPORARY" else "CREATE SEQUENCE")
      createSequence),
    (["TYPE"], headed "CREATE TYPE" createType),
    (["PROCEDURE"], headed (if orAlter then "CREATE OR" else "CREATE PROCEDURE")
      (createProcedure g))]

def columnChange : Reader Unit := do
  if ← anyKeywords [["SET", "NOT", "NULL"], ["DROP", "NOT", "NULL"], ["DROP", "DEFAULT"]] then
    return ()
  else if ← keywords ["SET", "DEFAULT"] then
    let _ ← expr g
  else if ← keywords ["SET", "DATA", "TYPE"] then
    let _ ← typeName
  else if ← keywords ["ADD", "GENERATED"] then
    let _ ← anyKeywords [["ALWAYS"], ["BY", "DEFAULT"]]
    expectKeywords ["AS", "IDENTITY"]
    if ← symbol "(" then
      sequenceOptions
      expectSymbol ")"
  else expected "SET/DROP NOT NULL, SET DEFAULT, or SET DATA TYPE after ALTER COLUMN"

def tableChange : Reader Unit := do
  let parts : Reader Unit := do
    let _ ← parenthesized (commaSeparated (expr g))
  if ← keyword "ADD" then
    unless ← tableConstraint? g do
      let _ ← ifNotExists
      if ← peekKeyword "PARTITION" then
        loop (fun () => do
          if ← keyword "PARTITION" then
            parts
            return some ()
          else return none) ()
      else
        let _ ← keyword "COLUMN"
        let _ ← columnDef g
  else if ← keyword "RENAME" then
    if ← keyword "TO" then
      let _ ← objectName
    else
      let _ ← keyword "COLUMN"
      let _ ← identifier
      expectKeyword "TO"
      let _ ← identifier
  else if ← keyword "DISABLE" then
    unless ← keywords ["ROW", "LEVEL", "SECURITY"] do
      require ["RULE", "TRIGGER"] "ROW LEVEL SECURITY, RULE, or TRIGGER after DISABLE"
      let _ ← identifier
  else if ← keyword "ENABLE" then
    unless ← keywords ["ROW", "LEVEL", "SECURITY"] do
      unless ← anyKeywords [["ALWAYS", "RULE"], ["ALWAYS", "TRIGGER"], ["REPLICA", "RULE"],
          ["REPLICA", "TRIGGER"], ["RULE"], ["TRIGGER"]] do
        expected "ALWAYS, REPLICA, ROW LEVEL SECURITY, RULE, or TRIGGER after ENABLE"
      let _ ← identifier
  else if ← keyword "DROP" then
    if ← anyKeywords [["IF", "EXISTS", "PARTITION"], ["PARTITION"]] then parts
    else
      unless ← keyword "CONSTRAINT" do
        let _ ← keywords ["PRIMARY", "KEY"]
        let _ ← keyword "COLUMN"
      let _ ← ifExists
      let _ ← identifier
      let _ ← keyword "CASCADE"
  else if ← keyword "PARTITION" then
    parts
    expectKeywords ["RENAME", "TO", "PARTITION"]
    parts
  else if ← keyword "CHANGE" then
    let _ ← keyword "COLUMN"
    let _ ← identifier
    let _ ← identifier
    let _ ← typeName
    let _ ← columnOptions g
  else if ← keyword "MODIFY" then
    let _ ← keyword "COLUMN"
    let _ ← identifier
    let _ ← typeName
    let _ ← columnOptions g
  else if ← keyword "ALTER" then
    let _ ← keyword "COLUMN"
    let _ ← identifier
    columnChange g
  else if ← keyword "SWAP" then
    expectKeyword "WITH"
    let _ ← objectName
  else
    unless ← options? g ["SET", "TBLPROPERTIES"] do
      expected "ADD, RENAME, PARTITION, SWAP, DROP, or SET TBLPROPERTIES after ALTER TABLE"

def alterRole : Reader Unit := do
  let _ ← identifier
  if ← anyKeywords [["ADD", "MEMBER"], ["DROP", "MEMBER"]] then
    let _ ← identifier
  else if ← keywords ["WITH", "NAME"] then
    expectSymbol "="
    let _ ← identifier
  else expected "'ADD' or 'DROP' or 'WITH NAME' after ALTER ROLE"

def alter : Reader Statement := do
  if ← keyword "TABLE" then
    let _ ← ifExists
    let _ ← keyword "ONLY"
    let _ ← objectName
    cluster?
    let _ ← commaSeparated (tableChange g)
    if ← anyKeywords [["LOCATION"], ["SET", "LOCATION"]] then
      let _ ← identifier
    return .other "ALTER TABLE"
  else if ← keyword "VIEW" then
    let _ ← objectName
    let _ ← columnList?
    let _ ← options? g ["WITH"]
    expectKeyword "AS"
    let _ ← g.query
    return .other "ALTER VIEW"
  else if ← keyword "INDEX" then
    let _ ← objectName
    expectKeywords ["RENAME", "TO"]
    let _ ← objectName
    return .other "ALTER INDEX"
  else if ← keyword "ROLE" then
    alterRole
    return .other "ALTER ROLE"
  else if ← keyword "POLICY" then
    let _ ← identifier
    expectKeyword "ON"
    let _ ← objectName
    if ← keyword "RENAME" then
      expectKeyword "TO"
      let _ ← identifier
    else policyConditions g
    return .other "ALTER POLICY"
  else expected "one of VIEW or TABLE or INDEX or ROLE or POLICY"

/-- A parameter of a function: perhaps its mode and name, then its type, perhaps with a default. -/
def functionParameter : Reader Unit := do
  let _ ← oneOf ["IN", "OUT", "INOUT"]
  match ← typeName with
  | .named _ =>
    let _ ← typeName
  | .standard _ => pure ()
  let hasDefault ← do
    if ← keyword "DEFAULT" then pure true else symbol "="
  if hasDefault then
    let _ ← expr g

def drop : Reader Statement := do
  match ← oneOf ["TABLE", "VIEW", "INDEX", "ROLE", "SCHEMA", "DATABASE", "SEQUENCE", "STAGE",
      "TYPE"] with
  | some kind =>
    let ifExists ← ifExists
    let names ← commaSeparated objectName
    let cascade ← keyword "CASCADE"
    let restrict ← keyword "RESTRICT"
    let purge ← keyword "PURGE"
    if cascade && restrict then fail "Cannot specify both CASCADE and RESTRICT in DROP"
    if kind = "ROLE" && (cascade || restrict || purge) then
      fail "Cannot specify CASCADE, RESTRICT, or PURGE in DROP ROLE"
    return .drop ⟨kind, ifExists, names⟩
  | none =>
    match ← oneOf ["FUNCTION", "PROCEDURE", "POLICY", "SECRET"] with
    | some "POLICY" =>
      let _ ← ifExists
      let _ ← identifier
      expectKeyword "ON"
      let _ ← objectName
      let _ ← oneOf ["CASCADE", "RESTRICT"]
      return .other "DROP POLICY"
    | some "SECRET" =>
      let _ ← ifExists
      let _ ← identifier
      also ["FROM"] identifier
      return .other "DROP SECRET"
    | some kind =>
      let _ ← ifExists
      let _ ← commaSeparated do
        let _ ← objectName
        if ← symbol "(" then
          unless ← symbol ")" do
            let _ ← commaSeparated (functionParameter g)
            expectSymbol ")"
      let _ ← oneOf ["CASCADE", "RESTRICT"]
      return .other ("DROP " ++ kind)
    | none => expected "TABLE, VIEW, INDEX, ROLE, SCHEMA, FUNCTION or PROCEDURE after DROP"

end

end Reader

end BatchPlan.Sql
