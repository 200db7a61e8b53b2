import BatchPlan.Sql.Grammar.Basic

namespace BatchPlan.Sql.Reader

def precision? : Reader (Option Nat) := do
  if ← symbol "(" then
    let n ← literalNat
    expectSymbol ")"
    return some n
  else return none

def precisionScale? : Reader (Option (Nat × Option Nat)) := do
  if ← symbol "(" then
    let p ← literalNat
    let scale ← do
      if ← symbol "," then pure (some (← literalNat)) else pure none
    expectSymbol ")"
    return some (p, scale)
  else return none

def precisionText : Option Nat → String
  | some n => "(" ++ toString n ++ ")"
  | none => ""

def natShape (n : Option Nat) : String :=
  Shape.option (n.map toString)

/-- What follows the name of a type: its text, and the structure of the parts it stands for. -/
structure TypeParts where
  text : String := ""
  shapes : List String := []
  unsigned : Bool := false

def precisionPart : Reader TypeParts := do
  let p ← precision?
  return { text := precisionText p, shapes := [natShape p] }

def charactersPart : Reader TypeParts := do
  if ← symbol "(" then
    let (text, shape) ← do
      if ← keyword "MAX" then pure ("MAX", "Max")
      else
        let n := toString (← literalNat)
        let unit ← oneOf ["CHARACTERS", "OCTETS"]
        pure (n ++ spaced unit.toList, Shape.record "IntegerLength"
          [("length", n), ("unit", Shape.option (unit.map Shape.capitalized))])
    expectSymbol ")"
    return { text := "(" ++ text ++ ")", shapes := [Shape.option (some shape)] }
  else return { shapes := [Shape.option none] }

def decimalPart : Reader TypeParts := do
  match ← precisionScale? with
  | none => return { shapes := ["None"] }
  | some (p, none) =>
    return { text := "(" ++ toString p ++ ")", shapes := [Shape.tuple "Precision" [toString p]] }
  | some (p, some s) =>
    return { text := "(" ++ toString p ++ "," ++ toString s ++ ")",
             shapes := [Shape.tuple "PrecisionAndScale" [toString p, toString s]] }

def timePart : Reader TypeParts := do
  let p ← precision?
  let zone ← oneOf ["WITH", "WITHOUT"]
  if zone.isSome then expectKeywords ["TIME", "ZONE"]
  return { text := precisionText p ++ spaced (zone.map fun word => word ++ " TIME ZONE").toList,
           shapes := [natShape p,
             (zone.map fun word => Shape.capitalized word ++ "TimeZone").getD "None"] }

def zonedPart : Reader TypeParts := do
  let p ← precision?
  return { text := precisionText p, shapes := [natShape p, "Tz"] }

def momentPart : Reader TypeParts :=
  parenthesized do
    let p := toString (← literalNat)
    let zone ← do
      if ← symbol "," then pure (some (← literalString)) else pure none
    let zoneText := match zone with
      | some z => ", '" ++ z ++ "'"
      | none => ""
    return { text := "(" ++ p ++ zoneText ++ ")",
             shapes := [p, Shape.option (zone.map Shape.quoted)] }

def lengthPart : Reader TypeParts :=
  parenthesized do
    let n := toString (← literalNat)
    return { text := "(" ++ n ++ ")", shapes := [n] }

def stringsPart : Reader TypeParts := do
  let items ← parenthesized <| commaSeparated do
    match ← peek with
    | .string value => accept value
    | _ => expected "a string"
  return { text := "(" ++ commas (items.map (quotedText '\'')) ++ ")",
           shapes := [Shape.list (items.map Shape.quoted)] }

def typeModifiers? : Reader (List String) := do
  if ← symbol "(" then
    let (items, _) ← loop (fun (items, closed) => do
      if closed then return none
      match ← next with
      | .word value quote => return some (Token.text (.word value quote) :: items, false)
      | .number digits _ => return some (digits :: items, false)
      | .string value => return some (value :: items, false)
      | .symbol "," => return some (items, false)
      | .symbol ")" => return some (items, true)
      | _ => expected "type modifiers") (([] : List String), false)
    return items.reverse
  else return []

inductive TypeTail where
  | nothing
  | precision
  | unsigned
  | characters
  | decimal
  | time
  | zoned
  | moment
  | length
  | strings
deriving DecidableEq, Repr

/-- A standard name: its keyword, the name of its structure, and what follows it. -/
structure StandardType where
  keyword : String
  shape : String
  tail : TypeTail := .nothing
deriving DecidableEq, Repr

def standardTypes : List StandardType :=
  [⟨"BOOLEAN", "Boolean", .nothing⟩, ⟨"BOOL", "Bool", .nothing⟩, ⟨"REAL", "Real", .nothing⟩,
    ⟨"FLOAT4", "Float4", .nothing⟩, ⟨"FLOAT32", "Float32", .nothing⟩,
    ⟨"FLOAT64", "Float64", .nothing⟩,
    ⟨"FLOAT8", "Float8", .nothing⟩, ⟨"INT16", "Int16", .nothing⟩, ⟨"INT32", "Int32", .nothing⟩,
    ⟨"INT64", "Int64", .nothing⟩, ⟨"INT128", "Int128", .nothing⟩, ⟨"INT256", "Int256", .nothing⟩,
    ⟨"UINT8", "UInt8", .nothing⟩, ⟨"UINT16", "UInt16", .nothing⟩, ⟨"UINT32", "UInt32", .nothing⟩,
    ⟨"UINT64", "UInt64", .nothing⟩, ⟨"UINT128", "UInt128", .nothing⟩,
    ⟨"UINT256", "UInt256", .nothing⟩,
    ⟨"UUID", "Uuid", .nothing⟩, ⟨"DATE", "Date", .nothing⟩, ⟨"DATE32", "Date32", .nothing⟩,
    ⟨"INTERVAL", "Interval", .nothing⟩, ⟨"JSON", "JSON", .nothing⟩, ⟨"JSONB", "JSONB", .nothing⟩,
    ⟨"REGCLASS", "Regclass", .nothing⟩, ⟨"TEXT", "Text", .nothing⟩, ⟨"BYTEA", "Bytea", .nothing⟩,
    ⟨"TRIGGER", "Trigger", .nothing⟩, ⟨"FLOAT", "Float", .precision⟩, ⟨"CLOB", "Clob", .precision⟩,
    ⟨"BINARY", "Binary", .precision⟩, ⟨"VARBINARY", "Varbinary", .precision⟩,
    ⟨"BLOB", "Blob", .precision⟩, ⟨"BYTES", "Bytes", .precision⟩,
    ⟨"DATETIME", "Datetime", .precision⟩,
    ⟨"STRING", "String", .precision⟩, ⟨"TINYINT", "TinyInt", .unsigned⟩,
    ⟨"INT2", "Int2", .unsigned⟩,
    ⟨"SMALLINT", "SmallInt", .unsigned⟩, ⟨"MEDIUMINT", "MediumInt", .unsigned⟩,
    ⟨"INT", "Int", .unsigned⟩, ⟨"INT4", "Int4", .unsigned⟩, ⟨"INT8", "Int8", .unsigned⟩,
    ⟨"INTEGER", "Integer", .unsigned⟩, ⟨"BIGINT", "BigInt", .unsigned⟩,
    ⟨"VARCHAR", "Varchar", .characters⟩, ⟨"NVARCHAR", "Nvarchar", .characters⟩,
    ⟨"NUMERIC", "Numeric", .decimal⟩, ⟨"DECIMAL", "Decimal", .decimal⟩, ⟨"DEC", "Dec", .decimal⟩,
    ⟨"BIGNUMERIC", "BigNumeric", .decimal⟩, ⟨"BIGDECIMAL", "BigDecimal", .decimal⟩,
    ⟨"TIMESTAMP", "Timestamp", .time⟩, ⟨"TIME", "Time", .time⟩,
    ⟨"TIMESTAMPTZ", "Timestamp", .zoned⟩,
    ⟨"TIMETZ", "Time", .zoned⟩, ⟨"DATETIME64", "Datetime64", .moment⟩,
    ⟨"FIXEDSTRING", "FixedString", .length⟩, ⟨"ENUM", "Enum", .strings⟩, ⟨"SET", "Set", .strings⟩]

def mixedTypeNames : List String :=
  ["Int16", "Int32", "Int128", "Int256", "UInt8", "UInt16", "UInt32", "UInt64",
    "UInt128", "UInt256",
    "Float32", "Date32", "DateTime64", "FixedString"]

def standardSpelling (name : String) : String :=
  (mixedTypeNames.find? fun n => Text.upperAscii n == name).getD name

def TypeTail.read : TypeTail → Reader TypeParts
  | .nothing => return {}
  | .precision => precisionPart
  | .unsigned => do
    let p ← precisionPart
    if ← keyword "UNSIGNED" then return { p with text := p.text ++ " UNSIGNED", unsigned := true }
    else return p
  | .characters => charactersPart
  | .decimal => decimalPart
  | .time => timePart
  | .zoned => zonedPart
  | .moment => momentPart
  | .length => lengthPart
  | .strings => stringsPart

def standardType (spelling shape : String) (parts : TypeParts) : TypeName :=
  let name := if parts.unsigned then "Unsigned" ++ shape else shape
  .standard ⟨spelling ++ parts.text, if parts.shapes.isEmpty then name else Shape.tuple
    name parts.shapes⟩

/-- CHAR and CHARACTER, which may go on as varying or large. -/
def characterType (name : String) : Reader TypeName := do
  let shape := Shape.capitalized name
  if ← keyword "VARYING" then
    return standardType (name ++ " VARYING") (shape ++ "Varying") (← charactersPart)
  else if ← keywords ["LARGE", "OBJECT"] then
    return standardType (name ++ " LARGE OBJECT") (shape ++ "LargeObject") (← precisionPart)
  else return standardType name shape (← charactersPart)

/-- The end of the element type of an array. A `>>` also closes the array around it, and `closed`
says that the array inside has already done so. -/
def closingAngle (closed : Bool) : Reader Bool := do
  if closed then return false
  else if ← symbol ">" then return false
  else if ← symbol ">>" then return true
  else expected ">"

/-- A type, and whether a `>` beyond its own end was taken; the fuel bounds the nesting. -/
def typeNameWithin : Nat → Reader (TypeName × Bool)
  | 0 => fail "recursion limit exceeded"
  | fuel + 1 => do
    match ← peek with
    | .word value quote =>
      let name := if quote.isNone then keywordForm value else ""
      match standardTypes.find? fun t => t.keyword == name with
      | some t =>
        let _ ← next
        return (standardType (standardSpelling name) t.shape (← t.tail.read), false)
      | none =>
        if name = "DOUBLE" then
          let _ ← next
          if ← keyword "PRECISION" then
            return (standardType "DOUBLE PRECISION" "DoublePrecision" {}, false)
          else return (standardType "DOUBLE" "Double" {}, false)
        else if name = "CHAR" || name = "CHARACTER" then
          let _ ← next
          return (← characterType name, false)
        else if name = "ARRAY" then
          let _ ← next
          expectSymbol "<"
          let (element, closed) ← typeNameWithin fuel
          let shape := Shape.tuple "Array" [Shape.tuple "AngleBracket" [element.shape]]
          return (.standard ⟨"ARRAY<" ++ element.text ++ ">", shape⟩, ← closingAngle closed)
        else
          let custom ← objectName
          let modifiers ← typeModifiers?
          let text := if modifiers.isEmpty then "" else "(" ++ commas modifiers ++ ")"
          let shape := Shape.tuple "Custom" [custom.shape, Shape.list (modifiers.map Shape.quoted)]
          return (.named ⟨custom.text ++ text, shape⟩, false)
    | _ => expected "a data type name"

def typeName : Reader TypeName := do
  match ← typeNameWithin ((← remaining).length + 1) with
  | (type, false) => return type
  | (_, true) => fail "unmatched > after parsing data type"

end BatchPlan.Sql.Reader
