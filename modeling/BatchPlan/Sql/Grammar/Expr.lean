import BatchPlan.Sql.Grammar.TypeName

namespace BatchPlan.Sql

/-- The readers that a production calls one level deeper. -/
structure Nested where
  prior : Bool
  /-- An expression whose operators bind tighter than the given strength. -/
  expr : Nat → Reader Expr
  operand : Reader Expr
  linkExpr : Reader Expr
  query : Reader Query
  source : Reader (Source Query)
  statement : Reader Statement

namespace Strength

def or : Nat := 5
def and : Nat := 10
def not : Nat := 15
def jsonOperator : Nat := 16
def is : Nat := 17
def like : Nat := 19
def comparison : Nat := 20
def bitOr : Nat := 21
def bitXor : Nat := 22
def bitAnd : Nat := 23
def xor : Nat := 24
def sum : Nat := 30
def product : Nat := 40
def atTimeZone : Nat := 41
def cast : Nat := 50

/-- The strength of an operator that is a symbol; 0 for all other symbols. -/
def ofSymbol (s : String) : Nat :=
  if s ∈ ["=", "==", "<>", "<", "<=", ">", ">=", "<=>", "~", "~*", "!~", "!~*", "~~", "~~*", "!~~",
      "!~~*"] then comparison
  else if s = "|" then bitOr
  else if s ∈ ["^", "#", "<<", ">>"] then bitXor
  else if s = "&" then bitAnd
  else if s ∈ ["+", "-"] then sum
  else if s ∈ ["*", "/", "%", "||"] then product
  else if s ∈ ["::", "!", "&&", "^@"] then cast
  else if s ∈ ["->", "->>", "#>", "#>>", "@>", "<@", "#-", "@?", "@@"] then jsonOperator
  else 0

/-- The strength of an operator that is a word, with the two tokens after it. -/
def ofWord (w : String) (second third : Token) : Nat :=
  match w with
  | "OR" => or
  | "AND" => and
  | "XOR" => xor
  | "IS" => is
  | "DIV" => product
  | "AT" =>
    if Reader.isKeyword "TIME" second && Reader.isKeyword "ZONE" third then atTimeZone else 0
  | "IN" | "BETWEEN" | "OPERATOR" => comparison
  | "LIKE" | "ILIKE" | "RLIKE" | "REGEXP" | "SIMILAR" => like
  | "NOT" =>
    if ["IN", "BETWEEN"].any fun kw => Reader.isKeyword kw second then comparison
    else if ["LIKE", "ILIKE", "RLIKE", "REGEXP", "SIMILAR"].any fun kw => Reader.isKeyword kw second
    then like
    else 0
  | _ => 0

end Strength

namespace Reader

def strength : Reader Nat := do
  match ← peek with
  | .symbol s => return Strength.ofSymbol s
  | .word w none => return Strength.ofWord (keywordForm w) (← peekNth 1) (← peekNth 2)
  | _ => return 0

def binaryOperator? : Token → Option String
  | .symbol s =>
    if s = "==" then some "="
    else if s ∈ ["=", "<>", "<", "<=", ">", ">=", "<=>", "~", "~*", "!~", "!~*", "~~", "~~*", "!~~",
        "!~~*", "|", "^", "&", "+", "-", "*", "/", "%", "||", "->", "->>", "#>",
          "#>>", "@>", "<@", "#-",
        "@?", "@@"] then some s
    else none
  | .word w none =>
    let w := keywordForm w
    if w ∈ ["AND", "OR", "XOR"] then some w else none
  | _ => none

def timeUnits : List String :=
  ["YEAR", "MONTH", "WEEK", "DAY", "HOUR", "MINUTE", "SECOND", "CENTURY", "DECADE", "DOW", "DOY",
    "EPOCH", "ISODOW", "ISOYEAR", "JULIAN", "MICROSECOND", "MICROSECONDS",
      "MILLENIUM", "MILLENNIUM",
    "MILLISECOND", "MILLISECONDS", "NANOSECOND", "NANOSECONDS", "QUARTER", "TIMEZONE",
    "TIMEZONE_HOUR", "TIMEZONE_MINUTE"]

def dateParts : List String :=
  timeUnits ++ ["DAYOFWEEK", "DAYOFYEAR", "DATE", "DATETIME", "ISOWEEK", "TIME", "TIMEZONE_ABBR",
    "TIMEZONE_REGION"]

def datePart : Reader String := do
  match ← oneOf dateParts with
  | some part => return part
  | none => expected "date/time field"

def peekQuery : Reader Bool := do
  return (← peekKeyword "SELECT") || (← peekKeyword "WITH")

/-- What may stand in a select list or an argument list. -/
inductive Item where
  | expr (e : Expr)
  | star
  | tableStar (table : ObjectName)

def dottedTail : Reader (List Ident × Bool) := do
  let (parts, star) ← loop (fun (parts, star) => do
    if star then return none
    if ← symbol "." then
      match ← next with
      | .word value quote => return some (⟨value, quote⟩ :: parts, false)
      | .string value => return some (⟨value, some '\''⟩ :: parts, false)
      | .symbol "*" => return some (parts, true)
      | _ => fail "Expected: an identifier or a '*' after '.'"
    else return none) (([] : List Ident), false)
  return (parts.reverse, star)

section

variable (g : Nested)

def expr : Reader Expr :=
  g.expr 0

def star? : Reader (Option Item) :=
  tentative do
    match ← peek with
    | .symbol "*" => accept (some .star)
    | .word value quote =>
      let _ ← next
      let (parts, star) ← dottedTail
      return if star then some (.tableStar ⟨⟨value, quote⟩ :: parts⟩) else none
    | .string value =>
      let _ ← next
      let (parts, star) ← dottedTail
      return if star then some (.tableStar ⟨⟨value, some '\''⟩ :: parts⟩) else none
    | _ => return none

def item : Reader Item := do
  match ← star? with
  | some found => return found
  | none => return .expr (← expr g)

def orderItem : Reader (OrderItem Expr) := do
  let e ← expr g
  let ascending ← do
    match ← oneOf ["ASC", "DESC"] with
    | some word => pure (some (word == "ASC"))
    | none => pure none
  let nullsFirst ← do
    if ← keywords ["NULLS", "FIRST"] then pure (some true)
    else if ← keywords ["NULLS", "LAST"] then pure (some false)
    else pure none
  return ⟨e, ascending, nullsFirst⟩

def orderItems : Reader (List (OrderItem Expr)) :=
  commaSeparated (orderItem g)

def orderBy? : Reader (List (OrderItem Expr)) := do
  if ← keywords ["ORDER", "BY"] then orderItems g else return []

def argument : Reader (Argument Expr) := do
  let label ← do
    if (← peekNth 1) = .symbol "=>" then
      let name ← identifier
      expectSymbol "=>"
      pure (some name)
    else pure none
  match ← item g with
  | .expr e => return .value label e
  | .star => return .star label
  | .tableStar table => return .tableStar label table

/-- What becomes of a list that is too long. -/
def overflow? : Reader (Option Rendered) := do
  if ← keywords ["ON", "OVERFLOW"] then
    if ← keyword "ERROR" then return some ⟨"ON OVERFLOW ERROR", Shape.tuple "OnOverflow" ["Error"]⟩
    expectKeyword "TRUNCATE"
    let filler ← do
      match ← peek with
      | .string _ | .national _ | .hex _ => pure (some (← expr g))
      | t =>
        if isKeyword "WITH" t || isKeyword "WITHOUT" t then pure none
        else expected "either filler, WITH, or WITHOUT in LISTAGG"
    match ← oneOf ["WITH", "WITHOUT"] with
    | some word =>
      expectKeyword "COUNT"
      return some ⟨"ON OVERFLOW TRUNCATE" ++ optionText " " filler ++ " " ++ word ++ " COUNT",
        Shape.tuple "OnOverflow" [Shape.record "Truncate"
          [("filler", optionShape filler), ("with_count", Shape.truth (word == "WITH"))]]⟩
    | none => expected "either WITH or WITHOUT in LISTAGG"
  else return none

def orderClause (order : List (OrderItem Expr)) : Option Rendered :=
  if order.isEmpty then none
  else some ⟨"ORDER BY " ++ commas (order.map orderText),
    Shape.tuple "OrderBy" [Shape.list (order.map orderShape)]⟩

def arguments : Reader (Arguments Expr) := do
  if ← symbol ")" then return .list none [] []
  let all ← keyword "ALL"
  let distinct ← keyword "DISTINCT"
  if all && distinct then fail "Cannot specify both ALL and DISTINCT"
  let args ← commaSeparated (argument g)
  let order ← orderBy? g
  let limitClause ← do
    if ← keyword "LIMIT" then
      let e ← expr g
      pure (some ⟨"LIMIT " ++ e.text, Shape.tuple "Limit" [e.shape]⟩)
    else pure none
  let overflowClause ← overflow? g
  expectSymbol ")"
  let treatment := if distinct then some true else if all then some false else none
  return .list treatment args
    ((orderClause order).toList ++ limitClause.toList ++ overflowClause.toList)

structure IntervalParts where
  leading : Option Nat := none
  last : Option String := none
  fraction : Option Nat := none

def intervalParts (unit : Option String) : Reader IntervalParts := do
  if unit = some "SECOND" then
    match ← precisionScale? with
    | some (p, fraction) => return { leading := some p, fraction }
    | none => return {}
  else
    let leading ← precision?
    if ← keyword "TO" then
      let last ← datePart
      let fraction ← if last = "SECOND" then precision? else pure none
      return { leading, last := some last, fraction }
    else return { leading }

/-- The numbers of a unit of time: one in parentheses, or two of a unit that has both. -/
def IntervalParts.text (p : IntervalParts) : String :=
  let number (n : Option Nat) : List String := (n.map fun n => precisionText (some n)).toList
  match p.leading, p.last, p.fraction with
  | some n, none, some m => " (" ++ toString n ++ ", " ++ toString m ++ ")"
  | _, _, _ =>
    spaced (number p.leading ++ (p.last.map fun unit => "TO " ++ unit).toList ++ number p.fraction)

def interval : Reader Expr := do
  let value ← g.operand
  let unit ← oneOf timeUnits
  let parts ← intervalParts unit
  return .other ⟨"INTERVAL " ++ value.text ++ spaced unit.toList ++ parts.text,
    Shape.tuple "Interval" [Shape.record "Interval" [("value", value.shape),
      ("leading_field", Shape.option (unit.map datePartShape)),
      ("leading_precision", natShape parts.leading),
      ("last_field", Shape.option (parts.last.map datePartShape)),
      ("fractional_seconds_precision", natShape parts.fraction)]]⟩

def frameBound : Reader FrameBound := do
  if ← keywords ["CURRENT", "ROW"] then return .currentRow
  let distance ← do
    if ← keyword "UNBOUNDED" then pure none
    else
      let e ← do
        match ← peek with
        | .string _ => interval g
        | _ => expr g
      let digits :=
        match e with
        | .literal (.number digits _) => some digits
        | _ => none
      pure (some ⟨e.rendered, digits⟩)
  if ← keyword "PRECEDING" then return .preceding distance
  else if ← keyword "FOLLOWING" then return .following distance
  else expected "PRECEDING or FOLLOWING"

def frame : Reader Frame := do
  let units ← do
    match ← oneOf ["ROWS", "RANGE", "GROUPS"] with
    | some "ROWS" => pure FrameUnits.rows
    | some "RANGE" => pure FrameUnits.range
    | some _ => pure FrameUnits.groups
    | none => expected "ROWS, RANGE, GROUPS"
  if ← keyword "BETWEEN" then
    let start ← frameBound g
    expectKeyword "AND"
    return ⟨units, start, some (← frameBound g)⟩
  else return ⟨units, ← frameBound g, none⟩

def windowSpec : Reader (Window Expr) := do
  let base ← do
    match ← peek with
    | .word value quote =>
      if quote.isSome || !(Sql.keywords.contains (keywordForm value)) then
        let _ ← next
        pure (some ⟨value, quote⟩)
      else pure none
    | _ => pure none
  let partitionBy ← do
    if ← keywords ["PARTITION", "BY"] then commaSeparated (expr g) else pure []
  let order ← orderBy? g
  if ← symbol ")" then return .spec base partitionBy order none
  let f ← frame g
  expectSymbol ")"
  return .spec base partitionBy order (some f)

def call (name : ObjectName) : Reader (Call Expr) := do
  expectSymbol "("
  let args ← arguments g
  let withinGroup ← do
    if ← keywords ["WITHIN", "GROUP"] then
      parenthesized do
        expectKeywords ["ORDER", "BY"]
        orderItems g
    else pure []
  let ignoreNulls ← do
    match ← oneOf ["RESPECT", "IGNORE"] with
    | some word =>
      expectKeyword "NULLS"
      pure (some (word == "IGNORE"))
    | none => pure none
  let window ← do
    if ← keyword "OVER" then
      if ← symbol "(" then pure (some (← windowSpec g))
      else pure (some (.named (← identifier)))
    else pure none
  return ⟨name, args, withinGroup, ignoreNulls, window⟩

def typedString : Reader Expr := do
  match ← typeName with
  | .standard form =>
    if form.text = "INTERVAL" then interval g
    else return .typed (.standard form) (← literalString)
  | .named _ => expected "a standard type"

def caseExpr : Reader Expr := do
  let operand ← do
    if ← keyword "WHEN" then pure none
    else
      let e ← expr g
      expectKeyword "WHEN"
      pure (some e)
  let branch : Reader (Expr × Expr) := do
    let condition ← expr g
    expectKeyword "THEN"
    return (condition, ← expr g)
  let first ← branch
  let branches ← loop (fun branches => do
    if ← keyword "WHEN" then return some ((← branch) :: branches) else return none) [first]
  let otherwise ← do
    if ← keyword "ELSE" then pure (some (← expr g)) else pure none
  expectKeyword "END"
  return .case operand branches.reverse otherwise

def castExpr (form : CastForm) : Reader Expr :=
  parenthesized do
    let e ← expr g
    expectKeyword "AS"
    let type ← typeName
    let format ← do
      if ← keyword "FORMAT" then
        let pattern ← literal
        if ← keywords ["AT", "TIME", "ZONE"] then
          let zone ← literal
          pure (some ⟨pattern.text ++ " AT TIME ZONE " ++ zone.text,
            Shape.tuple "ValueAtTimeZone" [pattern.shape, zone.shape]⟩)
        else pure (some ⟨pattern.text, Shape.tuple "Value" [pattern.shape]⟩)
      else pure none
    return .cast form e type format

def convertExpr (try_ : Bool) : Reader Expr :=
  parenthesized do
    let type ← typeName
    expectSymbol ","
    let e ← expr g
    let styles ← do
      if ← symbol "," then commaSeparated (expr g) else pure []
    return .convert try_ type e styles

def existsExpr (negated : Bool) : Reader Expr := do
  return .exists (← parenthesized g.query) negated

def notExpr : Reader Expr := do
  if ← keyword "EXISTS" then existsExpr g true
  else return .unary .not (← g.expr Strength.not)

def extractExpr : Reader Expr :=
  parenthesized do
    let part ← datePart
    expectKeyword "FROM"
    let e ← expr g
    return .other ⟨"EXTRACT(" ++ part ++ " FROM " ++ e.text ++ ")", Shape.record "Extract"
      [("field", datePartShape part), ("syntax", "From"), ("expr", e.shape)]⟩

def roundExpr (up : Bool) : Reader Expr :=
  parenthesized do
    let e ← expr g
    if ← keyword "TO" then return .round up e (.datePart (← datePart))
    else if ← symbol "," then
      match ← literal with
      | .number digits long => return .round up e (.scale (.number digits long))
      | _ => fail "Scale field can only be of number type"
    else return .round up e .whole

def positionExpr (name : Ident) : Reader Expr := do
  let special ← attempt <| parenthesized do
    let e ← g.expr Strength.comparison
    expectKeyword "IN"
    let whole ← expr g
    return ExprOf.other ⟨"POSITION(" ++ e.text ++ " IN " ++ whole.text ++ ")",
      Shape.record "Position" [("expr", e.shape), ("in", whole.shape)]⟩
  match special with
  | some e => return e
  | none => return .call (← call g ⟨[name]⟩)

def substringExpr : Reader Expr :=
  parenthesized do
    let e ← expr g
    let separated ← symbol ","
    let start ← do
      if separated then pure (some (← expr g))
      else if ← keyword "FROM" then pure (some (← expr g))
      else pure none
    let length ← do
      if ← keyword "FOR" then pure (some (← expr g))
      else if ← symbol "," then pure (some (← expr g))
      else pure none
    return .substring e start length separated

def overlayExpr : Reader Expr :=
  parenthesized do
    let e ← expr g
    expectKeyword "PLACING"
    let what ← expr g
    expectKeyword "FROM"
    let start ← expr g
    let length ← do
      if ← keyword "FOR" then pure (some (← expr g)) else pure none
    return .other
      ⟨"OVERLAY(" ++ e.text ++ " PLACING " ++ what.text ++ " FROM " ++ start.text ++
          optionText " FOR " length ++ ")",
        Shape.record "Overlay" [("expr", e.shape), ("overlay_what", what.shape),
          ("overlay_from", start.shape), ("overlay_for", optionShape length)]⟩

/-- TRIM after its keyword. A comma before the closing parenthesis does not count. -/
def trimExpr : Reader Expr :=
  parenthesized do
    let side ← oneOf ["BOTH", "LEADING", "TRAILING"]
    let e ← expr g
    if ← keyword "FROM" then return .trim (← expr g) side (some e)
    else
      let _ ← symbol ","
      return .trim e side none

def introduced (name : Ident) (value : Literal) : Expr :=
  .other ⟨name.value ++ " " ++ value.text, Shape.record "IntroducedString"
    [("introducer", Shape.quoted name.value), ("value", value.shape)]⟩

def nameExpr : List Ident → Expr
  | [name] => .ident name
  | parts => .compound parts

/-- A name, a call, or one of the rare forms that start like them. -/
def named (name : Ident) : Reader Expr := do
  let plain : Expr := .ident name
  match ← peek with
  | .symbol "(" | .symbol "." =>
    let (parts, star) ← dottedTail
    if star then fail "Expected: an identifier after '.'"
    let names := name :: parts
    if (← peek) = .symbol "(" then
      if (← peekNth 1) = .symbol "+" && (← peekNth 2) = .symbol ")" then
        skip 3
        let name := nameExpr names
        return .other ⟨name.text ++ " (+)", Shape.tuple "OuterJoin" [name.shape]⟩
      else return .call (← call g ⟨names⟩)
    else return .compound names
  | .string value =>
    if name.value.startsWith "_" then
      let _ ← next
      return introduced name (.string value)
    else return plain
  | .hex digits =>
    if name.value.startsWith "_" then
      let _ ← next
      return introduced name (.hex digits)
    else return plain
  | _ => return plain

def timeFunction (name : Ident) : Reader Expr := do
  let args ← do
    if ← symbol "(" then arguments g else pure .none
  return .call ⟨⟨[name]⟩, args, [], none, none⟩

def wordExpr (value : String) (quote : Option Char) : Reader Expr := do
  let name : Ident := ⟨value, quote⟩
  match if quote.isNone then keywordForm value else "" with
  | "TRUE" => return .literal (.boolean true)
  | "FALSE" => return .literal (.boolean false)
  | "NULL" => return .literal .null
  | "CURRENT_TIMESTAMP" | "CURRENT_TIME" | "CURRENT_DATE" | "LOCALTIME" | "LOCALTIMESTAMP" =>
    timeFunction g name
  | "CASE" => caseExpr g
  | "CONVERT" => convertExpr g false
  | "TRY_CONVERT" => convertExpr g true
  | "CAST" => castExpr g .cast
  | "TRY_CAST" => castExpr g .tryCast
  | "SAFE_CAST" => castExpr g .safeCast
  | "EXISTS" => existsExpr g false
  | "EXTRACT" => extractExpr g
  | "CEIL" => roundExpr g true
  | "FLOOR" => roundExpr g false
  | "POSITION" =>
    if (← peek) = .symbol "(" then positionExpr g name else named g name
  | "SUBSTRING" => substringExpr g
  | "OVERLAY" => overlayExpr g
  | "TRIM" => trimExpr g
  | "INTERVAL" => interval g
  | "NOT" => notExpr g
  | "PRIOR" =>
    if g.prior then
      let e ← g.expr Strength.sum
      return .other ⟨"PRIOR " ++ e.text, Shape.tuple "Prior" [e.shape]⟩
    else named g name
  | "ARRAY" =>
    if (← peek) = .symbol "(" then
      let q ← parenthesized g.query
      return .call ⟨⟨[name]⟩, .query q.form, [], none, none⟩
    else named g name
  | _ => named g name

/-- What stands in parentheses: a query, an expression or a tuple; perhaps a field of it. -/
def parenthesizedExpr : Reader Expr := do
  let inner ← parenthesized do
    if ← peekQuery then return ExprOf.subquery (← g.query)
    else
      match ← commaSeparated (expr g) with
      | [e] => return ExprOf.nested e
      | items => return ExprOf.other ⟨"(" ++ commas (items.map ExprOf.text) ++ ")",
          Shape.tuple "Tuple" [Shape.list (items.map ExprOf.shape)]⟩
  if ← symbol "." then
    match ← next with
    | .word value quote =>
      let field : Ident := ⟨value, quote⟩
      return .other ⟨inner.text ++ "." ++ field.text,
        Shape.record "CompositeAccess" [("expr", inner.shape), ("key", field.shape)]⟩
    | _ => fail "Expected identifier"
  else return inner

def operand : Reader Expr := do
  if let some e ← attempt (typedString g) then return e
  let e ← do
    match ← peek with
    | .word value quote =>
      let _ ← next
      wordExpr g value quote
    | .symbol "(" => parenthesizedExpr g
    | .symbol "-" =>
      let _ ← next
      pure (.unary .minus (← g.expr Strength.product))
    | .symbol "+" =>
      let _ ← next
      pure (.unary .plus (← g.expr Strength.product))
    | .number .. | .string _ | .national _ | .hex _ | .placeholder
      _ | .dollarQuoted .. | .symbol ":"
    | .symbol "@" =>
      pure (.literal (← literal))
    | _ => expected "an expression"
  if ← keyword "COLLATE" then return .collate e (← objectName) else return e

/-- A comparison with ANY, SOME or ALL rows of a query or values of a list. -/
def quantified (left : Expr) (op word : String) (strength : Nat) : Reader Expr := do
  unless (← peek) = .symbol "(" do expected "("
  let second ← peekNth 1
  let right ← do
    if isKeyword "SELECT" second || isKeyword "WITH" second then g.expr strength
    else parenthesized (g.expr strength)
  unless op ∈ [">", "<", ">=", "<=", "=", "<>"] do
    fail "Expected one of [=, >, <, =>, =<, !=] as comparison operator"
  let shown :=
    match right with
    | .subquery _ => right.text
    | _ => "(" ++ right.text ++ ")"
  let sides := [("left", left.shape), ("compare_op", operatorShape op), ("right", right.shape)]
  let shape :=
    if word = "ALL" then Shape.record "AllOp" sides
    else Shape.record "AnyOp" (sides ++ [("is_some", Shape.truth (word == "SOME"))])
  return .other ⟨left.text ++ " " ++ op ++ " " ++ word ++ shown, shape⟩

def isTests : List (List String) :=
  [["TRUE"], ["NOT", "TRUE"], ["FALSE"], ["NOT", "FALSE"], ["UNKNOWN"], ["NOT", "UNKNOWN"]]

def isExpr (left : Expr) : Reader Expr := do
  if ← keyword "NULL" then return .isNull left false
  if ← keywords ["NOT", "NULL"] then return .isNull left true
  for test in isTests do
    if ← keywords test then
      return .other ⟨left.text ++ " IS" ++ spaced test,
        Shape.tuple ("Is" ++ String.join (test.map Shape.capitalized)) [left.shape]⟩
  if ← keywords ["DISTINCT", "FROM"] then
    let right ← expr g
    return .other ⟨left.text ++ " IS DISTINCT FROM " ++ right.text,
      Shape.tuple "IsDistinctFrom" [left.shape, right.shape]⟩
  if ← keywords ["NOT", "DISTINCT", "FROM"] then
    let right ← expr g
    return .other ⟨left.text ++ " IS NOT DISTINCT FROM " ++ right.text,
      Shape.tuple "IsNotDistinctFrom" [left.shape, right.shape]⟩
  expected "[NOT] NULL or TRUE|FALSE or [NOT] DISTINCT FROM after IS"

def inExpr (left : Expr) (negated : Bool) : Reader Expr := do
  if ← keyword "UNNEST" then
    let array ← parenthesized (expr g)
    return .other ⟨left.text ++ " " ++ negation negated ++ "IN UNNEST(" ++ array.text ++ ")",
      Shape.record "InUnnest" [("expr", left.shape), ("array_expr", array.shape),
        ("negated", Shape.truth negated)]⟩
  parenthesized do
    if ← peekQuery then return .inQuery left (← g.query) negated
    else return .inList left (← commaSeparated (expr g)) negated

def escape? : Reader (Option String) := do
  if ← keyword "ESCAPE" then return some (← literalString) else return none

def likeExpr (left : Expr) (negated caseless : Bool) : Reader Expr := do
  let any ← keyword "ANY"
  let pattern ← g.expr Strength.like
  return .like left pattern ⟨negated, caseless, any, ← escape?⟩

def testExpr (left : Expr) : Reader Expr := do
  let negated ← keyword "NOT"
  let regexp ← keyword "REGEXP"
  let rlike ← keyword "RLIKE"
  if regexp || rlike then
    let pattern ← g.expr Strength.like
    let word := if regexp then "REGEXP" else "RLIKE"
    return .other ⟨left.text ++ " " ++ negation negated ++ word ++ " " ++ pattern.text,
      Shape.record "RLike" [("negated", Shape.truth negated), ("expr", left.shape),
        ("pattern", pattern.shape), ("regexp", Shape.truth regexp)]⟩
  if ← keyword "IN" then inExpr g left negated
  else if ← keyword "BETWEEN" then
    let low ← g.expr Strength.comparison
    expectKeyword "AND"
    return .between left low (← g.expr Strength.comparison) negated
  else if ← keyword "LIKE" then likeExpr g left negated false
  else if ← keyword "ILIKE" then likeExpr g left negated true
  else if ← keywords ["SIMILAR", "TO"] then
    let pattern ← g.expr Strength.like
    let escape ← escape?
    let escapeText := match escape with
      | some c => " ESCAPE '" ++ c ++ "'"
      | none => ""
    return .other ⟨left.text ++ " " ++ negation negated ++ "SIMILAR TO " ++
      pattern.text ++ escapeText,
      Shape.record "SimilarTo" [("negated", Shape.truth negated), ("expr", left.shape),
        ("pattern", pattern.shape), ("escape_char", Shape.option (escape.map Shape.quoted))]⟩
  else expected "IN or BETWEEN after NOT"

def operation (left : Expr) (strength : Nat) : Reader Expr := do
  let t ← peek
  match binaryOperator? t with
  | some op =>
    let _ ← next
    match ← oneOf ["ANY", "ALL", "SOME"] with
    | some word => quantified g left op word strength
    | none => return .binary left op (← g.expr strength)
  | none =>
    match t with
    | .symbol "::" =>
      let _ ← next
      return .cast .colons left (← typeName) none
    | .symbol "!" => accept (.unary .factorial left)
    | .word w none =>
      match keywordForm w with
      | "IS" =>
        let _ ← next
        isExpr g left
      | "AT" =>
        skip 3
        let zone ← g.expr strength
        return .other ⟨left.text ++ " AT TIME ZONE " ++ zone.text,
          Shape.record "AtTimeZone" [("timestamp", left.shape), ("time_zone", zone.shape)]⟩
      | "OPERATOR" | "DIV" => fail "No infix parser for token"
      | _ => testExpr g left
    | _ => fail "No infix parser for token"

/-- An operand and the operators after it that bind tighter than `least`. -/
def exprAbove (least : Nat) : Reader Expr := do
  loop (fun left => do
    let strength ← strength
    if strength ≤ least then return none else return some (← operation g left strength))
    (← operand g)

end

end Reader

end BatchPlan.Sql
