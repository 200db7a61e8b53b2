import BatchPlan.Sql.Shape

namespace BatchPlan.Sql

/-- What can be printed: as text, or with its structure spelled out. -/
class Printed (α : Type) where
  text : α → String
  shape : α → String

/-- The name of a data type: one of the standard names in its usual spelling, or any other as
written. -/
inductive TypeName where
  | standard (form : Rendered)
  | named (form : Rendered)
deriving DecidableEq, Repr, Inhabited

def TypeName.text : TypeName → String
  | .standard form => form.text
  | .named form => form.text

inductive Literal where
  | number (digits : String) (long : Bool)
  | string (value : String)
  | national (value : String)
  | doubleQuoted (value : String)
  | escape (value : String)
  | hex (digits : String)
  | boolean (value : Bool)
  | null
  | placeholder (text : String)
  | dollarQuoted (tag : Option String) (value : String)
deriving DecidableEq, Repr, Inhabited

def escapedChar : Char → String
  | '\'' => "\\'"
  | '\\' => "\\\\"
  | '\n' => "\\n"
  | '\t' => "\\t"
  | '\r' => "\\r"
  | c => c.toString

def Literal.text : Literal → String
  | .number digits long => if long then digits ++ "L" else digits
  | .string value => quotedText '\'' value
  | .national value => "N'" ++ value ++ "'"
  | .doubleQuoted value => quotedText '"' value
  | .escape value => "E'" ++ String.join (value.toList.map escapedChar) ++ "'"
  | .hex digits => "X'" ++ digits ++ "'"
  | .boolean value => if value then "true" else "false"
  | .null => "NULL"
  | .placeholder text => text
  | .dollarQuoted tag value => dollarQuotedText tag value

inductive UnaryOp where
  | not
  | minus
  | plus
  | factorial
deriving DecidableEq, Repr, Inhabited

inductive CastForm where
  | cast
  | tryCast
  | safeCast
  | colons
deriving DecidableEq, Repr, Inhabited

structure LikeForm where
  negated : Bool := false
  caseless : Bool := false
  any : Bool := false
  escape : Option String := none
deriving DecidableEq, Repr, Inhabited

structure OrderItem (E : Type) where
  expr : E
  ascending : Option Bool
  nullsFirst : Option Bool
deriving Inhabited

inductive Argument (E : Type) where
  | value (label : Option Ident) (e : E)
  | star (label : Option Ident)
  | tableStar (label : Option Ident) (table : ObjectName)

inductive Arguments (E : Type) where
  | none
  | query (form : Rendered)
  /-- The arguments, DISTINCT or ALL before them, and the clauses after them. -/
  | list (distinct : Option Bool) (args : List (Argument E)) (clauses : List Rendered)

inductive FrameUnits where
  | rows
  | range
  | groups
deriving DecidableEq, Repr, Inhabited

def FrameUnits.text : FrameUnits → String
  | .rows => "ROWS"
  | .range => "RANGE"
  | .groups => "GROUPS"

/-- The distance of a frame bound, and its digits if it is a number. -/
structure FrameOffset where
  form : Rendered
  digits : Option String
deriving DecidableEq, Repr, Inhabited

def FrameOffset.text (o : FrameOffset) : String :=
  o.form.text

/-- A bound of a window frame; no distance means an unbounded one. -/
inductive FrameBound where
  | currentRow
  | preceding (distance : Option FrameOffset)
  | following (distance : Option FrameOffset)
deriving DecidableEq, Repr, Inhabited

def FrameBound.text : FrameBound → String
  | .currentRow => "CURRENT ROW"
  | .preceding none => "UNBOUNDED PRECEDING"
  | .preceding (some d) => d.text ++ " PRECEDING"
  | .following none => "UNBOUNDED FOLLOWING"
  | .following (some d) => d.text ++ " FOLLOWING"

structure Frame where
  units : FrameUnits
  start : FrameBound
  stop : Option FrameBound
deriving DecidableEq, Repr, Inhabited

def Frame.text (f : Frame) : String :=
  match f.stop with
  | some stop => f.units.text ++ " BETWEEN " ++ f.start.text ++ " AND " ++ stop.text
  | none => f.units.text ++ " " ++ f.start.text

inductive Window (E : Type) where
  | named (name : Ident)
  | spec (base : Option Ident) (partitionBy : List E) (orderBy : List (OrderItem E))
      (frame : Option Frame)

structure Call (E : Type) where
  name : ObjectName
  args : Arguments E
  withinGroup : List (OrderItem E)
  ignoreNulls : Option Bool
  window : Option (Window E)

inductive Rounding where
  | whole
  | datePart (word : String)
  | scale (places : Literal)
deriving DecidableEq, Repr, Inhabited

def Rounding.suffix : Rounding → String
  | .whole => ""
  | .datePart word => " TO " ++ word
  | .scale places => ", " ++ places.text

inductive ExprOf (Q : Type) where
  | ident (name : Ident)
  | compound (parts : List Ident)
  | literal (value : Literal)
  | typed (type : TypeName) (value : String)
  | binary (left : ExprOf Q) (op : String) (right : ExprOf Q)
  | unary (op : UnaryOp) (e : ExprOf Q)
  | nested (e : ExprOf Q)
  | isNull (e : ExprOf Q) (negated : Bool)
  | between (e low high : ExprOf Q) (negated : Bool)
  | inList (e : ExprOf Q) (items : List (ExprOf Q)) (negated : Bool)
  | inQuery (e : ExprOf Q) (query : Q) (negated : Bool)
  | like (e pattern : ExprOf Q) (form : LikeForm)
  | case (operand : Option (ExprOf Q)) (branches : List (ExprOf Q × ExprOf Q))
      (otherwise : Option (ExprOf Q))
  | cast (form : CastForm) (e : ExprOf Q) (type : TypeName)
      (format : Option Rendered)
  | convert (try_ : Bool) (type : TypeName) (e : ExprOf Q) (styles : List (ExprOf Q))
  | collate (e : ExprOf Q) (collation : ObjectName)
  | substring (e : ExprOf Q) (start length : Option (ExprOf Q)) (commas : Bool)
  | round (up : Bool) (e : ExprOf Q) (target : Rounding)
  | trim (e : ExprOf Q) (side : Option String) (what : Option (ExprOf Q))
  | call (c : Call (ExprOf Q))
  | exists (query : Q) (negated : Bool)
  | subquery (query : Q)
  | other (form : Rendered)

instance {Q : Type} : Inhabited (ExprOf Q) := ⟨.literal .null⟩

def negation (negated : Bool) : String :=
  if negated then "NOT " else ""

def OrderItem.suffix {E : Type} (o : OrderItem E) : String :=
  (match o.ascending with
    | some true => " ASC"
    | some false => " DESC"
    | none => "") ++
  match o.nullsFirst with
    | some true => " NULLS FIRST"
    | some false => " NULLS LAST"
    | none => ""

def labelText : Option Ident → String
  | some name => name.text ++ " => "
  | none => ""

def callTail (ignoreNulls : Option Bool) : String :=
  match ignoreNulls with
  | some true => " IGNORE NULLS"
  | some false => " RESPECT NULLS"
  | none => ""

def formatText : Option Rendered → String
  | some format => " FORMAT " ++ format.text
  | none => ""

def windowParts (base : Option Ident) (partitionBy orderBy : List String) (frame : Option Frame) :
    String :=
  " ".intercalate <|
    (base.map Ident.text).toList ++
    (if partitionBy.isEmpty then [] else ["PARTITION BY " ++ commas partitionBy]) ++
    (if orderBy.isEmpty then [] else ["ORDER BY " ++ commas orderBy]) ++
    (frame.map Frame.text).toList

section Text

variable {Q : Type} [Printed Q]

mutual

/-- The text of an expression: keywords in upper case, names and numbers as written, and only the
parentheses that were written. Two expressions count as the same when these texts agree up to
case. -/
def ExprOf.text : ExprOf Q → String
  | .ident name => name.text
  | .compound parts => ".".intercalate (parts.map Ident.text)
  | .literal value => value.text
  | .typed type value => type.text ++ " " ++ quotedText '\'' value
  | .binary left op right => left.text ++ " " ++ op ++ " " ++ right.text
  | .unary .not e => "NOT " ++ e.text
  | .unary .minus e => "-" ++ e.text
  | .unary .plus e => "+" ++ e.text
  | .unary .factorial e => e.text ++ "!"
  | .nested e => "(" ++ e.text ++ ")"
  | .isNull e negated => e.text ++ " IS " ++ negation negated ++ "NULL"
  | .between e low high negated =>
    e.text ++ " " ++ negation negated ++ "BETWEEN " ++ low.text ++ " AND " ++ high.text
  | .inList e items negated =>
    e.text ++ " " ++ negation negated ++ "IN (" ++ commas (exprTexts items) ++ ")"
  | .inQuery e query negated =>
    e.text ++ " " ++ negation negated ++ "IN (" ++ Printed.text query ++ ")"
  | .like e pattern form =>
    e.text ++ " " ++ negation form.negated ++ (if form.caseless then "ILIKE " else "LIKE ") ++
      (if form.any then "ANY " else "") ++ pattern.text ++
      (match form.escape with
        | some c => " ESCAPE '" ++ c ++ "'"
        | none => "")
  | .case operand branches otherwise =>
    "CASE" ++ optionText " " operand ++ branchTexts branches ++
      optionText " ELSE " otherwise ++ " END"
  | .cast form e type format =>
    match form with
    | .colons => e.text ++ "::" ++ type.text
    | .cast => "CAST(" ++ e.text ++ " AS " ++ type.text ++ formatText format ++ ")"
    | .tryCast => "TRY_CAST(" ++ e.text ++ " AS " ++ type.text ++ formatText format ++ ")"
    | .safeCast => "SAFE_CAST(" ++ e.text ++ " AS " ++ type.text ++ formatText format ++ ")"
  | .convert try_ type e styles =>
    (if try_ then "TRY_" else "") ++ "CONVERT(" ++
      commas (type.text :: e.text :: exprTexts styles) ++
      ")"
  | .collate e collation => e.text ++ " COLLATE " ++ collation.text
  | .substring e start length separated =>
    "SUBSTRING(" ++ e.text ++ optionText (if separated then ", " else " FROM ") start ++
      optionText (if separated then ", " else " FOR ") length ++ ")"
  | .round up e target => (if up then "CEIL(" else "FLOOR(") ++ e.text ++ target.suffix ++ ")"
  | .trim e side what =>
    "TRIM(" ++ (match side with
      | some s => s ++ " "
      | none => "") ++
      (match what with
        | some w => w.text ++ " FROM "
        | none => "") ++ e.text ++ ")"
  | .call c => callText c
  | .exists query negated => negation negated ++ "EXISTS (" ++ Printed.text query ++ ")"
  | .subquery query => "(" ++ Printed.text query ++ ")"
  | .other form => form.text

def exprTexts : List (ExprOf Q) → List String
  | [] => []
  | e :: rest => e.text :: exprTexts rest

def optionText (before : String) : Option (ExprOf Q) → String
  | some e => before ++ e.text
  | none => ""

def branchTexts : List (ExprOf Q × ExprOf Q) → String
  | [] => ""
  | branch :: rest => branchText branch ++ branchTexts rest

def branchText : ExprOf Q × ExprOf Q → String
  | (condition, result) => " WHEN " ++ condition.text ++ " THEN " ++ result.text

def callText : Call (ExprOf Q) → String
  | ⟨name, args, withinGroup, ignoreNulls, window⟩ =>
    let order := orderTexts withinGroup
    name.text ++ argumentsText args ++
      (if order.isEmpty then "" else " WITHIN GROUP (ORDER BY " ++ commas order ++ ")") ++
      callTail ignoreNulls ++ overText window

def argumentsText : Arguments (ExprOf Q) → String
  | .none => ""
  | .query form => "(" ++ form.text ++ ")"
  | .list distinct args clauses =>
    "(" ++ (match distinct with
      | some true => "DISTINCT "
      | some false => "ALL "
      | none => "") ++ commas (argumentTexts args) ++
      spaced (clauses.map Rendered.text) ++ ")"

def argumentTexts : List (Argument (ExprOf Q)) → List String
  | [] => []
  | a :: rest => argumentText a :: argumentTexts rest

def argumentText : Argument (ExprOf Q) → String
  | .value label e => labelText label ++ e.text
  | .star label => labelText label ++ "*"
  | .tableStar label table => labelText label ++ table.text ++ ".*"

def orderTexts : List (OrderItem (ExprOf Q)) → List String
  | [] => []
  | o :: rest => orderText o :: orderTexts rest

def orderText : OrderItem (ExprOf Q) → String
  | ⟨e, ascending, nullsFirst⟩ => e.text ++ (OrderItem.mk () ascending nullsFirst).suffix

def overText : Option (Window (ExprOf Q)) → String
  | some w => " OVER " ++ windowText w
  | none => ""

def windowText : Window (ExprOf Q) → String
  | .named name => name.text
  | .spec base partitionBy orderBy frame =>
    "(" ++ windowParts base (exprTexts partitionBy) (orderTexts orderBy) frame ++ ")"

end

def ExprOf.key (e : ExprOf Q) : String :=
  Text.lower e.text

end Text

end BatchPlan.Sql
