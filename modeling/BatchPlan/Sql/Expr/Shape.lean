import BatchPlan.Sql.Expr

namespace BatchPlan.Sql

open Shape

def TypeName.shape : TypeName → String
  | .standard form => form.shape
  | .named form => form.shape

def Literal.shape : Literal → String
  | .number digits long => tuple "Number" [quoted digits, truth long]
  | .string value => tuple "SingleQuotedString" [quoted value]
  | .national value => tuple "NationalStringLiteral" [quoted value]
  | .doubleQuoted value => tuple "DoubleQuotedString" [quoted value]
  | .escape value => tuple "EscapedStringLiteral" [quoted value]
  | .hex digits => tuple "HexStringLiteral" [quoted digits]
  | .boolean value => tuple "Boolean" [truth value]
  | .null => "Null"
  | .placeholder text => tuple "Placeholder" [quoted text]
  | .dollarQuoted tag value =>
    tuple "DollarQuotedString"
      [record "DollarQuotedString" [("value", quoted value), ("tag", option (tag.map quoted))]]

def operatorShape (op : String) : String :=
  ([("+", "Plus"), ("-", "Minus"), ("*", "Multiply"), ("/", "Divide"), ("%", "Modulo"),
    ("||", "StringConcat"), (">", "Gt"), ("<", "Lt"), (">=", "GtEq"), ("<=", "LtEq"),
    ("<=>", "Spaceship"), ("=", "Eq"), ("<>", "NotEq"), ("AND", "And"), ("OR", "Or"),
    ("XOR", "Xor"), ("|", "BitwiseOr"), ("&", "BitwiseAnd"), ("^", "BitwiseXor"),
    ("~", "PGRegexMatch"), ("~*", "PGRegexIMatch"), ("!~", "PGRegexNotMatch"),
    ("!~*", "PGRegexNotIMatch"), ("~~", "PGLikeMatch"), ("~~*", "PGILikeMatch"),
    ("!~~", "PGNotLikeMatch"), ("!~~*", "PGNotILikeMatch"), ("->", "Arrow"), ("->>", "LongArrow"),
    ("#>", "HashArrow"), ("#>>", "HashLongArrow"), ("@>", "AtArrow"), ("<@", "ArrowAt"),
    ("#-", "HashMinus"), ("@?", "AtQuestion"), ("@@", "AtAt")].lookup op).getD op

def UnaryOp.shape : UnaryOp → String
  | .not => "Not"
  | .minus => "Minus"
  | .plus => "Plus"
  | .factorial => "PGPostfixFactorial"

def CastForm.shape : CastForm → String
  | .cast => "Cast"
  | .tryCast => "TryCast"
  | .safeCast => "SafeCast"
  | .colons => "DoubleColon"

def datePartShape (word : String) : String :=
  ([("WEEK", "Week(None)"), ("DAYOFWEEK", "DayOfWeek"), ("DAYOFYEAR", "DayOfYear"),
    ("ISOWEEK", "IsoWeek"), ("TIMEZONE_ABBR", "TimezoneAbbr"), ("TIMEZONE_HOUR", "TimezoneHour"),
    ("TIMEZONE_MINUTE", "TimezoneMinute"),
    ("TIMEZONE_REGION", "TimezoneRegion")].lookup word).getD (capitalized word)

def Rounding.shape : Rounding → String
  | .whole => tuple "DateTimeField" ["NoDateTime"]
  | .datePart word => tuple "DateTimeField" [datePartShape word]
  | .scale places => tuple "Scale" [places.shape]

def FrameUnits.shape : FrameUnits → String
  | .rows => "Rows"
  | .range => "Range"
  | .groups => "Groups"

def FrameBound.shape : FrameBound → String
  | .currentRow => "CurrentRow"
  | .preceding distance => tuple "Preceding" [option (distance.map fun d => d.form.shape)]
  | .following distance => tuple "Following" [option (distance.map fun d => d.form.shape)]

def Frame.shape (f : Frame) : String :=
  record "WindowFrame" [("units", f.units.shape), ("start_bound", f.start.shape),
    ("end_bound", option (f.stop.map FrameBound.shape))]

def orderItemShape (e : String) (ascending nullsFirst : Option Bool) : String :=
  record "OrderByExpr" [("expr", e), ("asc", option (ascending.map truth)),
    ("nulls_first", option (nullsFirst.map truth)), ("with_fill", "None")]

def labelledShape (label : Option Ident) (value : String) : String :=
  match label with
  | some name => record "Named" [("name", name.shape), ("arg", value), ("operator", "RightArrow")]
  | none => tuple "Unnamed" [value]

section

variable {Q : Type} [Printed Q]

mutual

def ExprOf.shape : ExprOf Q → String
  | .ident name => tuple "Identifier" [name.shape]
  | .compound parts => tuple "CompoundIdentifier" [identShapes parts]
  | .literal value => tuple "Value" [value.shape]
  | .typed type value => record "TypedString" [("data_type", type.shape), ("value", quoted value)]
  | .binary left op right =>
    record "BinaryOp" [("left", left.shape), ("op", operatorShape op), ("right", right.shape)]
  | .unary op e => record "UnaryOp" [("op", op.shape), ("expr", e.shape)]
  | .nested e => tuple "Nested" [e.shape]
  | .isNull e negated => tuple (if negated then "IsNotNull" else "IsNull") [e.shape]
  | .between e low high negated =>
    record "Between" [("expr", e.shape), ("negated", truth negated), ("low", low.shape),
      ("high", high.shape)]
  | .inList e items negated =>
    record "InList" [("expr", e.shape), ("list", list (exprShapes items)),
      ("negated", truth negated)]
  | .inQuery e query negated =>
    record "InSubquery" [("expr", e.shape), ("subquery", Printed.shape query),
      ("negated", truth negated)]
  | .like e pattern form =>
    record (if form.caseless then "ILike" else "Like") [("negated", truth form.negated),
      ("any", truth form.any), ("expr", e.shape), ("pattern", pattern.shape),
      ("escape_char", option (form.escape.map quoted))]
  | .case operand branches otherwise =>
    record "Case" [("operand", optionShape operand),
      ("conditions", list (conditionShapes branches)),
      ("results", list (resultShapes branches)), ("else_result", optionShape otherwise)]
  | .cast form e type format =>
    record "Cast" [("kind", form.shape), ("expr", e.shape), ("data_type", type.shape),
      ("format", option (format.map Rendered.shape))]
  | .convert try_ type e styles =>
    record "Convert" [("is_try", truth try_), ("expr", e.shape),
      ("data_type", option (some type.shape)),
      ("charset", "None"), ("target_before_value", "true"), ("styles", list (exprShapes styles))]
  | .collate e collation => record "Collate" [("expr", e.shape), ("collation", collation.shape)]
  | .substring e start length separated =>
    record "Substring" [("expr", e.shape), ("substring_from", optionShape start),
      ("substring_for", optionShape length), ("special", truth separated)]
  | .round up e target =>
    record (if up then "Ceil" else "Floor") [("expr", e.shape), ("field", target.shape)]
  | .trim e side what =>
    record "Trim" [("expr", e.shape), ("trim_where", option (side.map capitalized)),
      ("trim_what", optionShape what), ("trim_characters", "None")]
  | .call c => tuple "Function" [callShape c]
  | .exists query negated =>
    record "Exists" [("subquery", Printed.shape query), ("negated", truth negated)]
  | .subquery query => tuple "Subquery" [Printed.shape query]
  | .other form => form.shape

def exprShapes : List (ExprOf Q) → List String
  | [] => []
  | e :: rest => e.shape :: exprShapes rest

def optionShape : Option (ExprOf Q) → String
  | some e => option (some e.shape)
  | none => option none

def conditionShapes : List (ExprOf Q × ExprOf Q) → List String
  | [] => []
  | (condition, _) :: rest => condition.shape :: conditionShapes rest

def resultShapes : List (ExprOf Q × ExprOf Q) → List String
  | [] => []
  | (_, result) :: rest => result.shape :: resultShapes rest

def callShape : Call (ExprOf Q) → String
  | ⟨name, args, withinGroup, ignoreNulls, window⟩ =>
    record "Function" [("name", name.shape), ("parameters", "None"), ("args", argumentsShape args),
      ("filter", "None"),
      ("null_treatment", option (ignoreNulls.map fun b =>
        if b then "IgnoreNulls" else "RespectNulls")),
      ("over", overShape window), ("within_group", list (orderShapes withinGroup))]

def argumentsShape : Arguments (ExprOf Q) → String
  | .none => "None"
  | .query form => tuple "Subquery" [form.shape]
  | .list distinct args clauses =>
    tuple "List" [record "FunctionArgumentList"
      [("duplicate_treatment", option (distinct.map fun d => if d then "Distinct" else "All")),
        ("args", list (argumentShapes args)), ("clauses", list (clauses.map Rendered.shape))]]

def argumentShapes : List (Argument (ExprOf Q)) → List String
  | [] => []
  | a :: rest => argumentShape a :: argumentShapes rest

def argumentShape : Argument (ExprOf Q) → String
  | .value label e => labelledShape label (tuple "Expr" [e.shape])
  | .star label => labelledShape label "Wildcard"
  | .tableStar label table => labelledShape label (tuple "QualifiedWildcard" [table.shape])

def orderShapes : List (OrderItem (ExprOf Q)) → List String
  | [] => []
  | o :: rest => orderShape o :: orderShapes rest

def orderShape : OrderItem (ExprOf Q) → String
  | ⟨e, ascending, nullsFirst⟩ => orderItemShape e.shape ascending nullsFirst

def overShape : Option (Window (ExprOf Q)) → String
  | some w => option (some (windowShape w))
  | none => option none

def windowShape : Window (ExprOf Q) → String
  | .named name => tuple "NamedWindow" [name.shape]
  | .spec base partitionBy orderBy frame =>
    tuple "WindowSpec" [record "WindowSpec" [("window_name", option (base.map Ident.shape)),
      ("partition_by", list (exprShapes partitionBy)), ("order_by", list (orderShapes orderBy)),
      ("window_frame", option (frame.map Frame.shape))]]

end

def ExprOf.rendered (e : ExprOf Q) : Rendered :=
  ⟨e.text, e.shape⟩

end

end BatchPlan.Sql
