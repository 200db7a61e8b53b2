import BatchPlan.Sql.Expr.Shape
import BatchPlan.Sql.Query

namespace BatchPlan.Sql

open Shape

def TableAlias.shape (a : TableAlias) : String :=
  record "TableAlias" [("name", a.name.shape), ("columns", identShapes a.columns)]

def aliasShape (a : Option TableAlias) : String :=
  option (a.map TableAlias.shape)

/-- The options of a star, which are never given. -/
def starOptions : String :=
  record "WildcardAdditionalOptions" [("opt_ilike", "None"), ("opt_exclude", "None"),
    ("opt_except", "None"), ("opt_replace", "None"), ("opt_rename", "None")]

section

variable {Q : Type} [Printed Q]

def listShape (items : List (ExprOf Q)) : String :=
  list (exprShapes items)

def SelectItem.shape : SelectItem Q → String
  | .expr e (some name) => record "ExprWithAlias" [("expr", e.shape), ("alias", name.shape)]
  | .expr e none => tuple "UnnamedExpr" [e.shape]
  | .star => tuple "Wildcard" [starOptions]
  | .tableStar table => tuple "QualifiedWildcard" [table.shape, starOptions]

def JoinConstraint.shape (c : JoinConstraint) (condition : Option (ExprOf Q)) : String :=
  match c, condition with
  | .natural, _ => "Natural"
  | .using columns, _ => tuple "Using" [identShapes columns]
  | .plain, some e => tuple "On" [e.shape]
  | .plain, none => "None"

def JoinKind.shape (constraint : String) : JoinKind → String
  | .inner => tuple "Inner" [constraint]
  | .left => tuple "LeftOuter" [constraint]
  | .right => tuple "RightOuter" [constraint]
  | .full => tuple "FullOuter" [constraint]
  | .cross => "CrossJoin"
  | .crossApply => "CrossApply"
  | .outerApply => "OuterApply"
  | .leftSemi => tuple "LeftSemi" [constraint]
  | .rightSemi => tuple "RightSemi" [constraint]
  | .leftAnti => tuple "LeftAnti" [constraint]
  | .rightAnti => tuple "RightAnti" [constraint]
  | .nearest condition =>
    record "AsOf" [("match_condition", condition.shape), ("constraint", constraint)]

def tableArgumentsShape : Arguments (ExprOf Q) → String
  | .list _ args _ =>
    option
      (some (record "TableFunctionArgs" [("args", list (argumentShapes args)),
        ("settings", "None")]))
  | .none | .query _ => option none

def chainShape (chain : String × List String) : String :=
  record "TableWithJoins" [("relation", chain.1), ("joins", list chain.2)]

/-- The structure of the first table of a chain of joins, and those of the joins after it. -/
def Source.chain : Source Q → String × List String
  | .table name args tableAlias options =>
    (record "Table" [("name", name.shape), ("alias", aliasShape tableAlias),
      ("args", tableArgumentsShape args), ("with_hints", listShape options.hints),
      ("version", option (options.version.map fun e => tuple "ForSystemTimeAsOf" [e.shape])),
      ("with_ordinality", truth options.ordinality), ("partitions", "[]")], [])
  | .derived lateral query tableAlias =>
    (record "Derived" [("lateral", truth lateral), ("subquery", Printed.shape query),
      ("alias", aliasShape tableAlias)], [])
  | .join left kind right form condition =>
    let (first, joins) := left.chain
    let join := record "Join" [("relation", right.chain.1), ("global", truth form.global),
      ("join_operator", kind.shape (form.constraint.shape condition))]
    (first, joins ++ [join])
  | .nested inner tableAlias =>
    (record "NestedJoin" [("table_with_joins", chainShape inner.chain),
      ("alias", aliasShape tableAlias)], [])
  | .other form => (form.shape, [])

def Source.tableShape (s : Source Q) : String :=
  s.chain.1

def Source.shape (s : Source Q) : String :=
  chainShape s.chain

def Distinct.shape : Distinct Q → String
  | .rows => "Distinct"
  | .on columns => tuple "On" [listShape columns]

def Top.shape (t : Top Q) : String :=
  let quantity := if t.bare then tuple "Constant" [t.count.text] else tuple "Expr" [t.count.shape]
  record "Top" [("with_ties", truth t.withTies), ("percent", truth t.percent),
    ("quantity", option (some quantity))]

def Into.shape (i : Into) : String :=
  record "SelectInto" [("temporary", truth i.temporary), ("unlogged", truth i.unlogged),
    ("table", truth i.table), ("name", i.name.shape)]

def LateralView.shape (v : LateralView Q) : String :=
  record "LateralView" [("lateral_view", v.expr.shape), ("lateral_view_name", v.name.shape),
    ("lateral_col_alias", identShapes v.columns), ("outer", truth v.outer)]

def NamedWindow.shape (w : NamedWindow Q) : String :=
  tuple "NamedWindowDefinition" [w.name.shape, windowShape w.window]

def Hierarchy.shape (h : Hierarchy Q) : String :=
  record "ConnectBy" [("condition", h.start.shape), ("relationships", listShape h.links)]

def groupByShape (all : Bool) (items : List (ExprOf Q)) : String :=
  if all then tuple "All" [list []] else tuple "Expressions" [listShape items, list []]

def Select.shape (s : Select Q) : String :=
  record "Select" [("distinct", option (s.distinct.map Distinct.shape)),
    ("top", option (s.top.map Top.shape)), ("top_before_distinct", "false"),
    ("projection", list (s.items.map SelectItem.shape)), ("into", option (s.into.map Into.shape)),
    ("from", list (s.sources.map Source.shape)),
    ("lateral_views", list (s.lateralViews.map LateralView.shape)), ("prewhere", "None"),
    ("selection", optionShape s.condition), ("group_by", groupByShape s.groupByAll s.groupBy),
    ("cluster_by", listShape s.clusterBy), ("distribute_by", listShape s.distributeBy),
    ("sort_by", listShape s.sortBy), ("having", optionShape s.having),
    ("named_window", list (s.windows.map NamedWindow.shape)), ("qualify", optionShape s.qualify),
    ("window_before_qualify", truth s.windowsFirst), ("value_table_mode", "None"),
    ("connect_by", option (s.hierarchy.map Hierarchy.shape))]

def SetOp.shape : SetOp → String
  | .union => "Union"
  | .except => "Except"
  | .intersect => "Intersect"

def SetQuantifier.shape : SetQuantifier → String
  | .none => "None"
  | .all => "All"
  | .distinct => "Distinct"
  | .byName => "ByName"
  | .allByName => "AllByName"
  | .distinctByName => "DistinctByName"

def SetExpr.shape : SetExpr Q → String
  | .select s => tuple "Select" [s.shape]
  | .query q => tuple "Query" [Printed.shape q]
  | .values explicitRow rows =>
    tuple "Values" [record "Values" [("explicit_row", truth explicitRow),
      ("rows", list (rows.map listShape))]]
  | .operation op quantifier left right =>
    record "SetOperation" [("op", op.shape), ("set_quantifier", quantifier.shape),
      ("left", left.shape), ("right", right.shape)]
  | .other form => form.shape

def Cte.shape (c : Cte Q) : String :=
  record "Cte" [("alias", c.tableAlias.shape), ("query", Printed.shape c.query),
    ("from", option (c.source.map Ident.shape)), ("materialized", "None")]

end

def Fetch.shape (f : Fetch) : String :=
  record "Fetch" [("with_ties", truth f.withTies), ("percent", truth f.percent),
    ("quantity", option (f.count.map fun n => tuple "Value" [n.shape]))]

def LockWait.shape : LockWait → String
  | .nowait => "Nowait"
  | .skipLocked => "SkipLocked"

def Lock.shape (l : Lock) : String :=
  record "LockClause" [("lock_type", if l.forUpdate then "Update" else "Share"),
    ("of", option (l.table.map ObjectName.shape)), ("nonblock", option (l.wait.map LockWait.shape))]

def XmlForm.shape : XmlForm → String
  | .raw name => tuple "Raw" [option (name.map quoted)]
  | .auto => "Auto"
  | .explicit => "Explicit"
  | .path name => tuple "Path" [option (name.map quoted)]

def JsonForm.shape : JsonForm → String
  | .auto => "Auto"
  | .path => "Path"

def ForClause.shape : ForClause → String
  | .browse => "Browse"
  | .json form root nulls bare =>
    record "Json" [("for_json", form.shape), ("root", option (root.map quoted)),
      ("include_null_values", truth nulls), ("without_array_wrapper", truth bare)]
  | .xml form elements base64 root type =>
    record "Xml" [("for_xml", form.shape), ("elements", truth elements),
      ("binary_base64", truth base64), ("root", option (root.map quoted)), ("type", truth type)]

namespace Query

def withShape (q : Query) : String :=
  if q.ctes.isEmpty then option none
  else option (some (record "With" [("recursive", truth q.recursive),
    ("cte_tables", list (q.ctes.map Cte.shape))]))

def orderByShape (q : Query) : String :=
  if q.orderBy.isEmpty then option none
  else option
    (some (record "OrderBy" [("exprs", list (orderShapes q.orderBy)), ("interpolate", "None")]))

def offsetShape (q : Query) : String :=
  let unit := if q.offsetUnit.isEmpty then "None" else capitalized q.offsetUnit
  option (q.offset.map fun e => record "Offset" [("value", e.shape), ("rows", unit)])

def partsShape (q : Query) : String :=
  record "Query" [("with", q.withShape), ("body", q.body.shape), ("order_by", q.orderByShape),
    ("limit", optionShape q.limit), ("limit_by", "[]"), ("offset", q.offsetShape),
    ("fetch", option (q.fetch.map Fetch.shape)), ("locks", list (q.locks.map Lock.shape)),
    ("for_clause", option (q.forClause.map ForClause.shape)), ("settings", "None"),
    ("format_clause", "None")]

/-- A query that keeps the text and the structure of its parts. -/
def sealed (q : Query) : Query :=
  { q with form := ⟨q.partsText, q.partsShape⟩ }

def ofBody (body : SetExpr Query) : Query :=
  { recursive := false, ctes := [], body, orderBy := [], limit := none, offset := none,
    offsetUnit := "", fetch := none, locks := [], forClause := none, form := default :
      Query }.sealed

end Query

instance : Inhabited Query := ⟨.ofBody (.values false [])⟩

end BatchPlan.Sql
