import BatchPlan.Sql.Expr

namespace BatchPlan.Sql

structure TableAlias where
  name : Ident
  columns : List Ident
deriving DecidableEq, Repr, Inhabited

def TableAlias.text (a : TableAlias) : String :=
  if a.columns.isEmpty then a.name.text
  else a.name.text ++ " (" ++ commas (a.columns.map Ident.text) ++ ")"

def TableAlias.columnNames (a : TableAlias) : List String :=
  a.columns.map fun c => unquote c.text

def aliasText : Option TableAlias → String
  | some a => " AS " ++ a.text
  | none => ""

inductive SelectItem (Q : Type) where
  | expr (e : ExprOf Q) (name : Option Ident)
  | star
  | tableStar (table : ObjectName)

inductive JoinKind where
  | inner
  | left
  | right
  | full
  | cross
  | crossApply
  | outerApply
  | leftSemi
  | rightSemi
  | leftAnti
  | rightAnti
  | nearest (condition : Rendered)
deriving DecidableEq, Repr, Inhabited

def JoinKind.text : JoinKind → String
  | .inner => "JOIN"
  | .left => "LEFT JOIN"
  | .right => "RIGHT JOIN"
  | .full => "FULL JOIN"
  | .cross => "CROSS JOIN"
  | .crossApply => "CROSS APPLY"
  | .outerApply => "OUTER APPLY"
  | .leftSemi => "LEFT SEMI JOIN"
  | .rightSemi => "RIGHT SEMI JOIN"
  | .leftAnti => "LEFT ANTI JOIN"
  | .rightAnti => "RIGHT ANTI JOIN"
  | .nearest _ => "ASOF JOIN"

def JoinKind.suffix : JoinKind → String
  | .nearest condition => " MATCH_CONDITION (" ++ condition.text ++ ")"
  | _ => ""

/-- How a join restricts its rows, the condition of an ON clause apart. -/
inductive JoinConstraint where
  | plain
  | natural
  | using (columns : List Ident)
deriving DecidableEq, Repr, Inhabited

structure JoinForm where
  constraint : JoinConstraint := .plain
  global : Bool := false
deriving DecidableEq, Repr, Inhabited

structure TableOptions (Q : Type) where
  ordinality : Bool := false
  hints : List (ExprOf Q) := []
  version : Option (ExprOf Q) := none

inductive Source (Q : Type) where
  | table (name : ObjectName) (args : Arguments (ExprOf Q)) (tableAlias : Option TableAlias)
      (options : TableOptions Q)
  | derived (lateral : Bool) (query : Q) (tableAlias : Option TableAlias)
  | join (left : Source Q) (kind : JoinKind) (right : Source Q) (form : JoinForm)
      (condition : Option (ExprOf Q))
  | nested (inner : Source Q) (tableAlias : Option TableAlias)
  | other (form : Rendered)

instance {Q : Type} : Inhabited (Source Q) := ⟨.other default⟩

inductive Distinct (Q : Type) where
  | rows
  | on (columns : List (ExprOf Q))

def Distinct.isRows {Q : Type} : Distinct Q → Bool
  | .rows => true
  | .on _ => false

/-- A TOP clause; a bare count is written without parentheses. -/
structure Top (Q : Type) where
  count : ExprOf Q
  bare : Bool
  percent : Bool
  withTies : Bool

structure Into where
  temporary : Bool
  unlogged : Bool
  table : Bool
  name : ObjectName
deriving DecidableEq, Repr, Inhabited

structure LateralView (Q : Type) where
  outer : Bool
  expr : ExprOf Q
  name : ObjectName
  columns : List Ident

structure NamedWindow (Q : Type) where
  name : Ident
  window : Window (ExprOf Q)

structure Hierarchy (Q : Type) where
  start : ExprOf Q
  links : List (ExprOf Q)

structure Select (Q : Type) where
  distinct : Option (Distinct Q)
  top : Option (Top Q)
  items : List (SelectItem Q)
  into : Option Into
  sources : List (Source Q)
  lateralViews : List (LateralView Q)
  condition : Option (ExprOf Q)
  groupByAll : Bool
  groupBy : List (ExprOf Q)
  clusterBy : List (ExprOf Q)
  distributeBy : List (ExprOf Q)
  sortBy : List (ExprOf Q)
  having : Option (ExprOf Q)
  windows : List (NamedWindow Q)
  qualify : Option (ExprOf Q)
  windowsFirst : Bool
  hierarchy : Option (Hierarchy Q)

inductive SetOp where
  | union
  | except
  | intersect
deriving DecidableEq, Repr, Inhabited

def SetOp.text : SetOp → String
  | .union => "UNION"
  | .except => "EXCEPT"
  | .intersect => "INTERSECT"

inductive SetQuantifier where
  | none
  | all
  | distinct
  | byName
  | allByName
  | distinctByName
deriving DecidableEq, Repr, Inhabited

def SetQuantifier.text : SetQuantifier → String
  | .none => ""
  | .all => " ALL"
  | .distinct => " DISTINCT"
  | .byName => " BY NAME"
  | .allByName => " ALL BY NAME"
  | .distinctByName => " DISTINCT BY NAME"

inductive SetExpr (Q : Type) where
  | select (s : Select Q)
  | query (q : Q)
  | values (explicitRow : Bool) (rows : List (List (ExprOf Q)))
  | operation (op : SetOp) (quantifier : SetQuantifier) (left right : SetExpr Q)
  | other (form : Rendered)

structure Cte (Q : Type) where
  tableAlias : TableAlias
  query : Q
  source : Option Ident

structure Fetch where
  count : Option Literal
  percent : Bool
  withTies : Bool
deriving DecidableEq, Repr, Inhabited

def Fetch.text (f : Fetch) : String :=
  "FETCH FIRST " ++
    (match f.count with
      | some n => n.text ++ (if f.percent then " PERCENT" else "") ++ " "
      | none => "") ++
    "ROWS " ++ (if f.withTies then "WITH TIES" else "ONLY")

inductive LockWait where
  | nowait
  | skipLocked
deriving DecidableEq, Repr, Inhabited

structure Lock where
  forUpdate : Bool
  table : Option ObjectName
  wait : Option LockWait
deriving DecidableEq, Repr, Inhabited

inductive XmlForm where
  | raw (name : Option String)
  | auto
  | explicit
  | path (name : Option String)
deriving DecidableEq, Repr, Inhabited

inductive JsonForm where
  | auto
  | path
deriving DecidableEq, Repr, Inhabited

inductive ForClause where
  | browse
  | json (form : JsonForm) (root : Option String) (nulls bare : Bool)
  | xml (form : XmlForm) (elements base64 : Bool) (root : Option String) (type : Bool)
deriving DecidableEq, Repr, Inhabited

structure Query where
  recursive : Bool
  ctes : List (Cte Query)
  body : SetExpr Query
  orderBy : List (OrderItem (ExprOf Query))
  limit : Option (ExprOf Query)
  offset : Option (ExprOf Query)
  offsetUnit : String
  fetch : Option Fetch
  locks : List Lock
  forClause : Option ForClause
  form : Rendered

def Query.text (q : Query) : String :=
  q.form.text

def Query.shape (q : Query) : String :=
  q.form.shape

instance : Printed Query := ⟨Query.text, Query.shape⟩

abbrev Expr := ExprOf Query

section Text

variable {Q : Type} [Printed Q]

def SelectItem.text : SelectItem Q → String
  | .expr e (some name) => e.text ++ " AS " ++ name.text
  | .expr e none => e.text
  | .star => "*"
  | .tableStar table => table.text ++ ".*"

def JoinForm.lead (f : JoinForm) : String :=
  (if f.global then "GLOBAL " else "") ++ if f.constraint = .natural then "NATURAL " else ""

def JoinConstraint.suffix : JoinConstraint → String
  | .using columns => " USING(" ++ commas (columns.map Ident.text) ++ ")"
  | _ => ""

def listText (lead : String) (items : List (ExprOf Q)) (close : String) : String :=
  if items.isEmpty then "" else lead ++ commas (items.map ExprOf.text) ++ close

def Source.text : Source Q → String
  | .table name args tableAlias options =>
    name.text ++ argumentsText args ++ (if options.ordinality then " WITH ORDINALITY" else "") ++
      aliasText tableAlias ++ listText " WITH (" options.hints ")" ++
      optionText " FOR SYSTEM_TIME AS OF " options.version
  | .derived lateral query tableAlias =>
    (if lateral then "LATERAL " else "") ++ "(" ++ Printed.text query ++ ")" ++ aliasText tableAlias
  | .join left kind right form condition =>
    left.text ++ " " ++ form.lead ++ kind.text ++ " " ++ right.text ++ kind.suffix ++
      form.constraint.suffix ++ optionText " ON " condition
  | .nested inner tableAlias => "(" ++ inner.text ++ ")" ++ aliasText tableAlias
  | .other form => form.text

def Distinct.text : Distinct Q → String
  | .rows => "DISTINCT"
  | .on columns => "DISTINCT ON (" ++ commas (columns.map ExprOf.text) ++ ")"

def Top.text (t : Top Q) : String :=
  "TOP " ++ (if t.bare then t.count.text else "(" ++ t.count.text ++ ")") ++
    (if t.percent then " PERCENT" else "") ++ (if t.withTies then " WITH TIES" else "")

def groupByText (all : Bool) (items : List (ExprOf Q)) : String :=
  if all then " GROUP BY ALL" else listText " GROUP BY " items ""

def clauseText (keyword : String) (text : Option String) : String :=
  match text with
  | some t => " " ++ keyword ++ " " ++ t
  | none => ""

def Into.text (i : Into) : String :=
  "INTO" ++ (if i.temporary then " TEMPORARY" else "") ++
    (if i.unlogged then " UNLOGGED" else "") ++
    (if i.table then " TABLE" else "") ++ " " ++ i.name.text

def LateralView.text (v : LateralView Q) : String :=
  "LATERAL VIEW" ++ (if v.outer then " OUTER " else " ") ++ v.expr.text ++ " " ++ v.name.text ++
    if v.columns.isEmpty then "" else " AS " ++ commas (v.columns.map Ident.text)

def NamedWindow.text (w : NamedWindow Q) : String :=
  w.name.text ++ " AS " ++ windowText w.window

def Hierarchy.text (h : Hierarchy Q) : String :=
  "START WITH " ++ h.start.text ++ " CONNECT BY " ++ commas (h.links.map ExprOf.text)

def Select.text (s : Select Q) : String :=
  let windows := if s.windows.isEmpty then "" else " WINDOW " ++
    commas (s.windows.map NamedWindow.text)
  let qualify := clauseText "QUALIFY" (s.qualify.map ExprOf.text)
  "SELECT" ++ spaced ((s.distinct.map Distinct.text).toList ++ (s.top.map Top.text).toList) ++
    " " ++ commas (s.items.map SelectItem.text) ++ spaced (s.into.map Into.text).toList ++
    (if s.sources.isEmpty then "" else " FROM " ++ commas (s.sources.map Source.text)) ++
    spaced (s.lateralViews.map LateralView.text) ++ clauseText "WHERE"
      (s.condition.map ExprOf.text) ++
    groupByText s.groupByAll s.groupBy ++ listText " CLUSTER BY " s.clusterBy "" ++
    listText " DISTRIBUTE BY " s.distributeBy "" ++ listText " SORT BY " s.sortBy "" ++
    clauseText "HAVING" (s.having.map ExprOf.text) ++
    (if s.windowsFirst then windows ++ qualify else qualify ++ windows) ++
    spaced (s.hierarchy.map Hierarchy.text).toList

def SetExpr.text : SetExpr Q → String
  | .select s => s.text
  | .query q => "(" ++ Printed.text q ++ ")"
  | .values explicitRow rows =>
    "VALUES " ++ commas (rows.map fun row =>
      (if explicitRow then "ROW(" else "(") ++ commas (row.map ExprOf.text) ++ ")")
  | .operation op quantifier left right =>
    left.text ++ " " ++ op.text ++ quantifier.text ++ " " ++ right.text
  | .other form => form.text

def Cte.text (c : Cte Q) : String :=
  c.tableAlias.text ++ " AS (" ++ Printed.text c.query ++ ")" ++
    clauseText "FROM" (c.source.map Ident.text)

end Text

def LockWait.text : LockWait → String
  | .nowait => "NOWAIT"
  | .skipLocked => "SKIP LOCKED"

def Lock.text (l : Lock) : String :=
  (if l.forUpdate then "FOR UPDATE" else "FOR SHARE") ++
    clauseText "OF" (l.table.map ObjectName.text) ++
    spaced (l.wait.map LockWait.text).toList

def rootText : Option String → String
  | some name => "('" ++ name ++ "')"
  | none => ""

def XmlForm.text : XmlForm → String
  | .raw name => "RAW" ++ rootText name
  | .auto => "AUTO"
  | .explicit => "EXPLICIT"
  | .path name => "PATH" ++ rootText name

def JsonForm.text : JsonForm → String
  | .auto => "AUTO"
  | .path => "PATH"

def ForClause.text : ForClause → String
  | .browse => "FOR BROWSE"
  | .json form root nulls bare =>
    "FOR JSON " ++ form.text ++ (if root.isSome then ", ROOT" ++ rootText root else "") ++
      (if nulls then ", INCLUDE_NULL_VALUES" else "") ++
        if bare then ", WITHOUT_ARRAY_WRAPPER" else ""
  | .xml form elements base64 root type =>
    "FOR XML " ++ form.text ++ (if base64 then ", BINARY BASE64" else "") ++
      (if type then ", TYPE" else "") ++ (if root.isSome then ", ROOT" ++ rootText root else "") ++
      if elements then ", ELEMENTS" else ""

def Query.partsText (q : Query) : String :=
  (if q.ctes.isEmpty then ""
    else "WITH " ++ (if q.recursive then "RECURSIVE " else "") ++
      commas (q.ctes.map Cte.text) ++ " ") ++
  q.body.text ++
  (if q.orderBy.isEmpty then "" else " ORDER BY " ++ commas (q.orderBy.map orderText)) ++
  clauseText "LIMIT" (q.limit.map ExprOf.text) ++
  optionText " OFFSET " q.offset ++ (if q.offsetUnit.isEmpty then "" else " " ++ q.offsetUnit) ++
  spaced ((q.fetch.map Fetch.text).toList ++ q.locks.map Lock.text ++
    (q.forClause.map ForClause.text).toList)

end BatchPlan.Sql
