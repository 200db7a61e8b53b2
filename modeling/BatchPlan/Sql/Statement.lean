import BatchPlan.Sql.Query.Shape

namespace BatchPlan.Sql

structure Insert where
  table : ObjectName
  columns : List Ident
  /-- No source means default values. -/
  source : Option Query
  form : Rendered

inductive AssignmentTarget where
  | column (name : ObjectName)
  | tuple (names : List ObjectName)
deriving DecidableEq, Repr, Inhabited

def AssignmentTarget.text : AssignmentTarget → String
  | .column name => name.text
  | .tuple names => "(" ++ commas (names.map ObjectName.text) ++ ")"

def AssignmentTarget.shape : AssignmentTarget → String
  | .column name => Shape.tuple "ColumnName" [name.shape]
  | .tuple names => Shape.tuple "Tuple" [Shape.list (names.map ObjectName.shape)]

structure Assignment where
  target : AssignmentTarget
  value : Expr

def Assignment.text (a : Assignment) : String :=
  a.target.text ++ " = " ++ a.value.text

def Assignment.shape (a : Assignment) : String :=
  Shape.record "Assignment" [("target", a.target.shape), ("value", a.value.shape)]

def assignmentShapes (assignments : List Assignment) : String :=
  Shape.list (assignments.map Assignment.shape)

def returningText (items : Option (List (SelectItem Query))) : String :=
  clauseText "RETURNING" (items.map fun items => commas (items.map SelectItem.text))

def returningShape (items : Option (List (SelectItem Query))) : String :=
  Shape.option (items.map fun items => Shape.list (items.map SelectItem.shape))

structure Update where
  table : Source Query
  assignments : List Assignment
  source : Option (Source Query)
  condition : Option Expr
  returning : Option (List (SelectItem Query))

def Update.text (u : Update) : String :=
  "UPDATE " ++ u.table.text ++
    (if u.assignments.isEmpty then ""
      else " SET " ++ commas (u.assignments.map Assignment.text)) ++
    clauseText "FROM" (u.source.map Source.text) ++
    clauseText "WHERE" (u.condition.map ExprOf.text) ++
    returningText u.returning

def Update.shape (u : Update) : String :=
  Shape.record "Update" [("table", u.table.shape), ("assignments", assignmentShapes u.assignments),
    ("from", Shape.option (u.source.map Source.shape)), ("selection", optionShape u.condition),
    ("returning", returningShape u.returning)]

structure Delete where
  tables : List ObjectName
  sources : List (Source Query)
  hasUsing : Bool
  condition : Option Expr

structure ColumnDef where
  name : Ident
  type : TypeName
  collation : Option ObjectName
  notNull : Bool
deriving DecidableEq, Repr, Inhabited

structure CreateTable where
  name : ObjectName
  columns : List ColumnDef
  hasQuery : Bool
deriving DecidableEq, Repr, Inhabited

structure DropObjects where
  kind : String
  ifExists : Bool
  names : List ObjectName
deriving DecidableEq, Repr, Inhabited

inductive Statement where
  | query (q : Query)
  | insert (i : Insert)
  | update (u : Update)
  | delete (d : Delete)
  | createTable (c : CreateTable)
  | drop (d : DropObjects)
  /-- A statement without a rule of the binder, as its first two words. -/
  | other (headline : String)

inductive StatementKind where
  | query
  | insert
  | update
  | delete
  | createTable
  | drop
  | other
deriving DecidableEq, Repr, Inhabited

def Statement.kind : Statement → StatementKind
  | .query _ => .query
  | .insert _ => .insert
  | .update _ => .update
  | .delete _ => .delete
  | .createTable _ => .createTable
  | .drop _ => .drop
  | .other _ => .other

end BatchPlan.Sql
