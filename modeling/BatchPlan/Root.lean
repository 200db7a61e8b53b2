import BatchPlan.Plan.Schema
import BatchPlan.Plan.Text
import BatchPlan.Sql.Token

namespace BatchPlan

structure OutputColumn where
  name : String
  source : Column
deriving DecidableEq, Repr, Inhabited

structure QueryPlan where
  root : Plan
  columns : List OutputColumn
deriving Repr, Inhabited

structure OutputField where
  name : String
  dataType : DataType
  nullable : Bool
deriving DecidableEq, Repr, Inhabited

namespace QueryPlan

def schema (q : QueryPlan) : Schema := q.root.schema

/-- What a query returns. A column that cannot be found has no type. -/
def outputFields (q : QueryPlan) : List OutputField :=
  let schema := q.root.schema
  q.columns.map fun c => match schema.field? c.source with
    | some f => ⟨c.name, f.dataType, f.nullable⟩
    | none => ⟨c.name, .null, true⟩

def columnNames (q : QueryPlan) : List String :=
  q.columns.map (·.name)

def outputText (c : OutputColumn) : String :=
  if c.source.name = c.name then c.source.text else c.source.text ++ " AS " ++ c.name

def lines (q : QueryPlan) : List String :=
  ("Output: [" ++ Text.listed (q.columns.map outputText) ++ "]") :: q.root.lines 1

end QueryPlan

inductive RootNode where
  | select (plan : QueryPlan)
  | insert (entity : String) (columns : List String) (source : QueryPlan)
  /-- Each row holds a key and then the values of the columns. -/
  | update (entity primaryKey : String) (columns : List String) (source : QueryPlan)
  | delete (entity primaryKey : String) (source : QueryPlan)
  | declare (name : String) (type : DataType) (initial : Option QueryPlan)
  | assign (name : String) (value : QueryPlan)
  | print (value : QueryPlan)
  | throw (error : QueryPlan)
  | rethrow
  /-- Jumps if the condition comes out as `jumpIf`; NULL counts as false. -/
  | jumpWhen (condition : QueryPlan) (label : String) (jumpIf : Bool)
  | jump (label : String)
  | label (name : String)
  | beginTry
  | endTry
  | beginCatch
  | endCatch
  | exit
  | createTable (name : String) (columns : List TableColumn)
  | dropTable (name : String)
deriving Repr, Inhabited

namespace RootNode

def name : RootNode → String
  | .select _ => "SELECT"
  | .insert .. => "INSERT"
  | .update .. => "UPDATE"
  | .delete .. => "DELETE"
  | .declare .. => "DECLARE"
  | .assign .. => "SET"
  | .print _ => "PRINT"
  | .throw _ => "THROW"
  | .rethrow => "RETHROW"
  | .jumpWhen .. => "CONDITIONAL GOTO"
  | .jump _ => "GOTO"
  | .label _ => "LABEL"
  | .beginTry => "BEGIN TRY"
  | .endTry => "END TRY"
  | .beginCatch => "BEGIN CATCH"
  | .endCatch => "END CATCH"
  | .exit => "RETURN"
  | .createTable .. => "CREATE TABLE"
  | .dropTable _ => "DROP TABLE"

def plan? : RootNode → Option QueryPlan
  | .select plan | .print plan | .throw plan | .insert _ _ plan | .update _ _ _ plan
  | .delete _ _ plan | .assign _ plan | .jumpWhen plan _ _ => some plan
  | .declare _ _ initial => initial
  | _ => none

def written? : RootNode → Option String
  | .declare name _ _ | .assign name _ => some name
  | _ => none

def detail : RootNode → String
  | .insert entity _ _ | .update entity _ _ _ | .delete entity _ _ => " " ++ entity
  | .declare name _ _ | .assign name _ => " " ++ name
  | .jumpWhen _ target jumpIf => " " ++ target ++ " when " ++ if jumpIf then "true" else "not true"
  | .jump target | .label target => " " ++ target
  | .createTable name _ | .dropTable name => " " ++ name
  | _ => ""

end RootNode

structure Root where
  node : RootNode
  location : Sql.Location
deriving Repr, Inhabited

namespace Root

def varNames (r : Root) : List String :=
  Text.sortedNames
    ((r.node.plan?.map fun p => p.root.varNames).getD [] ++ r.node.written?.toList)

def lines (r : Root) : List String :=
  (r.node.name ++ r.node.detail ++ " (line " ++ toString r.location.line ++ ", column " ++
      toString r.location.column ++ ")") ::
    (r.node.plan?.map QueryPlan.lines).getD []

end Root

end BatchPlan
