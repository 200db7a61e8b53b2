import BatchPlan.Options
import BatchPlan.Sql.Statement

namespace BatchPlan.Sql

structure Declaration where
  name : String
  type : TypeName
  initial : Option Expr

structure ThrowArguments where
  number : Expr
  message : Expr
  state : Expr

mutual

inductive CommandNode where
  | sql (statement : Statement)
  | declare (items : List Declaration)
  | set (name : String) (value : Expr)
  | ifElse (condition : Expr) (yes : Command) (no : Option Command)
  | whileLoop (condition : Expr) (body : Command)
  | breakLoop
  | continueLoop
  | block (body : List Command)
  | tryCatch (body handler : List Command)
  | label (name : String)
  | goto (name : String)
  /-- Without arguments the current error is raised again. -/
  | throw (args : Option ThrowArguments)
  | print (value : Expr)
  | exit

inductive Command where
  | mk (node : CommandNode) (location : Location) (hints : Hints)

end

namespace Command

def node : Command → CommandNode
  | .mk node _ _ => node

def location : Command → Location
  | .mk _ location _ => location

def hints : Command → Hints
  | .mk _ _ hints => hints

end Command

instance : Inhabited Command := ⟨.mk .exit default default⟩

end BatchPlan.Sql
