import BatchPlan.Program
import BatchPlan.Proofs.Binding.Run
import BatchPlan.Proofs.Flow.Machine

namespace BatchPlan

/-- A batch with its statements bound and its control flow still nested. -/
inductive Script where
  | perform (r : Root)
  | exit
  | block (body : List Script)
  | ifThen (condition : QueryPlan) (yes : Script)
  | ifElse (condition : QueryPlan) (yes no : Script)
  | whileLoop (condition : QueryPlan) (body : Script)
  | breakLoop
  | continueLoop

namespace Sql

mutual

/-- Has a command no labels, GOTO, THROW or TRY in it? -/
def Command.isStructured : Command → Bool
  | .mk node _ _ => node.isStructured

def CommandNode.isStructured : CommandNode → Bool
  | .sql _ | .declare _ | .set .. | .print _ | .exit | .breakLoop | .continueLoop => true
  | .block body => areStructured body
  | .ifElse _ yes no => yes.isStructured && match no with
    | none => true
    | some no => no.isStructured
  | .whileLoop _ body => body.isStructured
  | .tryCatch .. | .label _ | .goto _ | .throw _ => false

def areStructured : List Command → Bool
  | [] => true
  | c :: rest => c.isStructured && areStructured rest

end

end Sql

namespace Script

mutual

def ofCommand (b : QueryBinder) : Sql.Command → BindM Script
  | .mk node location hints => ofNode b location hints node

def ofNode (b : QueryBinder) (location : Sql.Location) (hints : Hints) :
    Sql.CommandNode → BindM Script
  | .sql statement => do
    let nodes ← withReader (fun c => { c with recursionHint := hints.maxRecursion })
      (b.statement hints statement)
    return .block (nodes.map fun node => .perform ⟨node, location⟩)
  | .declare items => do
    return .block ((← items.mapM b.declare).map fun node => .perform ⟨node, location⟩)
  | .set name value => return .perform ⟨← b.assign name value, location⟩
  | .print value => return .perform ⟨.print (← b.value value), location⟩
  | .exit => return .exit
  | .block body => return .block (← ofCommands b body)
  | .ifElse condition yes no => do
    let condition ← b.condition condition
    let yes ← ofCommand b yes
    match no with
    | none => return .ifThen condition yes
    | some no => return .ifElse condition yes (← ofCommand b no)
  | .whileLoop condition body => do
    let condition ← b.condition condition
    return .whileLoop condition (← ofCommand b body)
  | .breakLoop => return .breakLoop
  | .continueLoop => return .continueLoop
  | .tryCatch .. | .label _ | .goto _ | .throw _ =>
    throw (.unsupported "control flow without structure")

def ofCommands (b : QueryBinder) : List Sql.Command → BindM (List Script)
  | [] => return []
  | c :: rest => do
    let first ← ofCommand b c
    return first :: (← ofCommands b rest)

end

/-- A loop whose body is running, and what comes after the loop. -/
structure Frame where
  condition : QueryPlan
  body : Script
  rest : List Script

/-- What is left to do, up to the end of the innermost loop's body, and the loops around it. -/
structure Position where
  todo : List Script
  loops : List Frame

def Frame.again (f : Frame) : List Script :=
  .whileLoop f.condition f.body :: f.rest

open BatchPlan.Flow

def step : Position → Step Position
  | ⟨[], []⟩ => .halt
  | ⟨[], f :: loops⟩ => .silent ⟨f.again, loops⟩
  | ⟨.perform r :: rest, loops⟩ => .perform r ⟨rest, loops⟩
  | ⟨.exit :: _, _⟩ => .halt
  | ⟨.block body :: rest, loops⟩ => .silent ⟨body ++ rest, loops⟩
  | ⟨.ifThen c yes :: rest, loops⟩ =>
    .test c fun a => if a = .true then ⟨yes :: rest, loops⟩ else ⟨rest, loops⟩
  | ⟨.ifElse c yes no :: rest, loops⟩ =>
    .test c fun a => if a = .true then ⟨yes :: rest, loops⟩ else ⟨no :: rest, loops⟩
  | ⟨.whileLoop c body :: rest, loops⟩ =>
    .test c fun a => if a = .true then ⟨[body], ⟨c, body, rest⟩ :: loops⟩ else ⟨rest, loops⟩
  | ⟨.breakLoop :: _, f :: loops⟩ => .silent ⟨f.rest, loops⟩
  | ⟨.continueLoop :: _, f :: loops⟩ => .silent ⟨f.again, loops⟩
  | ⟨.breakLoop :: _, []⟩ | ⟨.continueLoop :: _, []⟩ => .stuck

def start (script : List Script) : Position := ⟨script, []⟩

end Script

end BatchPlan
