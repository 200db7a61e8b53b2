import BatchPlan.Binding.Change
import BatchPlan.Sql.Grammar.Batch

namespace BatchPlan

structure Loop where
  start : String
  stop : String
deriving DecidableEq, Repr, Inhabited

structure Surroundings where
  loop : Option Loop := none
  /-- The TRY and CATCH blocks around the command, the outermost first. -/
  regions : List Nat := []
  inCatch : Bool := false
deriving DecidableEq, Repr, Inhabited

/-- A jump of the batch and the TRY and CATCH blocks around it. -/
structure Jump where
  label : String
  regions : List Nat
deriving DecidableEq, Repr, Inhabited

structure Assembly where
  state : BindState
  roots : List Root := []
  errors : List PlanError := []
  /-- The labels of the batch in lower case, with the TRY and CATCH blocks around them. -/
  labels : List (String × List Nat) := []
  jumps : List Jump := []
  regionCount : Nat := 0
  labelCount : Nat := 0
deriving Repr, Inhabited

abbrev AssemblyM := ReaderT BindContext (StateM Assembly)

namespace AssemblyM

def perform {α : Type} (act : BindM α) : AssemblyM (Result α) := do
  let context ← read
  modifyGet fun a =>
    let (result, state) := act.start context a.state
    (result, { a with state })

def emit (location : Sql.Location) (node : RootNode) : AssemblyM Unit :=
  modify fun a => { a with roots := a.roots ++ [⟨node, location⟩] }

def fail (e : PlanError) : AssemblyM Unit :=
  modify fun a => { a with errors := a.errors ++ e.flatten }

def emitAll (location : Sql.Location) (act : BindM (List RootNode)) : AssemblyM Unit := do
  match ← perform act with
  | .ok nodes => nodes.forM (emit location)
  | .error e => fail e

def emitOne (location : Sql.Location) (act : BindM RootNode) : AssemblyM Unit :=
  emitAll location do return [← act]

def freshLabel : AssemblyM String :=
  modifyGet fun a => (toString (a.labelCount + 1), { a with labelCount := a.labelCount + 1 })

def enterRegion (s : Surroundings) : AssemblyM Surroundings :=
  modifyGet fun a =>
    let region := a.regionCount + 1
    ({ s with regions := s.regions ++ [region] }, { a with regionCount := region })

end AssemblyM

open AssemblyM

def QueryBinder.declare (b : QueryBinder) (d : Sql.Declaration) : BindM RootNode := do
  let type ← DataType.ofName d.type
  let initial ← d.initial.mapM (b.assignedValue type)
  BindM.declareVariable d.name type
  return .declare d.name type initial

def QueryBinder.assign (b : QueryBinder) (name : String) (e : Sql.Expr) : BindM RootNode := do
  let v ← BindM.lookupVariable name
  return .assign name (← b.assignedValue v.dataType e)

def QueryBinder.jumpUnless (b : QueryBinder) (e : Sql.Expr) (label : String) : BindM RootNode := do
  return .jumpWhen (← b.condition e) label false

def outsideLoop (word : String) : PlanError :=
  .structural ("Cannot use a " ++ word ++ " statement outside the scope of a WHILE statement.")

def leaveLoop (s : Surroundings) (location : Sql.Location) (word : String)
    (target : Loop → String) : AssemblyM Unit :=
  match s.loop with
  | some loop => emit location (.jump (target loop))
  | none => fail (outsideLoop word)

def addLabel (s : Surroundings) (location : Sql.Location) (name : String) : AssemblyM Unit := do
  let key := Text.lower name
  if ((← get).labels.lookup key).isSome then fail (.duplicate "label" name)
  else
    modify fun a => { a with labels := (key, s.regions) :: a.labels }
    emit location (.label name)

def addJump (s : Surroundings) (location : Sql.Location) (name : String) : AssemblyM Unit := do
  modify fun a => { a with jumps := a.jumps ++ [⟨name, s.regions⟩] }
  emit location (.jump name)

def addThrow (s : Surroundings) (location : Sql.Location) :
    Option Sql.ThrowArguments → AssemblyM Unit
  | some args => emitOne location do return .throw (← bindThrow args)
  | none =>
    if s.inCatch then emit location .rethrow
    else fail (.structural "The THROW statement without parameters must be inside a CATCH block.")

mutual

def assemble (b : QueryBinder) (s : Surroundings) : Sql.Command → AssemblyM Unit
  | .mk node location hints => assembleNode b s location hints node

def assembleNode (b : QueryBinder) (s : Surroundings) (location : Sql.Location) (hints : Hints) :
    Sql.CommandNode → AssemblyM Unit
  | .sql statement =>
    withReader (fun c => { c with recursionHint := hints.maxRecursion })
      (emitAll location (b.statement hints statement))
  | .declare items => items.forM fun d => emitOne location (b.declare d)
  | .set name value => emitOne location (b.assign name value)
  | .print value => emitOne location do return .print (← b.value value)
  | .exit => emit location .exit
  | .throw args => addThrow s location args
  | .block body => assembleAll b s body
  | .ifElse condition yes no => do
    let id ← freshLabel
    let otherwise := "if." ++ id ++ ".else"
    let stop := "if." ++ id ++ ".end"
    emitOne location (b.jumpUnless condition otherwise)
    assemble b s yes
    match no with
    | none => emit location (.label otherwise)
    | some no =>
      emit location (.jump stop)
      emit location (.label otherwise)
      assemble b s no
      emit location (.label stop)
  | .whileLoop condition body => do
    let id ← freshLabel
    let loop : Loop := ⟨"while." ++ id ++ ".start", "while." ++ id ++ ".end"⟩
    emit location (.label loop.start)
    emitOne location (b.jumpUnless condition loop.stop)
    assemble b { s with loop := some loop } body
    emit location (.jump loop.start)
    emit location (.label loop.stop)
  | .breakLoop => leaveLoop s location "BREAK" Loop.stop
  | .continueLoop => leaveLoop s location "CONTINUE" Loop.start
  | .tryCatch body handler => do
    emit location .beginTry
    assembleAll b (← enterRegion s) body
    emit location .endTry
    emit location .beginCatch
    assembleAll b { ← enterRegion s with inCatch := true } handler
    emit location .endCatch
  | .label name => addLabel s location name
  | .goto name => addJump s location name

def assembleAll (b : QueryBinder) (s : Surroundings) : List Sql.Command → AssemblyM Unit
  | [] => pure ()
  | c :: rest => do
    assemble b s c
    assembleAll b s rest

end

/-- A jump goes to a label of the batch, and not into a TRY or CATCH block. -/
def Assembly.checkJump (a : Assembly) (j : Jump) : Option PlanError :=
  match a.labels.lookup (Text.lower j.label) with
  | none => some (.semantic ("A GOTO statement references the label '" ++ j.label ++
      "' but the label has not been declared."))
  | some regions =>
    if regions.isPrefixOf j.regions then none
    else some (.structural "GOTO cannot be used to jump into a TRY or CATCH scope.")

/-- Why there is no program. -/
inductive BuildFailure where
  | faults (errors : List PlanError)
  | overflow
deriving Repr, Inhabited

def Assembly.finish (a : Assembly) : Except BuildFailure (List Root) :=
  if a.state.overflow then .error .overflow
  else match a.errors ++ a.jumps.filterMap a.checkJump with
    | [] => .ok a.roots
    | errors => .error (.faults errors)

structure BuildInput where
  catalog : Catalog
  session : Session := .empty
  options : Options := {}
  params : List (String × DataType) := []

def BuildInput.start (i : BuildInput) : Result BindState :=
  let declared := i.params.forM fun (name, type) => BindM.declareVariable name type
  match declared.start { catalog := i.catalog, options := i.options } { session := i.session } with
  | (.ok _, state) => .ok state
  | (.error e, _) => .error e

/-- The program of a batch. The faults of all commands are reported together. Queries are never
nested deeper than the batch is long. -/
def BuildInput.build (i : BuildInput) (sql : String) : Except BuildFailure (List Root) := do
  let (commands, state) ← Except.mapError (fun e => BuildFailure.faults e.flatten) do
    i.options.validate
    let commands ← Sql.parseBatch sql
    return (commands, ← i.start)
  let binder := QueryBinder.ofDepth (sql.length + 1)
  let context : BindContext := { catalog := i.catalog, options := i.options }
  let (_, assembly) := (assembleAll binder {} commands context).run { state }
  assembly.finish

end BatchPlan
