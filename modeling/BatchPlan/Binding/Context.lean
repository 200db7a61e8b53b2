import BatchPlan.Catalog
import BatchPlan.Options
import BatchPlan.Plan.Estimate
import BatchPlan.Session
import BatchPlan.Sql.Batch

namespace BatchPlan

structure Variable where
  name : String
  dataType : DataType
deriving DecidableEq, Repr, Inhabited

/-- A common table expression and those in view where it is defined, the newest first. -/
structure CteDefinition where
  name : String
  columns : List String
  query : Sql.Query
  visible : List CteDefinition

/-- A column of a recursive row, and the parameter by which a recursive step reads it. -/
structure RecursiveColumn where
  name : String
  dataType : DataType
  nullable : Bool
  param : String
deriving DecidableEq, Repr, Inhabited

/-- A recursive expression as its own recursive members read it. -/
structure RecursiveReference where
  name : String
  columns : List RecursiveColumn
deriving DecidableEq, Repr, Inhabited

structure BindContext where
  catalog : Catalog
  options : Options
  recursionHint : Option Nat := none
  /-- Common table expressions in view, the newest first. -/
  ctes : List CteDefinition := []
  /-- Recursive expressions whose recursive members are being bound, the newest first. -/
  recursive : List RecursiveReference := []
  /-- How deep the query is nested; the query of a statement has depth 1. -/
  depth : Nat := 0

namespace BindContext

def cte? (c : BindContext) (name : String) : Option CteDefinition :=
  c.ctes.find? fun d => Text.sameAscii d.name name

def recursiveReference? (c : BindContext) (name : String) : Option RecursiveReference :=
  c.recursive.find? fun r => Text.sameAscii r.name name

/-- How often a recursive step may run; 0 means without a bound. -/
def maxRecursion (c : BindContext) : Nat :=
  c.recursionHint.getD c.options.maxRecursion

end BindContext

structure NameSupply where
  exprs : Nat := 0
  segments : Nat := 0
  spools : Nat := 0
deriving DecidableEq, Repr, Inhabited

/-- A column of an enclosing query that was read, with its type. -/
structure Captured where
  binding : OuterBinding
  dataType : DataType
deriving DecidableEq, Repr, Inhabited

structure BindState where
  session : Session
  declared : List (String × Variable) := []
  names : NameSupply := {}
  /-- What each query being bound has read of the one around it, the innermost query first. -/
  captured : List (List Captured) := []
  /-- Whether a count went beyond a word. Whatever is still done then, nothing comes of it. -/
  overflow : Bool := false
deriving Repr, Inhabited

/-- What binding works on: the surroundings of the query at hand, and the state. -/
structure Desk where
  context : BindContext
  state : BindState

/-- Actions that may change the surroundings. They may fail, and what they did stays done then. -/
abbrev DeskM := ExceptT PlanError (StateM Desk)

namespace DeskM

variable {α β : Type}

/-- An action that leaves the surroundings as it found them, also when it fails. -/
def Tidy (x : DeskM α) : Prop :=
  ∀ d, (x.run.run d).2.context = d.context

theorem run_bind (x : DeskM α) (f : α → DeskM β) (d : Desk) :
    (x >>= f).run.run d = match x.run.run d with
      | (.ok a, d') => (f a).run.run d'
      | (.error e, d') => (.error e, d') := by
  change ExceptT.bindCont f (x.run.run d).1 (x.run.run d).2 = _
  rcases x.run.run d with ⟨_ | _, d'⟩ <;> rfl

theorem run_tryCatch (x : DeskM α) (h : PlanError → DeskM α) (d : Desk) :
    (tryCatch x h).run.run d = match x.run.run d with
      | (.ok a, d') => (.ok a, d')
      | (.error e, d') => (h e).run.run d' := by
  rcases hx : x.run.run d with ⟨_ | _, d'⟩
  all_goals
    simp only [ExceptT.run] at hx
    simp only [tryCatch, tryCatchThe, MonadExceptOf.tryCatch, ExceptT.tryCatch,
      ExceptT.mk, ExceptT.run]
    rw [StateT.run_bind, hx]
    rfl

theorem Tidy.bind {x : DeskM α} {f : α → DeskM β} (hx : x.Tidy) (hf : ∀ a, (f a).Tidy) :
    (x >>= f).Tidy := by
  intro d
  have hd := hx d
  rw [run_bind]
  rcases hrun : x.run.run d with ⟨_ | a, d'⟩ <;> rw [hrun] at hd
  · exact hd
  · exact (hf a d').trans hd

theorem Tidy.tryCatch {x : DeskM α} {h : PlanError → DeskM α} (hx : x.Tidy) (hh : ∀ e, (h e).Tidy) :
    (tryCatch x h).Tidy := by
  intro d
  have hd := hx d
  rw [run_tryCatch]
  rcases hrun : x.run.run d with ⟨e | _, d'⟩ <;> rw [hrun] at hd
  · exact (hh e d').trans hd
  · exact hd

/-- The outcome of an action, whether it fails or not. -/
def outcome (x : DeskM α) : DeskM (Result α) :=
  ExceptT.mk do return .ok (← x.run)

def change (f : BindContext → BindContext) : DeskM Unit :=
  modify fun d => { d with context := f d.context }

end DeskM

/-- Binding may fail, and keeps its state when it does. It leaves its surroundings as it found
them. -/
structure BindM (α : Type) where
  act : DeskM α
  tidy : act.Tidy

namespace BindM

variable {α : Type}

instance : Monad BindM where
  pure a := ⟨pure a, fun _ => rfl⟩
  bind x f := ⟨x.act >>= fun a => (f a).act, x.tidy.bind fun a => (f a).tidy⟩

instance : MonadStateOf BindState BindM where
  get := ⟨do return (← get).state, fun _ => rfl⟩
  set s := ⟨modify fun d => { d with state := s }, fun _ => rfl⟩
  modifyGet f := ⟨modifyGet fun d => ((f d.state).1, { d with state := (f d.state).2 }),
    fun _ => rfl⟩

instance : MonadReaderOf BindContext BindM where
  read := ⟨do return (← get).context, fun _ => rfl⟩

instance : MonadExceptOf PlanError BindM where
  throw e := ⟨throw e, fun _ => rfl⟩
  tryCatch x h := ⟨tryCatch x.act fun e => (h e).act, x.tidy.tryCatch fun e => (h e).tidy⟩

instance : MonadLift Result BindM where
  monadLift r := ⟨ExceptT.mk (pure r), fun _ => rfl⟩

/-- The outcome of an action and the state it leaves. -/
def start (x : BindM α) (context : BindContext) (state : BindState) : Result α × BindState :=
  let run := x.act.run.run ⟨context, state⟩
  (run.1, run.2.state)

/-- Replaces the expressions in view for an action, and puts those from before back. -/
def amidst (ctes : List CteDefinition) (x : BindM α) : BindM α where
  act := do
    let saved := (← get).context.ctes
    DeskM.change fun c => { c with ctes }
    let result ← x.act.outcome
    DeskM.change fun c => { c with ctes := saved }
    liftM result
  tidy d := congrArg (fun c : BindContext => { c with ctes := d.context.ctes })
    (x.tidy { d with context := { d.context with ctes } })

/-- Pushes a recursive expression for the binding of its recursive members, and pops it. -/
def stepping (r : RecursiveReference) (x : BindM α) : BindM α where
  act := do
    DeskM.change fun c => { c with recursive := r :: c.recursive }
    let result ← x.act.outcome
    DeskM.change fun c => { c with recursive := c.recursive.tail }
    liftM result
  tidy d := congrArg (fun c : BindContext => { c with recursive := c.recursive.tail })
    (x.tidy { d with context := { d.context with recursive := r :: d.context.recursive } })

/-- The value of a count, or another one where it overflows. -/
def counted (otherwise : α) : Except Overflow α → BindM α
  | .ok a => pure a
  | .error _ => do
    modify fun s => { s with overflow := true }
    return otherwise

def freshExpr : BindM String :=
  modifyGet fun s =>
    let n := s.names.exprs + 1
    ("Expr" ++ toString n, { s with names := { s.names with exprs := n } })

/-- Fresh parameter. Parameters and computed columns are counted together. -/
def freshParam : BindM String := do
  return "@" ++ (← freshExpr)

def freshSegment : BindM String :=
  modifyGet fun s =>
    let n := s.names.segments + 1
    ("Segment" ++ toString n, { s with names := { s.names with segments := n } })

def freshSpool : BindM Nat :=
  modifyGet fun s =>
    let n := s.names.spools + 1
    (n, { s with names := { s.names with spools := n } })

def lookupVariable (name : String) : BindM Variable := do
  match (← get).declared.lookup (Text.lower name) with
  | some v => return v
  | none => throw (.undeclaredVariable name)

def declareVariable (name : String) (dataType : DataType) : BindM Unit := do
  let key := Text.lower name
  if ((← get).declared.lookup key).isSome then throw (.duplicate "variable" name)
  modify fun s => { s with declared := (key, ⟨name, dataType⟩) :: s.declared }

/-- Runs an action as a query of its own, and returns what it read of the query around it. -/
def enclosed {α : Type} (act : BindM α) : BindM (α × List Captured) := do
  modify fun s => { s with captured := [] :: s.captured }
  let leave : BindM (List Captured) :=
    modifyGet fun s => (s.captured.headD [], { s with captured := s.captured.tail })
  tryCatch
    (do
      let a ← act
      return (a, ← leave))
    fun e => do
      discard leave
      throw e

/-- Takes over what an inner query read, each parameter once. -/
def absorb (inner : List Captured) : BindM Unit :=
  modify fun s => match s.captured with
    | [] => s
    | own :: rest =>
      let own := inner.foldl (fun own c =>
        if own.any fun o => o.binding.param == c.binding.param then own else own ++ [c]) own
      { s with captured := own :: rest }

/-- The parameter for a column of an enclosing query; level 0 is the nearest one. It belongs to the
query right below the owner of the column, and one column has one parameter there. -/
def capture (level : Nat) (column : Column) (dataType : DataType) : BindM Scalar := do
  let own := (← get).captured.getD level []
  match own.find? fun c => c.binding.column == column with
  | some c => return .outer c.binding.param c.dataType
  | none =>
    let param ← freshParam
    modify fun s =>
      { s with captured := s.captured.modify level (· ++ [⟨⟨param, column⟩, dataType⟩]) }
    return .outer param dataType

end BindM

end BatchPlan
