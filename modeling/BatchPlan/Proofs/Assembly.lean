import BatchPlan.Program

namespace BatchPlan

variable {roots : List Root} {node : RootNode} {α : Type} {f : α → AssemblyM PUnit}

namespace AssemblyM

variable {α β : Type} {c : BindContext} {a : Assembly}

def after (x : AssemblyM α) (c : BindContext) (a : Assembly) : Assembly :=
  ((x c).run a).2

theorem after_bind (x : AssemblyM α) (f : α → AssemblyM β) :
    (x >>= f).after c a = (f ((x c).run a).1).after c (x.after c a) := rfl

theorem after_bind_of {x : AssemblyM α} {v : α} {a' : Assembly} (h : (x c).run a = (v, a'))
    (f : α → AssemblyM β) : (x >>= f).after c a = (f v).after c a' := by
  change (f ((x c).run a).1).after c ((x c).run a).2 = _
  rw [h]

theorem after_freshLabel_bind (f : String → AssemblyM α) :
    (freshLabel >>= f).after c a =
      (f (toString (a.labelCount + 1))).after c { a with labelCount := a.labelCount + 1 } := rfl

theorem after_emit (location : Sql.Location) (node : RootNode) :
    (emit location node).after c a = { a with roots := a.roots ++ [⟨node, location⟩] } := rfl

theorem after_forM_emit (location : Sql.Location) (nodes : List RootNode) :
    (nodes.forM (emit location)).after c a =
      { a with roots := a.roots ++ nodes.map (⟨·, location⟩) } := by
  induction nodes generalizing a with
  | nil =>
    change a = _
    simp
  | cons node rest ih =>
    change (rest.forM (emit location)).after c ((emit location node).after c a) = _
    rw [ih, after_emit]
    simp

theorem after_emitAll (location : Sql.Location) (act : BindM (List RootNode)) :
    (emitAll location act).after c a = match act.start c a.state with
      | (.ok nodes, state) => { a with state, roots := a.roots ++ nodes.map (⟨·, location⟩) }
      | (.error e, state) => { a with state, errors := a.errors ++ e.flatten } := by
  cases h : act.start c a.state with
  | mk r state =>
    have hperform : (perform act c).run a = (r, { a with state }) := by
      change (fun p : Result _ × BindState => (p.1, { a with state := p.2 }))
        (act.start c a.state) = _
      rw [h]
    unfold emitAll
    rw [after_bind_of hperform]
    cases r with
    | ok nodes => exact after_forM_emit location nodes
    | error e => rfl

end AssemblyM

open AssemblyM

/-- The actions that give one root each. -/
inductive RootAction
  | declare (d : Sql.Declaration)
  | assign (name : String) (e : Sql.Expr)
  | print (e : Sql.Expr)
  | jumpUnless (e : Sql.Expr) (label : String)
  | throw (args : Sql.ThrowArguments)

def RootAction.act (b : QueryBinder) : RootAction → BindM RootNode
  | declare d => b.declare d
  | assign name e => b.assign name e
  | print e => do return .print (← b.value e)
  | jumpUnless e label => b.jumpUnless e label
  | throw args => do return .throw (← bindThrow args)

def RootNode.isControl : RootNode → Bool
  | .rethrow | .jump _ | .label _ | .beginTry | .endTry | .beginCatch | .endCatch | .exit => true
  | _ => false

theorem RootNode.plan?_of_isControl (h : node.isControl) : node.plan? = none := by
  unfold isControl at h
  split at h
  case h_9 => cases h
  all_goals rfl

/-- A relation between assemblies that is respected by the steps that bind nothing. -/
structure Tolerates (T : Assembly → Assembly → Prop) : Prop where
  refl : ∀ a, T a a
  trans : ∀ {a a' a''}, T a a' → T a' a'' → T a a''
  note : ∀ a labels jumps regionCount labelCount,
    T a { a with labels, jumps, regionCount, labelCount }
  fail : ∀ a e, T a { a with errors := a.errors ++ PlanError.flatten e }
  emit : ∀ a location node, node.isControl → T a { a with roots := a.roots ++ [⟨node, location⟩] }

/-- An action that binds nothing. -/
def Idle {α : Type} (x : AssemblyM α) : Prop :=
  ∀ T, Tolerates T → ∀ c a, T a (x.after c a)

namespace Idle

theorem bind {β : Type} {x : AssemblyM α} {f : α → AssemblyM β} (hx : Idle x)
    (hf : ∀ v, Idle (f v)) : Idle (x >>= f) :=
  fun T h c a => h.trans (hx T h c a) (hf _ T h c _)

theorem emit (location : Sql.Location) (hnode : node.isControl) :
    Idle (AssemblyM.emit location node) :=
  fun _ h _ a => h.emit a location node hnode

theorem fail (e : PlanError) : Idle (AssemblyM.fail e) :=
  fun _ h _ a => h.fail a e

theorem freshLabel : Idle AssemblyM.freshLabel :=
  fun _ h _ a => h.note a _ _ _ _

theorem enterRegion (s : Surroundings) : Idle (AssemblyM.enterRegion s) :=
  fun _ h _ a => h.note a _ _ _ _

theorem leaveLoop (s : Surroundings) (location : Sql.Location) (word : String)
    (target : Loop → String) : Idle (BatchPlan.leaveLoop s location word target) := by
  unfold BatchPlan.leaveLoop
  split
  · exact .emit location rfl
  · exact .fail _

theorem addLabel (s : Surroundings) (location : Sql.Location) (name : String) :
    Idle (BatchPlan.addLabel s location name) := by
  refine .bind (fun _ h _ a => h.refl a) fun a => ?_
  split
  · exact .fail _
  · exact .bind (fun _ h _ a => h.note a _ _ _ _) fun _ => .emit location rfl

theorem addJump (s : Surroundings) (location : Sql.Location) (name : String) :
    Idle (BatchPlan.addJump s location name) :=
  .bind (fun _ h _ a => h.note a _ _ _ _) fun _ => .emit location rfl

end Idle

/-- A relation between what two binders make of a batch that holds of each step. -/
structure StepRelation (b b' : QueryBinder) (R : (α : Type) → AssemblyM α → AssemblyM α → Prop) :
    Prop where
  idle : ∀ {α} {x : AssemblyM α}, Idle x → R α x x
  bind : ∀ {α β} {x y : AssemblyM α} {f g : α → AssemblyM β}, R α x y → (∀ v, R β (f v) (g v)) →
    R β (x >>= f) (y >>= g)
  statement : ∀ location hints s, R Unit
    (withReader (fun c => { c with recursionHint := hints.maxRecursion })
      (emitAll location (b.statement hints s)))
    (withReader (fun c => { c with recursionHint := hints.maxRecursion })
      (emitAll location (b'.statement hints s)))
  root : ∀ location (r : RootAction), R Unit (emitOne location (r.act b))
    (emitOne location (r.act b'))

namespace StepRelation

variable {b b' : QueryBinder} {R : (α : Type) → AssemblyM α → AssemblyM α → Prop}

theorem forM (h : StepRelation b b' R) {g : α → AssemblyM PUnit} (hf : ∀ v, R PUnit (f v) (g v))
    (xs : List α) : R PUnit (xs.forM f) (xs.forM g) := by
  induction xs with
  | nil => exact h.idle fun _ h _ a => h.refl a
  | cons x xs ih => exact h.bind (hf x) fun _ => ih

theorem holds_addThrow (h : StepRelation b b' R) (s : Surroundings) (location : Sql.Location)
    (args : Option Sql.ThrowArguments) :
    R Unit (addThrow s location args) (addThrow s location args) := by
  unfold addThrow
  split
  · exact h.root location (.throw _)
  · split
    · exact h.idle (.emit location rfl)
    · exact h.idle (.fail _)

mutual

theorem holds_assemble (h : StepRelation b b' R) (s : Surroundings) :
    ∀ command, R Unit (assemble b s command) (assemble b' s command)
  | .mk node location hints => by
    rw [assemble, assemble]
    exact h.holds_assembleNode s location hints node

theorem holds_assembleNode (h : StepRelation b b' R) (s : Surroundings) (location : Sql.Location)
    (hints : Hints) : ∀ node, R Unit (assembleNode b s location hints node)
      (assembleNode b' s location hints node)
  | .sql statement => by
    rw [assembleNode, assembleNode]
    exact h.statement location hints statement
  | .declare items => by
    rw [assembleNode, assembleNode]
    exact h.forM (fun d => h.root location (.declare d)) items
  | .set name value => by
    rw [assembleNode, assembleNode]
    exact h.root location (.assign name value)
  | .print value => by
    rw [assembleNode, assembleNode]
    exact h.root location (.print value)
  | .exit => by
    rw [assembleNode, assembleNode]
    exact h.idle (.emit location rfl)
  | .throw args => by
    rw [assembleNode, assembleNode]
    exact h.holds_addThrow s location args
  | .block body => by
    rw [assembleNode, assembleNode]
    exact h.holds_assembleAll s body
  | .ifElse condition yes none => by
    rw [assembleNode, assembleNode]
    exact h.bind (h.idle .freshLabel) fun _ =>
      h.bind (h.root location (.jumpUnless condition _)) fun _ =>
      h.bind (h.holds_assemble s yes) fun _ => h.idle (.emit location rfl)
  | .ifElse condition yes (some no) => by
    rw [assembleNode, assembleNode]
    exact h.bind (h.idle .freshLabel) fun _ =>
      h.bind (h.root location (.jumpUnless condition _)) fun _ =>
      h.bind (h.holds_assemble s yes) fun _ => h.bind (h.idle (.emit location rfl)) fun _ =>
      h.bind (h.idle (.emit location rfl)) fun _ => h.bind (h.holds_assemble s no) fun _ =>
      h.idle (.emit location rfl)
  | .whileLoop condition body => by
    rw [assembleNode, assembleNode]
    exact h.bind (h.idle .freshLabel) fun _ => h.bind (h.idle (.emit location rfl)) fun _ =>
      h.bind (h.root location (.jumpUnless condition _)) fun _ =>
        h.bind (h.holds_assemble _ body) fun _ =>
      h.bind (h.idle (.emit location rfl)) fun _ => h.idle (.emit location rfl)
  | .breakLoop | .continueLoop => by
    rw [assembleNode, assembleNode]
    exact h.idle (.leaveLoop s location _ _)
  | .tryCatch body handler => by
    rw [assembleNode, assembleNode]
    exact h.bind (h.idle (.emit location rfl)) fun _ => h.bind (h.idle (.enterRegion s)) fun _ =>
      h.bind (h.holds_assembleAll _ body) fun _ => h.bind (h.idle (.emit location rfl)) fun _ =>
      h.bind (h.idle (.emit location rfl)) fun _ => h.bind (h.idle (.enterRegion s)) fun _ =>
      h.bind (h.holds_assembleAll _ handler) fun _ => h.idle (.emit location rfl)
  | .label name => by
    rw [assembleNode, assembleNode]
    exact h.idle (.addLabel s location name)
  | .goto name => by
    rw [assembleNode, assembleNode]
    exact h.idle (.addJump s location name)

theorem holds_assembleAll (h : StepRelation b b' R) (s : Surroundings) :
    ∀ commands, R Unit (assembleAll b s commands) (assembleAll b' s commands)
  | [] => by
    rw [assembleAll, assembleAll]
    exact h.idle fun _ h _ a => h.refl a
  | command :: rest => by
    rw [assembleAll, assembleAll]
    exact h.bind (h.holds_assemble s command) fun _ => h.holds_assembleAll s rest

end

end StepRelation

/-- An action that leads to related assemblies only. -/
structure Leads {α : Type} (C : BindContext → Prop) (T : Assembly → Assembly → Prop)
    (x : AssemblyM α) : Prop where
  after : ∀ c a, C c → T a (x.after c a)

/-- A relation between assemblies that is respected by the steps of all commands. -/
structure Respects (b : QueryBinder) (C : BindContext → Prop) (T : Assembly → Assembly → Prop) :
    Prop extends Tolerates T where
  recursionHint : ∀ {c} recursionHint, C c → C { c with recursionHint }
  statement : ∀ {c} a location hints s, C c →
    T a ((emitAll location (b.statement hints s)).after c a)
  root : ∀ {c} a location (r : RootAction), C c → T a ((emitOne location (r.act b)).after c a)

namespace Respects

variable {b : QueryBinder} {C : BindContext → Prop} {T : Assembly → Assembly → Prop}
  (h : Respects b C T)

include h

theorem steps : StepRelation b b fun _ x _ => Leads C T x where
  idle hx := ⟨fun c a _ => hx T h.toTolerates c a⟩
  bind hx hf := ⟨fun c a hc => h.trans (hx.after c a hc) ((hf _).after c _ hc)⟩
  statement location hints s :=
    ⟨fun _ a hc => h.statement a location hints s (h.recursionHint _ hc)⟩
  root location r := ⟨fun _ a hc => h.root a location r hc⟩

theorem leads_forM (hf : ∀ v, Leads C T (f v)) (xs : List α) : Leads C T (xs.forM f) :=
  h.steps.forM (g := f) hf xs

theorem leads_root (r : RootAction) (location : Sql.Location) :
    Leads C T (emitOne location (r.act b)) :=
  h.steps.root location r

theorem leads_assemble (s : Surroundings) (command : Sql.Command) :
    Leads C T (assemble b s command) :=
  h.steps.holds_assemble s command

theorem leads_assembleAll (s : Surroundings) (commands : List Sql.Command) :
    Leads C T (assembleAll b s commands) :=
  h.steps.holds_assembleAll s commands

end Respects

theorem Assembly.errors_of_finish {a : Assembly} (h : a.finish = .ok roots) :
    a.errors = [] ∧ a.roots = roots := by
  unfold finish at h
  split at h
  · cases h
  · split at h
    next hnone =>
      cases h
      exact ⟨(List.append_eq_nil_iff.1 hnone).1, rfl⟩
    next => cases h

theorem BuildInput.exists_of_build {i : BuildInput} {sql : String} (h : i.build sql = .ok roots) :
    ∃ commands state, Sql.parseBatch sql = .ok commands ∧ i.start = .ok state ∧
      ((assembleAll (.ofDepth (sql.length + 1)) {} commands).after
        { catalog := i.catalog, options := i.options } { state }).finish = .ok roots := by
  unfold build at h
  obtain ⟨⟨commands, state⟩, hstart, h⟩ := Result.exists_of_bind h
  obtain ⟨_, -, hstart⟩ := Result.exists_of_bind (Result.of_mapError hstart)
  obtain ⟨_, hcommands, hstart⟩ := Result.exists_of_bind hstart
  obtain ⟨_, hstate, hstart⟩ := Result.exists_of_bind hstart
  cases hstart
  exact ⟨commands, state, hcommands, hstate, h⟩

def BuildInput.overflows (i : BuildInput) (sql : String) : Bool :=
  match i.build sql with
  | .error .overflow => true
  | _ => false

theorem BuildInput.build_of_overflows {i : BuildInput} {sql : String} (h : i.overflows sql) :
    i.build sql = .error .overflow := by
  unfold overflows at h
  split at h
  · assumption
  · cases h

theorem BuildInput.exists_plan_of_any (i : BuildInput) (sql : String) (p : QueryPlan → Bool)
    (h : (i.build sql).toOption.any fun roots => roots.any fun root => root.node.plan?.any p) :
    ∃ roots root plan, i.build sql = .ok roots ∧ root ∈ roots ∧
    root.node.plan? = some plan ∧ p plan := by
  obtain ⟨roots, hroots, h⟩ := exists_ok_of_any h
  obtain ⟨root, hroot, h⟩ := List.any_eq_true.1 h
  obtain ⟨plan, hplan, h⟩ := (Option.any_eq_true _ _).1 h
  exact ⟨roots, root, plan, hroots, hroot, hplan, h⟩

end BatchPlan
