import BatchPlan.Proofs.Assembly
import BatchPlan.Proofs.Binding.Tame
import BatchPlan.Proofs.Flow.Simulation

namespace BatchPlan

open BatchPlan.Flow

open AssemblyM

variable {a a' : Assembly} {loop : Option Loop} {b : QueryBinder} {location : Sql.Location}
    {c : BindContext}
  {act : BindM (List RootNode)} {x : AssemblyM Unit} {α β : Type}
    {script : α → List Script} {m : BindM α}

/-- An action that leaves no faults found none. -/
abbrev KeepsFaults {α : Type} (x : AssemblyM α) : Prop :=
  Leads (fun _ => True) (fun a a' => a'.errors = [] → a.errors = []) x

theorem KeepsFaults.before {x : AssemblyM α} (hx : KeepsFaults x) (h : (x.after c a).errors = []) :
    a.errors = [] :=
  hx.after c a trivial h

theorem errors_before_emitAll (h : ((emitAll location act).after c a).errors = []) :
    a.errors = [] := by
  rw [after_emitAll] at h
  split at h
  · exact h
  · exact (List.append_eq_nil_iff.1 h).1

theorem respects_faults (b : QueryBinder) :
    Respects b (fun _ => True) fun a a' => a'.errors = [] → a.errors = [] where
  refl _ h := h
  trans h h' hnone := h (h' hnone)
  recursionHint _ h := h
  note _ _ _ _ _ h := h
  fail _ _ h := (List.append_eq_nil_iff.1 h).1
  emit _ _ _ _ h := h
  statement _ _ _ _ _ h := errors_before_emitAll h
  root a _ _ _ h := errors_before_emitAll (a := a) h

/-- On the way from one assembly to the other the roots of a script were added. -/
structure Lays (loop : Option Loop) (script : List Script) (a a' : Assembly) : Prop where
  jumps : a'.jumps = a.jumps
  roots : ∃ code, a'.roots = a.roots ++ code ∧ Layout a.labelCount loop script code a'.labelCount

theorem Lays.append {first rest : List Script} {a'' : Assembly} (h : Lays loop first a a')
    (h' : Lays loop rest a' a'') : Lays loop (first ++ rest) a a'' := by
  obtain ⟨hjumps, code, hroots, hlayout⟩ := h
  obtain ⟨hjumps', code', hroots', hlayout'⟩ := h'
  refine ⟨hjumps'.trans hjumps, code ++ code', ?_, hlayout.append hlayout'⟩
  rw [hroots', hroots, List.append_assoc]

theorem Lays.block {body : List Script} (h : Lays loop body a a') :
    Lays loop [.block body] a a' := by
  obtain ⟨hjumps, code, hroots, hlayout⟩ := h
  refine ⟨hjumps, code, hroots, ?_⟩
  simpa using hlayout.block (.nil _ loop)

theorem Lays.performs {roots : List Root} (hplain : ∀ r ∈ roots, r.node.isPlain)
    (hroots : a'.roots = a.roots ++ roots) (hjumps : a'.jumps = a.jumps)
    (hcount : a'.labelCount = a.labelCount) : Lays loop (roots.map .perform) a a' := by
  refine ⟨hjumps, roots, hroots, ?_⟩
  rw [hcount]
  clear hroots
  induction roots with
  | nil => exact .nil _ loop
  | cons r rest ih =>
    exact .perform r (hplain r (by simp)) (ih fun r hr => hplain r (by simp [hr]))

section

open BindM

variable {c : BindContext} {st : BindState}

theorem plain_dropTables (ifExists : Bool) (names : List Sql.ObjectName) :
    Yields (dropTables ifExists names) c st fun nodes _ => ∀ node ∈ nodes, node.isPlain := by
  induction names generalizing st with
  | nil => exact .pure (by simp)
  | cons object rest ih =>
    refine .check fun _ => .bind .any fun s _ _ => ?_
    dsimp only
    split
    · exact .bind .any fun _ _ _ => ih.bind fun nodes _ h =>
        .pure (by simpa [RootNode.isPlain] using h)
    · exact .ite (fun _ => ih) fun _ => .throw

/-- What a statement becomes is carried out and neither jumps nor ends the program. -/
theorem plain_statement (b : QueryBinder) (hints : Hints) (statement : Sql.Statement) :
    Yields (b.statement hints statement) c st fun nodes _ => ∀ node ∈ nodes, node.isPlain := by
  have hone {x : BindM RootNode} (h : ∀ c st, Yields x c st fun node _ => node.isPlain) :
      Yields (x >>= fun node => pure [node]) c st fun nodes _ => ∀ node ∈ nodes, node.isPlain :=
    (h c st).bind fun _ _ h => .pure (by simpa using h)
  cases statement with
  | query q =>
    exact .bind .any fun _ _ _ => .bind .any fun _ _ _ => .pure (by simp [RootNode.isPlain])
  | insert i =>
    refine hone fun c st => .bind .any fun _ _ _ => .bind .any fun _ _ _ => ?_
    split
    · exact .throw
    · exact .bind .any fun _ _ _ => .check fun _ => .bind .any fun _ _ _ => .bind .any fun _ _ _ =>
        .pure rfl
  | update u =>
    exact hone fun c st => .check fun _ => .check fun _ => .bind .any fun _ _ _ =>
      .bind .any fun _ _ _ => .bind .any fun _ _ _ => .bind .any fun _ _ _ =>
      .bind .any fun _ _ _ => .bind .any fun _ _ _ => .bind .any fun _ _ _ => .pure rfl
  | delete d =>
    refine hone fun c st => .check fun _ => ?_
    split
    · exact .bind .any fun _ _ _ => .bind .any fun _ _ _ => .pure rfl
    · exact .throw
  | createTable create =>
    exact hone fun c st => .check fun _ => .check fun _ => .bind .any fun _ _ _ =>
      .check fun _ => .bind .any fun _ _ _ => .bind .any fun _ _ _ => .pure rfl
  | drop d => exact .ite (fun _ => plain_dropTables _ _) fun _ => .throw
  | other headline => exact .throw

theorem plain_declare (b : QueryBinder) (d : Sql.Declaration) :
    Yields (b.declare d) c st fun node _ => node.isPlain :=
  .bind .any fun _ _ _ => .bind .any fun _ _ _ => .bind .any fun _ _ _ => .pure rfl

theorem plain_assign (b : QueryBinder) (name : String) (e : Sql.Expr) :
    Yields (b.assign name e) c st fun node _ => node.isPlain :=
  .bind .any fun _ _ _ => .bind .any fun _ _ _ => .pure rfl

theorem plain_print (b : QueryBinder) (e : Sql.Expr) :
    Yields (b.value e >>= fun plan => pure (RootNode.print plan)) c st fun node _ => node.isPlain :=
  .bind .any fun _ _ _ => .pure rfl

end

/-- Unless it leaves faults, an action adds the roots of the script that a binder returns. -/
structure Lowers {α : Type} (x : AssemblyM Unit) (m : BindM α) (script : α → List Script)
    (loop : Option Loop) : Prop where
  lays : ∀ c a, (x.after c a).errors = [] →
    ∃ v, m.start c a.state = (.ok v, (x.after c a).state) ∧ Lays loop (script v) a (x.after c a)

section

variable {c : BindContext} {a : Assembly} {location : Sql.Location}

theorem after_emitAll_of_accepted (hact : Answers act)
    (h : ((emitAll location act).after c a).errors = []) :
    ∃ nodes state, act.start c a.state = (.ok nodes, state) ∧
      (emitAll location act).after c a =
        { a with state, roots := a.roots ++ nodes.map (⟨·, location⟩) } := by
  rw [after_emitAll] at h ⊢
  cases hr : act.start c a.state with
  | mk r state =>
    rw [hr] at h
    cases r with
    | ok nodes => exact ⟨nodes, state, rfl, rfl⟩
    | error e =>
      have hreason := (hact.of_start c a.state _ state hr).2 e rfl
      exact absurd (List.append_eq_nil_iff.1 h).2 hreason

theorem after_emitOne_of_accepted {act : BindM RootNode} (hact : Answers act)
    (h : ((emitOne location act).after c a).errors = []) :
    ∃ node state, act.start c a.state = (.ok node, state) ∧
      (emitOne location act).after c a =
        { a with state, roots := a.roots ++ [⟨node, location⟩] } := by
  obtain ⟨nodes, state, hstart, hafter⟩ :=
    after_emitAll_of_accepted (hact.bind fun node => .pure [node]) h
  obtain ⟨node, s', hnode, hstart⟩ := BindM.exists_of_start_bind hstart
  cases hstart
  exact ⟨node, s', hnode, hafter⟩

end

theorem QueryBinder.answers_root (hb : b.IsTame) (r : RootAction) : Answers (r.act b) := by
  cases r with
  | declare d => exact answers_declare hb d
  | assign name e => exact answers_assign hb name e
  | print e => exact (tame_value hb e).answers.bind fun _ => .pure _
  | jumpUnless e label => exact (tame_condition hb e).answers.bind fun _ => .pure _
  | throw args => exact (tame_bindThrow args).answers.bind fun _ => .pure _

theorem lowers_statement (hb : b.IsTame) (location : Sql.Location) (hints : Hints)
    (statement : Sql.Statement) (loop : Option Loop) :
    Lowers (emitAll location (b.statement hints statement)) (b.statement hints statement)
      (fun nodes => [.block (nodes.map fun node => .perform ⟨node, location⟩)]) loop := by
  refine ⟨fun c a h => ?_⟩
  obtain ⟨nodes, state, hstart, hafter⟩ :=
    after_emitAll_of_accepted (QueryBinder.answers_statement hb hints statement) h
  have hplain := plain_statement b hints statement nodes state hstart
  rw [hafter]
  refine ⟨nodes, hstart, .block ?_⟩
  have hlays : Lays loop ((nodes.map fun node => Root.mk node location).map .perform) a
      { a with state, roots := a.roots ++ nodes.map (⟨·, location⟩) } :=
    .performs (by simpa using hplain) rfl rfl rfl
  simpa [Function.comp_def] using hlays

theorem lowers_root {act : BindM RootNode} (hact : Answers act)
    (hplain : ∀ c st, BindM.Yields act c st fun node _ => node.isPlain) (location : Sql.Location)
    (loop : Option Loop) :
    Lowers (emitOne location act) act (fun node => [.perform ⟨node, location⟩]) loop := by
  refine ⟨fun c a h => ?_⟩
  obtain ⟨node, state, hstart, hafter⟩ := after_emitOne_of_accepted hact h
  have hroot : ∀ r ∈ [Root.mk node location], r.node.isPlain := by
    simpa using hplain c a.state node state hstart
  rw [hafter]
  exact ⟨node, hstart, .performs hroot rfl rfl rfl⟩

theorem Lowers.append {γ : Type} {y : AssemblyM Unit} {m' : BindM β} {script' : β → List Script}
    (hx : Lowers x m script loop) (hy : Lowers y m' script' loop) (hk : KeepsFaults y)
    {g : α → β → γ} {all : γ → List Script} (hg : ∀ v w, all (g v w) = script v ++ script' w) :
    Lowers (x >>= fun _ => y) (m >>= fun v => m' >>= fun w => pure (g v w)) all loop := by
  refine ⟨fun c a h => ?_⟩
  rw [after_bind] at h ⊢
  obtain ⟨v, hv, hlays⟩ := hx.lays c a (hk.before h)
  obtain ⟨w, hw, hlays'⟩ := hy.lays c (x.after c a) h
  refine ⟨g v w, ?_, ?_⟩
  · rw [BindM.start_bind_ok hv, BindM.start_bind_ok hw, BindM.start_pure]
  · rw [hg]
    exact hlays.append hlays'

theorem Lowers.map (hx : Lowers x m script loop) {g : α → β} {all : β → List Script}
    (hg : ∀ v a a', Lays loop (script v) a a' → Lays loop (all (g v)) a a') :
    Lowers x (m >>= fun v => pure (g v)) all loop := by
  refine ⟨fun c a h => ?_⟩
  obtain ⟨v, hv, hlays⟩ := hx.lays c a h
  exact ⟨g v, by rw [BindM.start_bind_ok hv, BindM.start_pure], hg v _ _ hlays⟩

theorem lowers_nothing {v : α} (hv : script v = []) (loop : Option Loop) :
    Lowers (pure ()) (pure v) script loop := by
  refine ⟨fun c a _ => ⟨v, rfl, rfl, [], (List.append_nil _).symm, ?_⟩⟩
  rw [hv]
  exact .nil _ loop

theorem lowers_declarations (hb : b.IsTame) (location : Sql.Location) (items : List Sql.Declaration)
    (loop : Option Loop) :
    Lowers (items.forM fun d => emitOne location (b.declare d)) (items.mapM b.declare)
      (fun nodes => nodes.map fun node => .perform ⟨node, location⟩) loop := by
  induction items with
  | nil => exact lowers_nothing rfl loop
  | cons d rest ih =>
    rw [List.mapM_cons]
    have hd := lowers_root (QueryBinder.answers_declare hb d)
      (fun _ _ => plain_declare b d) location loop
    exact hd.append ih ((respects_faults b).leads_forM
      (fun d => (respects_faults b).leads_root (.declare d) location)
        rest)
      fun _ _ => by simp

/-- A part that is passed over unless a condition holds. -/
theorem exists_of_guarded (hb : b.IsTame) {condition : Sql.Expr} {label : String} {m : BindM Script}
    (hx : Lowers x m (fun script => [script]) loop) (hk : KeepsFaults x)
    (h : (x.after c ((emitOne location (b.jumpUnless condition label)).after c a)).errors = []) :
    ∃ a', x.after c ((emitOne location (b.jumpUnless condition label)).after c a) = a' ∧
      ∃ plan script s, (b.condition condition).start c a.state = (.ok plan, s) ∧
        m.start c s = (.ok script, a'.state) ∧ a'.jumps = a.jumps ∧ ∃ code,
          a'.roots = a.roots ++ ⟨.jumpWhen plan label false, location⟩ :: code ∧
          Layout a.labelCount loop [script] code a'.labelCount := by
  have hact : Answers (b.jumpUnless condition label) :=
    (QueryBinder.tame_condition hb condition).answers.bind fun _ => .pure _
  obtain ⟨node, state, hstart, hafter⟩ := after_emitOne_of_accepted hact (hk.before h)
  obtain ⟨plan, s', hplan, hstart⟩ := BindM.exists_of_start_bind hstart
  cases hstart
  rw [hafter] at h ⊢
  obtain ⟨script, hscript, hjumps, code, hroots, hlayout⟩ := hx.lays c _ h
  exact ⟨_, rfl, plan, script, s', hplan, hscript, hjumps, code, by simp [hroots], hlayout⟩

theorem lowers_leaveLoop {s : Surroundings} {word : String} {target : Loop → String}
    {script : Script}
    (h : ∀ n own, Layout n (some own) [script] [⟨.jump (target own), location⟩] n) :
    Lowers (leaveLoop s location word target) (pure script) (fun script => [script]) s.loop := by
  refine ⟨fun c a ha => ?_⟩
  unfold leaveLoop at ha ⊢
  cases hs : s.loop with
  | none =>
    rw [hs] at ha
    exact absurd (List.append_eq_nil_iff.1 ha).2 (by simp [outsideLoop])
  | some own => exact ⟨script, rfl, rfl, _, rfl, h _ own⟩

section

variable {b : QueryBinder} (hb : b.IsTame) (location : Sql.Location) (loop : Option Loop)

include hb

theorem lowers_sql (hints : Hints) (statement : Sql.Statement) :
    Lowers (withReader (fun c => { c with recursionHint := hints.maxRecursion })
        (emitAll location (b.statement hints statement)))
      (Script.ofNode b location hints (.sql statement)) (fun script => [script]) loop := by
  rw [Script.ofNode]
  refine ⟨fun c a h => ?_⟩
  obtain ⟨nodes, hnodes, hlays⟩ :=
    (lowers_statement hb location hints statement loop).lays
      { c with recursionHint := hints.maxRecursion } a h
  refine ⟨.block (nodes.map fun node => .perform ⟨node, location⟩), ?_, hlays⟩
  rw [BindM.start_bind, BindM.start_withReader, hnodes]
  rfl

theorem lowers_print (hints : Hints) (value : Sql.Expr) :
    Lowers (emitOne location do return .print (← b.value value))
      (Script.ofNode b location hints (.print value)) (fun script => [script]) loop := by
  have hvalue : Answers (b.value value >>= fun plan => pure (RootNode.print plan)) :=
    (QueryBinder.tame_value hb value).answers.bind fun _ => .pure _
  have hroot := lowers_root hvalue (fun _ _ => plain_print b value) location loop
  refine ⟨fun c a h => ?_⟩
  obtain ⟨node, hnode, hlays⟩ := hroot.lays c a h
  refine ⟨.perform ⟨node, location⟩, ?_, hlays⟩
  have hstart := BindM.start_bind_ok hnode fun node => pure (Script.perform ⟨node, location⟩)
  simpa only [Script.ofNode, bind_assoc, pure_bind, BindM.start_pure] using hstart

end

mutual

theorem lowers_assemble {b : QueryBinder} (hb : b.IsTame) (s : Surroundings) :
    ∀ command : Sql.Command, command.isStructured →
      Lowers (assemble b s command) (Script.ofCommand b command) (fun script => [script]) s.loop
  | .mk node location hints, h => by
    rw [Sql.Command.isStructured] at h
    rw [assemble, Script.ofCommand]
    exact lowers_assembleNode hb s location hints node h

theorem lowers_assembleNode {b : QueryBinder} (hb : b.IsTame) (s : Surroundings)
    (location : Sql.Location) (hints : Hints) : ∀ node : Sql.CommandNode, node.isStructured →
      Lowers (assembleNode b s location hints node) (Script.ofNode b location hints node)
        (fun script => [script]) s.loop
  | .sql statement, _ => by
    rw [assembleNode]
    exact lowers_sql hb location s.loop hints statement
  | .declare items, _ => by
    rw [assembleNode, Script.ofNode]
    exact (lowers_declarations hb location items s.loop).map fun _ _ _ h => h.block
  | .set name value, _ => by
    rw [assembleNode, Script.ofNode]
    exact (lowers_root (QueryBinder.answers_assign hb name value)
      (fun _ _ => plain_assign b name value) location s.loop).map fun _ _ _ h => h
  | .print value, _ => by
    rw [assembleNode]
    exact lowers_print hb location s.loop hints value
  | .exit, _ => by
    rw [assembleNode, Script.ofNode]
    exact ⟨fun c a _ => ⟨.exit, rfl, rfl, _, rfl, .exit location (.nil _ _)⟩⟩
  | .block body, h => by
    rw [Sql.CommandNode.isStructured] at h
    rw [assembleNode, Script.ofNode]
    exact (lowers_assembleAll hb s body h).map fun _ _ _ h => h.block
  | .ifElse condition yes none, h => by
    rw [Sql.CommandNode.isStructured, Bool.and_true] at h
    rw [assembleNode, Script.ofNode]
    refine ⟨fun c a hnone => ?_⟩
    rw [after_freshLabel_bind, after_bind, after_bind, after_emit] at hnone ⊢
    obtain ⟨a', ha', plan, script, s₁, hplan, hscript, hjumps, code, hroots, hlayout⟩ :=
      exists_of_guarded hb
      (lowers_assemble hb s yes h) ((respects_faults b).leads_assemble s yes) hnone
    rw [ha']
    refine ⟨.ifThen plan script, ?_, hjumps, _, ?_, .ifThen plan location hlayout (.nil _ s.loop)⟩
    · rw [BindM.start_bind_ok hplan, BindM.start_bind_ok hscript, BindM.start_pure]
    · simp [hroots, elseLabel]
  | .ifElse condition yes (some no), h => by
    rw [Sql.CommandNode.isStructured, Bool.and_eq_true] at h
    rw [assembleNode, Script.ofNode]
    refine ⟨fun c a hnone => ?_⟩
    rw [after_freshLabel_bind, after_bind, after_bind, after_bind, after_bind,
      after_bind, after_emit, after_emit, after_emit] at hnone ⊢
    have hnone' := KeepsFaults.before ((respects_faults b).leads_assemble s no) hnone
    obtain ⟨a', ha', plan, script, s₁, hplan, hscript, hjumps, code, hroots, hlayout⟩ :=
      exists_of_guarded hb
      (lowers_assemble hb s yes h.1) ((respects_faults b).leads_assemble s yes) hnone'
    rw [ha'] at hnone ⊢
    obtain ⟨other, hother, hjumps', code', hroots', hlayout'⟩ :=
      (lowers_assemble hb s no h.2).lays c _ hnone
    refine ⟨.ifElse plan script other, ?_, hjumps'.trans hjumps, _, ?_,
      .ifElse plan location hlayout hlayout' (.nil _ s.loop)⟩
    · rw [BindM.start_bind_ok hplan, BindM.start_bind_ok hscript, BindM.start_bind_ok hother,
        BindM.start_pure]
    · rw [hroots']
      simp [hroots, elseLabel, endLabel]
  | .whileLoop condition body, h => by
    rw [Sql.CommandNode.isStructured] at h
    rw [assembleNode, Script.ofNode]
    refine ⟨fun c a hnone => ?_⟩
    rw [after_freshLabel_bind, after_bind, after_bind, after_bind, after_bind,
      after_emit, after_emit, after_emit] at hnone ⊢
    obtain ⟨a', ha', plan, script, s₁, hplan, hscript, hjumps, code, hroots, hlayout⟩ :=
      exists_of_guarded hb
      (lowers_assemble hb _ body h) ((respects_faults b).leads_assemble _ body) hnone
    rw [ha']
    refine ⟨.whileLoop plan script, ?_, hjumps, _, ?_,
      .whileLoop plan location hlayout (.nil _ s.loop)⟩
    · rw [BindM.start_bind_ok hplan, BindM.start_bind_ok hscript, BindM.start_pure]
    · simp [hroots, loopLabels]
  | .breakLoop, _ => by
    rw [assembleNode, Script.ofNode]
    exact lowers_leaveLoop fun n own => .breakLoop own location (.nil n _)
  | .continueLoop, _ => by
    rw [assembleNode, Script.ofNode]
    exact lowers_leaveLoop fun n own => .continueLoop own location (.nil n _)
  | .tryCatch .., h | .label _, h | .goto _, h | .throw _, h => by
    simp [Sql.CommandNode.isStructured] at h

theorem lowers_assembleAll {b : QueryBinder} (hb : b.IsTame) (s : Surroundings) :
    ∀ commands : List Sql.Command, Sql.areStructured commands →
      Lowers (assembleAll b s commands) (Script.ofCommands b commands) id s.loop
  | [], _ => by
    rw [assembleAll, Script.ofCommands]
    exact lowers_nothing rfl s.loop
  | command :: rest, h => by
    rw [Sql.areStructured, Bool.and_eq_true] at h
    rw [assembleAll, Script.ofCommands]
    exact (lowers_assemble hb s command h.1).append (lowers_assembleAll hb s rest h.2)
      ((respects_faults b).leads_assembleAll s rest) fun _ _ => rfl

end

end BatchPlan
