import BatchPlan.Proofs.Assembly
import BatchPlan.Proofs.Binding.Advance
import BatchPlan.Proofs.Binding.Drafts

namespace BatchPlan

/-- A binder whose plans of values are as `P` says and whose roots are as `N` says, at the times of
an account that does not depend on variables and the session. -/
structure Finishes {W : Type} [Preorder W] (b : QueryBinder)
    (Fits : W → BindContext → BindState → Prop)
    (P : W → QueryPlan → Prop) (N : W → RootNode → Prop) : Prop where
  same : ∀ {w c s s'}, s'.names = s.names → s'.captured = s.captured → Fits w c s → Fits w c s'
  later : ∀ {w w' q}, w ≤ w' → P w q → P w' q
  bare : ∀ {w node}, node.plan? = none → N w node
  plan : ∀ {w node q}, P w q → node.plan? = some q → N w node
  draft : ∀ {w statement draft} hints, b.draft? statement = some draft →
    Advances Fits w (draft >>= fun d => d.finish hints) fun node w' => N w' node
  value : ∀ {w} e, Advances Fits w (b.value e) fun q w' => P w' q
  condition : ∀ {w} e, Advances Fits w (b.condition e) fun q w' => P w' q
  throw : ∀ {w} args, Advances Fits w (bindThrow args) fun q w' => P w' q

namespace Finishes

variable {W : Type} [Preorder W] {b : QueryBinder}
    {Fits : W → BindContext → BindState → Prop} {w : W}
  {P : W → QueryPlan → Prop} {N : W → RootNode → Prop} (h : Finishes b Fits P N)

include h

theorem modify {f : BindState → BindState} (hnames : ∀ s, (f s).names = s.names)
    (hcaptured : ∀ s, (f s).captured = s.captured) :
    Advances Fits w (modify f : BindM PUnit) fun _ _ => True :=
  .effect fun _ s hs => ⟨w, le_refl w, h.same (hnames s) (hcaptured s) hs, trivial⟩

theorem declareVariable (name : String) (type : DataType) :
    Advances Fits w (BindM.declareVariable name type) fun _ _ => True :=
  Advances.get.bind fun _ _ _ _ => .check fun _ => h.modify (by simp) (by simp)

theorem dropTables (ifExists : Bool) (names : List Sql.ObjectName) :
    Advances Fits w (BatchPlan.dropTables ifExists names) fun nodes w' =>
      ∀ node ∈ nodes, N w' node := by
  induction names generalizing w with
  | nil => exact .pure (by simp)
  | cons object rest ih =>
    refine .check fun _ => Advances.get.bind fun s w₁ _ _ => ?_
    dsimp only
    split
    · exact (h.modify (by simp) (by simp)).bind fun _ _ _ _ => ih.bind fun nodes _ _ hnodes =>
        .pure (List.forall_mem_cons.2 ⟨h.bare rfl, hnodes⟩)
    · exact .ite (fun _ => ih) fun _ => .throw _

theorem statement (hints : Hints) (statement : Sql.Statement) :
    Advances Fits w (b.statement hints statement) fun nodes w' => ∀ node ∈ nodes, N w' node := by
  have hdraft (draft : BindM Draft) (hd : b.draft? statement = some draft) :
      Advances Fits w (b.statement hints statement) fun nodes w' => ∀ node ∈ nodes, N w' node := by
    have heq : b.statement hints statement = do return [← draft >>= fun d => d.finish hints] := by
      rw [QueryBinder.statement_eq b hd hints, bind_assoc]
    rw [heq]
    exact (h.draft hints hd).bind fun _ _ _ hnode => .pure (List.forall_mem_singleton.2 hnode)
  cases statement with
  | query | insert | update | delete => exact hdraft _ rfl
  | createTable create =>
    have hcreate : Advances Fits w (createTable create) fun node w' => N w' node :=
      .check fun _ => .check fun _ => Advances.get.bind fun _ _ _ _ =>
        .check fun _ => .test fun _ _ =>
        (h.modify (by simp) (by simp)).bind fun _ _ _ _ => .pure (h.bare rfl)
    exact hcreate.bind fun _ _ _ hnode => .pure (List.forall_mem_singleton.2 hnode)
  | drop d => exact .ite (fun _ => h.dropTables _ _) fun _ => .throw _
  | other headline => exact .throw _

theorem root (r : RootAction) : Advances Fits w (r.act b) fun node w' => N w' node := by
  have hassigned {w : W} (target : DataType) (e : Sql.Expr) :
      Advances Fits w (b.assignedValue target e) fun q w' => P w' q :=
    (h.value e).bind fun _ _ _ hq => .test fun _ _ => .test fun _ _ => .pure hq
  cases r with
  | declare d =>
    refine .test fun type _ => (Advances.optionMapM (Q := fun (initial : Option QueryPlan) w' =>
      ∀ q ∈ initial, P w' q) (by simp) fun e _ => (hassigned type e).mono
      fun _ _ _ hq => by simpa using hq).bind fun initial w₁ _ hinitial =>
      (h.declareVariable d.name type).bind fun _ w₂ h₂ _ => .pure ?_
    cases initial with
    | none => exact h.bare rfl
    | some q => exact h.plan (h.later h₂ (hinitial q rfl)) rfl
  | assign name e =>
    exact (Advances.lookupVariable name).bind fun _ _ _ _ => (hassigned _ e).bind fun _ _ _ hq =>
      .pure (h.plan hq rfl)
  | print e => exact (h.value e).bind fun _ _ _ hq => .pure (h.plan hq rfl)
  | jumpUnless e label => exact (h.condition e).bind fun _ _ _ hq => .pure (h.plan hq rfl)
  | throw args => exact (h.throw args).bind fun _ _ _ hq => .pure (h.plan hq rfl)

end Finishes

/-- An account of a program: before each command there is a time that the state fits, where `I`
holds of it. At all later times `I` holds again, and what was said of the roots gives `Q`. -/
structure Concludes {W : Type} [Preorder W] (b : QueryBinder)
    (Fits : W → BindContext → BindState → Prop)
    (P : W → QueryPlan → Prop) (N : W → RootNode → Prop) (I : BindState → Prop)
    (Q : RootNode → Prop) : Prop extends Finishes b Fits P N where
  idle : ∀ {s}, s.captured = [] → I s
  begins : ∀ {c s}, c.recursive = [] → I s → ∃ w, Fits w c s ∧ ∀ w', w ≤ w' →
    (∀ s', Fits w' c s' → I s') ∧ ∀ node, N w' node → Q node

structure Assembly.Says (I : BindState → Prop) (Q : RootNode → Prop) (a : Assembly) : Prop where
  state : I a.state
  roots : ∀ root ∈ a.roots, Q root.node

namespace Concludes

variable {W : Type} [Preorder W] {b : QueryBinder} {Fits : W → BindContext → BindState → Prop}
  {P : W → QueryPlan → Prop} {N : W → RootNode → Prop} {I : BindState → Prop} {Q : RootNode → Prop}
  (h : Concludes b Fits P N I Q) {i : BuildInput}

include h

open AssemblyM in
theorem emitAll {c : BindContext} (hc : c.recursive = []) {a : Assembly} (ha : a.Says I Q)
    (location : Sql.Location) {act : BindM (List RootNode)}
    (hact : ∀ w, Advances Fits w act fun nodes w' => ∀ node ∈ nodes, N w' node) :
    ((emitAll location act).after c a).Says I Q := by
  obtain ⟨r, state, hr⟩ : ∃ r state, act.start c a.state = (r, state) := ⟨_, _, rfl⟩
  obtain ⟨w, hfits, hlater⟩ := h.begins hc ha.state
  obtain ⟨w', hw, hfits', hok⟩ := (hact w).of_start c a.state r state hfits hr
  obtain ⟨hidle, hsays⟩ := hlater w' hw
  rw [after_emitAll, hr]
  cases r with
  | error e => exact ⟨hidle state hfits', ha.roots⟩
  | ok nodes =>
    refine ⟨hidle state hfits', List.forall_mem_append.2
      ⟨ha.roots, List.forall_mem_map.2 fun node hnode => ?_⟩⟩
    exact hsays node (hok nodes rfl node hnode)

theorem respects : Respects b (·.recursive = []) fun a a' => a.Says I Q → a'.Says I Q where
  refl _ ha := ha
  trans ha ha' hs := ha' (ha hs)
  recursionHint _ hc := hc
  note _ _ _ _ _ ha := ⟨ha.state, ha.roots⟩
  fail _ _ ha := ⟨ha.state, ha.roots⟩
  emit a _ node hnode ha := by
    obtain ⟨w, -, hlater⟩ := h.begins (c := { catalog := {}, options := {} }) rfl ha.state
    have hq := (hlater w (le_refl w)).2 node (h.bare (RootNode.plan?_of_isControl hnode))
    exact ⟨ha.state, List.forall_mem_append.2 ⟨ha.roots, List.forall_mem_singleton.2 hq⟩⟩
  statement _ location hints s hc ha := h.emitAll hc ha location fun _ =>
    h.toFinishes.statement hints s
  root _ location r hc ha := h.emitAll hc ha location fun _ =>
    (h.toFinishes.root r).bind fun _ _ _ hnode => .pure (List.forall_mem_singleton.2 hnode)

theorem idle_start {state : BindState} (hstart : i.start = .ok state) : I state := by
  have hdeclared (w : W) : Advances Fits w (i.params.forM fun p => BindM.declareVariable p.1 p.2)
      fun _ _ => True := by
    induction i.params generalizing w with
    | nil => exact .pure trivial
    | cons p _ ih => exact (h.declareVariable p.1 p.2).bind fun _ w' _ _ => ih w'
  unfold BuildInput.start at hstart
  dsimp only at hstart
  split at hstart <;> cases hstart
  next hr =>
    obtain ⟨w, hfits, hlater⟩ := h.begins (c := { catalog := i.catalog, options := i.options })
      (s := { session := i.session }) rfl (h.idle rfl)
    obtain ⟨w', hw, hs, -⟩ := (hdeclared w).of_start _ _ _ _ hfits hr
    exact (hlater w' hw).1 _ hs

omit h in
theorem says_of_build {sql : String} {roots : List Root}
    (h : Concludes (.ofDepth (sql.length + 1)) Fits P N I Q) (hbuild : i.build sql = .ok roots) :
    ∀ root ∈ roots, Q root.node := by
  obtain ⟨commands, state, -, hstart, hfinish⟩ := BuildInput.exists_of_build hbuild
  obtain ⟨-, rfl⟩ := Assembly.errors_of_finish hfinish
  have hempty : ({ state } : Assembly).Says I Q := ⟨h.idle_start hstart, by simp⟩
  exact ((h.respects.leads_assembleAll {} commands).after
    { catalog := i.catalog, options := i.options } { state } rfl hempty).roots

end Concludes

end BatchPlan
