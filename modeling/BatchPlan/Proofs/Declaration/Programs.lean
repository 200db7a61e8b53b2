import BatchPlan.Proofs.Declaration.Inventory
import BatchPlan.Proofs.Flow.Assembly
import BatchPlan.Proofs.Schedule.Statements
import BatchPlan.Proofs.WellFormed.Improved

namespace BatchPlan

variable {s s₀ : BindState} {columns : List (String × DataType)} {names : List Sql.Ident}
    {t : InsertTarget}
  {name : String}

namespace Plan

variable {V : Vocabulary} {p q : Plan}

theorem operatesOn_congr (hexpressions : p.expressions = q.expressions)
    (hscan : ∀ s, p = .scan s ↔ q = .scan s) : p.OperatesOn V ↔ q.OperatesOn V :=
  ⟨fun h => ⟨hexpressions ▸ h.expressions, fun s hs => h.scan s ((hscan s).2 hs)⟩,
    fun h => ⟨hexpressions ▸ h.expressions, fun s hs => h.scan s ((hscan s).1 hs)⟩⟩

/-- Spools are the only operators that improving adds, and the others keep what they evaluate. -/
theorem orderless_operatesOn (V : Vocabulary) : Orderless (OperatesOn · V) := by
  refine orderless_of_standIns (R := (OperatesOn · V)) fun p => ?_
  cases p with
  | scan s => rfl
  | concat inputs columns =>
    simp only [children, withChildren, List.length_map, if_true, Except.map]
    exact congrArg Except.ok (propext (operatesOn_congr rfl (by simp)))
  | _ => exact congrArg Except.ok (propext (operatesOn_congr rfl (by simp)))

theorem UsesOnly.improved {o : Options} {q : Plan} (h : p.UsesOnly V) (hq : p.Improved o q) :
    q.UsesOnly V :=
  hq.operators (orderless_operatesOn V) (fun _ _ => ⟨nofun, nofun⟩) h

end Plan

theorem QueryPlan.stable_finish {V : Vocabulary} {q : QueryPlan} (hq : q.root.UsesOnly V)
    (hints : Hints) : Stable s₀ (q.finish hints) (·.root.UsesOnly V) := by
  refine .read fun c => .bind (F := (·.UsesOnly V)) ?_ fun root hroot =>
    .bind (.lift (F := fun _ => True) (by simp) fun _ _ => trivial) fun _ _ => .pure hroot
  exact .counted (fun _ hroot => hq.improved (Plan.improved_of_ite hroot)) hq

theorem Catalog.lower_of_lookup {c : Catalog} {e : Entity} (h : c.lookup name = .ok e) :
    Text.lower e.name = Text.lower name := by
  unfold lookup at h
  split at h <;> cases h
  next hfind => simpa using List.find?_some hfind

namespace InsertTarget

theorem subset_of_choose {seen : List String} (h : t.choose seen names = .ok columns) :
    columns ⊆ t.columns := by
  induction names generalizing seen columns with
  | nil =>
    cases h
    exact List.nil_subset _
  | cons name rest ih =>
    unfold choose at h
    split at h
    · cases h
    next column type hfind =>
      obtain ⟨-, h⟩ := Result.of_check h
      obtain ⟨others, hothers, h⟩ := Result.exists_of_bind h
      cases h
      exact List.cons_subset.2 ⟨List.mem_of_find?_eq_some hfind, ih hothers⟩

theorem subset_of_listed (h : t.listed name names = .ok columns) : columns ⊆ t.columns := by
  unfold listed at h
  split at h
  · exact subset_of_choose h
  · split at h <;> cases h
    exact List.Subset.refl _

/-- A target with the name of a temporary table is that table, since no entity is called so. -/
theorem stable_find (name : String) : Stable s₀ (InsertTarget.find name) fun t =>
    Sql.isTemporaryName t.name → ∃ all, s₀.inventory.columns? t.name = some all ∧
      t.columns.map (·.1) = all.map (·.name) := by
  unfold find
  split
  · refine (BindM.stable_tempTable name).bind fun table htable =>
      .pure fun _ => ⟨table.columns, ?_, ?_⟩
    · exact congrArg (Option.map _) (Session.find?_name htable)
    · rw [List.map_map]
      rfl
  next hname =>
    refine .read fun c => .bind (.lift (by simp) fun _ h => h) fun entity hentity =>
      .pure fun htemporary => ?_
    exact absurd (Sql.isTemporaryName_of_lower (Catalog.lower_of_lookup hentity) htemporary) hname

end InsertTarget

theorem Draft.Ends.permits {root : QueryPlan → RootNode}
    (h : Draft.Ends (fun t => Sql.isTemporaryName t.name →
      ∃ all, s₀.inventory.columns? t.name = some all ∧
      t.columns.map (·.1) = all.map (·.name)) root) (plan : QueryPlan) :
    s₀.inventory.Permits (root plan) ∧ s₀.inventory.after (root plan) = s₀.inventory := by
  cases h with
  | insert ht hcolumns =>
    refine ⟨fun htemporary => ?_, rfl⟩
    obtain ⟨all, hall, hnames⟩ := ht htemporary
    exact ⟨all, hall, hnames ▸ List.map_subset _ (InsertTarget.subset_of_listed hcolumns)⟩
  | _ => exact ⟨trivial, rfl⟩

open BindM

/-- Roots tell how one state became another. -/
structure BindState.Moves (s : BindState) (nodes : List RootNode) (s' : BindState) : Prop where
  keyed : s'.Keyed
  runs : s.inventory.Runs nodes s'.inventory

theorem BindState.Moves.append {s' s'' : BindState} {nodes nodes' : List RootNode}
    (h : s.Moves nodes s') (h' : s'.Moves nodes' s'') : s.Moves (nodes ++ nodes') s'' :=
  ⟨h'.keyed, h.runs.append h'.runs⟩

theorem Stable.yields_moves (hs : s.Keyed) {x : BindM RootNode}
    (hx : Stable s x fun node => s.inventory.Admits node ∧ s.inventory.after node = s.inventory)
    (c : BindContext) : Yields x c s fun node s' => s.Moves [node] s' := by
  refine (hx.yields c).mono fun node s' ⟨hs', hadmits, hafter⟩ => ⟨hs'.keyed hs, ?_⟩
  have hruns := Inventory.Runs.single hadmits
  rw [hafter] at hruns
  rw [hs'.inventory]
  exact hruns

theorem moves_createTable (hs : s.Keyed) (create : Sql.CreateTable) (c : BindContext) :
    Yields (createTable create) c s fun node s' => s.Moves [node] s' := by
  refine .check fun _ => .check fun _ =>
    .bind (.get (Q := fun s₁ s' => s = s₁ ∧ s = s') ⟨rfl, rfl⟩) ?_
  rintro _ _ ⟨rfl, rfl⟩
  refine .check fun hnew => .bind (.lift (Q := fun _ s' => s = s') fun _ _ => rfl) ?_
  rintro columns _ rfl
  refine .bind
    (.effect (Q := fun _ s' =>
      s' = { s with session := s.session.create ⟨create.name.base, columns⟩ })
    rfl) ?_
  rintro _ _ rfl
  refine .pure ⟨hs, ?_⟩
  rw [BindState.inventory_create]
  refine .single ⟨?_, nofun⟩
  change (s.session.find? _).map _ = none
  rw [Option.not_isSome_iff_eq_none.1 hnew, Option.map_none]

theorem moves_dropTables (hs : s.Keyed) (ifExists : Bool) (names : List Sql.ObjectName)
    (c : BindContext) : Yields (dropTables ifExists names) c s
      fun nodes s' => s.Moves nodes s' := by
  induction names generalizing s with
  | nil => exact .pure ⟨hs, .nil _⟩
  | cons object rest ih =>
    refine .check fun _ => .bind (.get (Q := fun s₁ s' => s = s₁ ∧ s = s') ⟨rfl, rfl⟩) ?_
    rintro _ _ ⟨rfl, rfl⟩
    dsimp only
    split
    next table hfind =>
      refine .bind
        (.effect (Q := fun _ s' => s' = { s with session := s.session.drop table.name }) rfl) ?_
      rintro _ _ rfl
      refine (ih (s := { s with session := s.session.drop table.name }) hs).bind
        fun nodes s' hmoves => .pure ⟨hmoves.keyed, .cons ⟨?_, nofun⟩ ?_⟩
      · change ((s.session.find? table.name).map _).isSome
        rw [Session.find?_name hfind]
        rfl
      · rw [← BindState.inventory_drop]
        exact hmoves.runs
    · exact .ite (fun _ => ih hs) fun _ => .throw

theorem moves_declareVariable (hs : s.Keyed) (name : String) (type : DataType)
    (initial : Option QueryPlan)
    (hinitial : ∀ plan ∈ initial, plan.root.UsesOnly s.inventory.vocabulary) (c : BindContext) :
    Yields (declareVariable name type) c s fun _ s' => s.Moves [.declare name type initial] s' := by
  refine .bind (.get (Q := fun s₁ s' => s = s₁ ∧ s = s') ⟨rfl, rfl⟩) ?_
  rintro _ _ ⟨rfl, rfl⟩
  refine .check fun hnew => .effect ⟨List.forall_mem_cons.2 ⟨rfl, hs⟩, ?_⟩
  rw [BindState.inventory_declare]
  refine .single ⟨?_, hinitial⟩
  change (s.declared.lookup _).map _ = none
  rw [Option.not_isSome_iff_eq_none.1 hnew, Option.map_none]

namespace QueryBinder

variable {b : QueryBinder} (hb : ∀ (s : BindState) (hs : s.Keyed),
    (Logic.stable hs.provides).Binds b)
  {s : BindState} (hs : s.Keyed)

include hb hs

theorem moves_statement (hints : Hints) (statement : Sql.Statement) (c : BindContext) :
    Yields (b.statement hints statement) c s fun nodes s' => s.Moves nodes s' := by
  have hdraft (draft : BindM Draft) (h : b.draft? statement = some draft) :
      Yields (b.statement hints statement) c s fun nodes s' => s.Moves nodes s' := by
    have hfinish : Stable s (draft >>= fun d => d.finish hints) fun node =>
        s.inventory.Admits node ∧ s.inventory.after node = s.inventory := by
      refine Stable.mono (holds_finishedDraft (w := (0 : Nat))
        (Logic.roams_stable hs.provides) (hb s hs)
        (fun hints hq => QueryPlan.stable_finish hq hints) (fun _ name =>
          (InsertTarget.stable_find name).mono fun _ h => ⟨rfl, h⟩) hints h) ?_
      rintro _ ⟨root, plan, hroot, rfl, hplan⟩
      obtain ⟨hpermits, hafter⟩ := hroot.permits plan
      exact ⟨Inventory.admits_of_plan hplan (hroot.plan? plan) hpermits, hafter⟩
    have heq : b.statement hints statement = do return [← draft >>= fun d => d.finish hints] := by
      rw [statement_eq b h hints, bind_assoc]
    rw [heq]
    exact (hfinish.yields_moves hs c).bind fun _ _ h => .pure h
  cases statement with
  | query | insert | update | delete => exact hdraft _ rfl
  | createTable create => exact (moves_createTable hs create c).bind fun _ _ h => .pure h
  | drop d => exact .ite (fun _ => moves_dropTables hs _ _ c) fun _ => .throw
  | other headline => exact .throw

theorem moves_root (r : RootAction) (c : BindContext) :
    Yields (r.act b) c s fun node s' => s.Moves [node] s' := by
  have hfinish {q : QueryPlan} (hints : Hints) (hq : q.root.UsesOnly s.inventory.vocabulary) :
      Stable s (q.finish hints) (·.root.UsesOnly s.inventory.vocabulary) :=
        QueryPlan.stable_finish hq hints
  have hL := Logic.roams_stable hs.provides
  have hvalue (e : Sql.Expr) : Stable s (b.value e) (·.root.UsesOnly s.inventory.vocabulary) :=
    holds_value (w := (0 : Nat)) hL (hb s hs) hfinish e
  have hassigned (target : DataType) (e : Sql.Expr) :
      Stable s (b.assignedValue target e) (·.root.UsesOnly s.inventory.vocabulary) :=
    holds_assignedValue (w := (0 : Nat)) hL (hb s hs) hfinish target e
  have hread {x : BindM QueryPlan} (hx : Stable s x (·.root.UsesOnly s.inventory.vocabulary))
      (root : QueryPlan → RootNode) (hroot : ∀ plan, (root plan).plan? = some plan)
      (hpermits : ∀ plan, s.inventory.Permits (root plan))
      (hafter : ∀ plan, s.inventory.after (root plan) = s.inventory) :
      Yields (x >>= fun plan => pure (root plan)) c s fun node s' => s.Moves [node] s' :=
    Stable.yields_moves hs (hx.bind fun plan hplan =>
      .pure ⟨Inventory.admits_of_plan hplan (hroot plan) (hpermits plan), hafter plan⟩) c
  cases r with
  | declare d =>
    refine .bind (.lift (Q := fun _ s' => s = s') fun _ _ => rfl) ?_
    rintro type _ rfl
    have hinitial : Stable s (d.initial.mapM (b.assignedValue type)) fun initial =>
        ∀ plan ∈ initial, plan.root.UsesOnly s.inventory.vocabulary :=
      Logic.Holds.optionMapM (L := .stable hs.provides) (w := (0 : Nat)) (f := b.assignedValue type)
        (G := fun plan _ => plan.root.UsesOnly s.inventory.vocabulary) fun e _ => hassigned type e
    refine (hinitial.yields c).bind fun initial s₁ ⟨hs₁, hplan⟩ => ?_
    rw [← hs₁.inventory] at hplan
    refine (moves_declareVariable (hs₁.keyed hs) d.name type initial hplan c).bind
      fun _ s' hmoves => .pure ⟨hmoves.keyed, ?_⟩
    rw [← hs₁.inventory]
    exact hmoves.runs
  | assign name e =>
    have hknown : Stable s (lookupVariable name) fun _ => (s.inventory.type? name).isSome := by
      refine .get fun s₁ hs₁ => ?_
      rw [hs₁.declared]
      split
      next v hv =>
        refine .pure ?_
        change ((s.declared.lookup _).map _).isSome
        rw [hv]
        rfl
      · exact .throw (by simp)
    refine Stable.yields_moves hs (hknown.bind fun v hv =>
      (hassigned _ e).bind fun plan hplan => .pure ?_) c
    exact ⟨Inventory.admits_of_plan hplan rfl hv, rfl⟩
  | print e => exact hread (hvalue e) .print (fun _ => rfl) (fun _ => trivial) fun _ => rfl
  | jumpUnless e label =>
    have hcondition : Stable s (b.condition e) (·.root.UsesOnly s.inventory.vocabulary) :=
      holds_condition (w := (0 : Nat)) hL (hb s hs) hfinish e
    exact hread hcondition (.jumpWhen · label false) (fun _ => rfl) (fun _ => trivial) fun _ => rfl
  | throw args =>
    have hthrow : Stable s (bindThrow args) (·.root.UsesOnly s.inventory.vocabulary) :=
      Stable.mono (holds_bindThrow (L := .stable hs.provides) (w := (0 : Nat)) args) fun _ h => h
    exact hread hthrow .throw (fun _ => rfl) (fun _ => trivial) fun _ => rfl

end QueryBinder

/-- What exists before the first root of a program: the parameters, as if they were declared, and
the tables of the session. -/
def BuildInput.inventory (i : BuildInput) : Inventory :=
  Inventory.afterAll
    { type? := fun _ => none, columns? := fun name => (i.session.find? name).map (·.columns) }
    (i.params.map fun p => .declare p.1 p.2 none)

theorem moves_params (hs : s.Keyed) (params : List (String × DataType)) (c : BindContext) :
    Yields (params.forM fun (name, type) => declareVariable name type) c s fun _ s' =>
      s.Moves (params.map fun p => .declare p.1 p.2 none) s' := by
  induction params generalizing s with
  | nil => exact .pure ⟨hs, .nil _⟩
  | cons p rest ih =>
    exact (moves_declareVariable hs p.1 p.2 none nofun c).bind fun _ _ hfirst =>
      (ih hfirst.keyed).mono fun _ _ hrest => hfirst.append hrest

theorem BuildInput.inventory_of_start {i : BuildInput} {state : BindState}
    (h : i.start = .ok state) : state.Keyed ∧ state.inventory = i.inventory := by
  unfold start at h
  dsimp only at h
  split at h <;> cases h
  next hstart =>
    have hkeyed : BindState.Keyed { session := i.session } := nofun
    have hmoves := moves_params hkeyed i.params _ _ _ hstart
    exact ⟨hmoves.keyed, hmoves.runs.afterAll_eq.symm⟩

theorem Inventory.admits_of_isControl {node : RootNode} (h : node.isControl) (v : Inventory) :
    v.Admits node ∧ v.after node = v := by
  unfold RootNode.isControl at h
  split at h
  case h_9 => cases h
  all_goals exact ⟨⟨trivial, nofun⟩, rfl⟩

/-- The roots so far lead to the state. -/
structure Assembly.Follows (v : Inventory) (a : Assembly) : Prop where
  keyed : a.state.Keyed
  runs : v.Runs (a.roots.map (·.node)) a.state.inventory

open AssemblyM

theorem Assembly.Follows.emitAll {v : Inventory} {c : BindContext} {a : Assembly} (ha : a.Follows v)
    {location : Sql.Location} {act : BindM (List RootNode)} (hact : Answers act)
    (hmoves : Yields act c a.state fun nodes s' => a.state.Moves nodes s')
    (h : ((emitAll location act).after c a).errors = []) :
    ((emitAll location act).after c a).Follows v := by
  obtain ⟨nodes, state, hstart, hafter⟩ := after_emitAll_of_accepted hact h
  obtain ⟨hkeyed, hruns⟩ := hmoves nodes state hstart
  have hnodes : nodes.map (fun node => (Root.mk node location).node) = nodes := List.map_id _
  rw [hafter]
  refine ⟨hkeyed, ?_⟩
  rw [List.map_append, List.map_map, Function.comp_def, hnodes]
  exact ha.runs.append hruns

theorem respects_follows {b : QueryBinder} (htame : b.IsTame)
    (hb : ∀ (s : BindState) (hs : s.Keyed), (Logic.stable hs.provides).Binds b) (v : Inventory) :
    Respects b (fun _ => True) fun a a' => a'.errors = [] → a.errors = [] ∧
    (a.Follows v → a'.Follows v) where
  refl _ hnone := ⟨hnone, id⟩
  trans h h' hnone := ⟨(h (h' hnone).1).1, fun ha => (h' hnone).2 ((h (h' hnone).1).2 ha)⟩
  recursionHint _ h := h
  note _ _ _ _ _ hnone := ⟨hnone, fun ha => ⟨ha.keyed, ha.runs⟩⟩
  fail _ _ hnone := ⟨(List.append_eq_nil_iff.1 hnone).1, fun ha => ⟨ha.keyed, ha.runs⟩⟩
  emit a location node hnode hnone := by
    refine ⟨hnone, fun ha => ⟨ha.keyed, ?_⟩⟩
    obtain ⟨hadmits, hafter⟩ := Inventory.admits_of_isControl hnode a.state.inventory
    have hruns := Inventory.Runs.single hadmits
    rw [hafter] at hruns
    rw [List.map_append]
    exact ha.runs.append hruns
  statement a location hints s _ hnone :=
    ⟨errors_before_emitAll hnone, fun ha => ha.emitAll (QueryBinder.answers_statement htame hints s)
      (QueryBinder.moves_statement hb ha.keyed hints s _) hnone⟩
  root a location r _ hnone := by
    refine ⟨errors_before_emitAll hnone, fun ha => ha.emitAll ?_ ?_ hnone⟩
    · exact (QueryBinder.answers_root htame r).bind fun _ => .pure _
    · exact (QueryBinder.moves_root hb ha.keyed r _).bind fun _ _ h => .pure h

/-- At each root of a program, what it reads and writes was declared or created before. -/
theorem build_uses_declared {i : BuildInput} {sql : String} {before after : List Root} {root : Root}
    (h : i.build sql = .ok (before ++ root :: after)) :
    (i.inventory.afterAll (before.map (·.node))).Admits root.node := by
  obtain ⟨commands, state, -, hstart, hfinish⟩ := BuildInput.exists_of_build h
  obtain ⟨hnone, hroots⟩ := Assembly.errors_of_finish hfinish
  obtain ⟨hkeyed, hinventory⟩ := BuildInput.inventory_of_start hstart
  have hempty : Assembly.Follows i.inventory { state } := ⟨hkeyed, hinventory ▸ .nil _⟩
  have hfollows := (((respects_follows (QueryBinder.isTame_ofDepth (sql.length + 1))
    (fun _ hs => QueryBinder.binds_ofDepth (Logic.roams_stable hs.provides) _)
      i.inventory).leads_assembleAll {} commands).after
    { catalog := i.catalog, options := i.options } { state } trivial hnone).2 hempty
  have hruns := hfollows.runs
  rw [hroots, List.map_append, List.map_cons] at hruns
  exact hruns.admits

def sizesAbove : String :=
  "DECLARE @Least INT; CREATE TABLE #T (Size INT); SELECT size FROM #t WHERE size > @LEAST " ++
  "AND size <> @Other"

def withParameter : BuildInput := { catalog := {}, params := [("@other", .int32)] }

theorem sizesAbove_uses_declared :
    ∃ before root after plan, withParameter.build sizesAbove = .ok (before ++ root :: after) ∧
      root.node.plan? = some plan ∧ (plan.root.operators.flatMap (·.expressions)).flatMap
        Scalar.vars = [("@Least", .int32), ("@other", .int32)] ∧
      (withParameter.inventory.afterAll (before.map (·.node))).Admits root.node := by
  obtain ⟨roots, root, plan, hroots, hmem, hplan, hvars⟩ :=
    withParameter.exists_plan_of_any sizesAbove
    (fun plan => (plan.root.operators.flatMap (·.expressions)).flatMap Scalar.vars ==
      [("@Least", .int32), ("@other", .int32)]) (by decide +kernel)
  obtain ⟨before, after, rfl⟩ := List.append_of_mem hmem
  exact ⟨before, root, after, plan, hroots, hplan, eq_of_beq hvars, build_uses_declared hroots⟩

end BatchPlan
