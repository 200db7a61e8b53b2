import BatchPlan.Proofs.Binding.Blocks

namespace BatchPlan

variable {L : Logic} {a m w : L.World}

namespace QueryBinder

variable {b : QueryBinder} {levels : List Level}

theorem holds_unionChain {members : List Sql.UnionMember} (hbody : ∀ m ∈ members, ∀ w', w ≤ w' →
      L.Holds w' (b.body m.body levels) fun bound w'' => L.Answers w' w'' levels bound) :
    L.Holds w (b.unionChain members levels) fun bound w' => L.Answers w w' levels bound := by
  have hbeside (own : List Captured) := (L.along_inside (L.query levels) own).toBeside
  -- the members so far, with what they have read of the query around
  refine .bind (F := fun r w' => L.Rows (L.inside (L.query levels) r.1 w)
    (L.inside (L.query levels) r.1 w')
      (.concat (r.2.map (·.root)) []) ∧ (∀ c ∈ r.1, L.Owns w' (L.query levels) c) ∧
      (L.strict → ∀ p ∈ r.2, p.Listed (L.ledger w')))
    (.foldlM ⟨L.rows_leaf (le_refl _) rfl rfl nofun nofun fun _ => trivial, nofun, fun _ => nofun⟩
      fun soFar w₁ h₁ hsoFar m hm => (hbody m hm w₁ h₁).bind fun bound w₂ h₂ hbound => ?_)
    fun (_, pending) w₁ _ ⟨hrows, howned, hlisted⟩ => ?_
  · have howned : ∀ c ∈ soFar.1 ++ bound.captured, L.Owns w₂ (L.query levels) c :=
      List.forall_mem_append.2 ⟨fun c hc => L.owns_later h₂ (hsoFar.2.1 c hc), hbound.owned⟩
    have hlisted (hst : L.strict) : ∀ p ∈ soFar.2 ++ [bound.plan], p.Listed (L.ledger w₂) :=
      List.forall_mem_append.2 ⟨fun p hp => (hsoFar.2.2 hst p hp).mono (L.ledger_later h₂),
        List.forall_mem_singleton.2 (hbound.listed hst)⟩
    have hall : L.Rows (L.inside (L.query levels) (soFar.1 ++ bound.captured) w)
        (L.inside (L.query levels) (soFar.1 ++ bound.captured) w₂)
        (.concat ((soFar.2 ++ [bound.plan]).map (·.root)) []) := by
      rw [List.map_append]
      exact L.rows_append (L.rows_more (List.subset_append_left soFar.1 bound.captured) hsoFar.1)
        (L.rows_more (List.subset_append_right soFar.1 bound.captured) hbound.rows)
    exact .ite (fun _ => (QueryPlan.holds_union (hbeside _) hall _).bind fun _ w₃ h₃ h =>
      .pure ⟨h.1.above rfl rfl nofun fun _ => trivial, fun c hc => L.owns_later h₃ (howned c hc),
        fun hst => List.forall_mem_singleton.2 (h.2.1 hst)⟩) fun _ => .pure ⟨hall, howned, hlisted⟩
  · dsimp only
    split
    next plan =>
      exact .pure ⟨L.rows_single hrows, howned, fun hst =>
        List.forall_mem_singleton.1 (hlisted hst)⟩
    next =>
      exact (QueryPlan.holds_union (hbeside _) hrows _).bind fun _ _ hw h =>
        .pure ⟨h.1, fun c hc => L.owns_later hw (howned c hc), h.2.1⟩

theorem holds_matching (op : Sql.SetOp) (quantifier : Sql.SetQuantifier)
    {left right : Sql.SetExpr Sql.Query}
    (hleft : L.Holds w (b.body left levels) fun bound w' => L.Answers w w' levels bound)
    (hright : ∀ w', w ≤ w' → L.Holds w' (b.body right levels) fun bound w'' =>
      L.Answers w' w'' levels bound) :
    L.Holds w (b.matching op quantifier left right levels) fun bound w' =>
      L.Answers w w' levels bound := by
  refine .check (by simp) fun _ => hleft.bind fun l w₁ h₁ hl =>
    (hright w₁ h₁).bind fun r w₂ h₂ hr => (QueryPlan.holds_matching (L.along_inside _ _)
      (L.rows_more (List.subset_append_left l.captured r.captured) hl.rows)
      (L.rows_more (List.subset_append_right l.captured r.captured) hr.rows)
      (fun hst => (hl.listed hst).mono (L.ledger_later h₂)) _).bind
    fun _ _ h₃ h => .pure ⟨h.1, List.forall_mem_append.2 ⟨fun c hc => ?_, fun c hc => ?_⟩, h.2⟩
  · exact L.owns_later (le_trans h₂ h₃) (hl.owned c hc)
  · exact L.owns_later h₃ (hr.owned c hc)

theorem holds_members {α : Type} (body : α → Sql.SetExpr Sql.Query) {members : List α}
    (hbody : ∀ m ∈ members, ∀ w', w ≤ w' →
      L.Holds w' (b.body (body m) []) fun bound w'' => L.Answers w' w'' [] bound) :
    L.Holds w (members.mapM fun member => return (← b.body (body member) []).plan)
      fun (plans : List QueryPlan) w' => L.Rows w w' (.concat (plans.map (·.root)) []) ∧
        (L.strict → ∀ p ∈ plans, p.Listed (L.ledger w')) := by
  suffices hall : ∀ (done : List Plan) (w₁ : L.World), w ≤ w₁ → L.Rows w w₁ (.concat done []) →
      L.Holds w₁ (members.mapM fun member => return (← b.body (body member) []).plan)
        fun (plans : List QueryPlan) w' => L.Rows w w' (.concat (done ++ plans.map (·.root)) []) ∧
          (L.strict → ∀ p ∈ plans, p.Listed (L.ledger w')) by
    exact hall [] w (le_refl w) (L.rows_leaf (le_refl w) rfl rfl nofun nofun fun _ => trivial)
  intro done w₁ h₁ hdone
  induction members generalizing done w₁ with
  | nil => exact .pure ⟨by simpa using hdone, fun _ => nofun⟩
  | cons member rest ih =>
    rw [List.forall_mem_cons] at hbody
    rw [List.mapM_cons, bind_assoc]
    simp only [pure_bind]
    refine (hbody.1 w₁ h₁).bind fun bound w₂ h₂ hbound => ?_
    refine (ih hbody.2 _ w₂ (le_trans h₁ h₂) (L.rows_append hdone hbound.top)).bind
      fun plans _ h₃ h =>
      .pure ⟨by simpa using h.1, fun hst => List.forall_mem_cons.2 ⟨?_, h.2 hst⟩⟩
    exact (hbound.listed hst).mono (L.ledger_later h₃)

theorem holds_anchor {anchors : List Sql.UnionMember} (hbody : ∀ m ∈ anchors, ∀ w', w ≤ w' →
      L.Holds w' (b.body m.body []) fun bound w'' => L.Answers w' w'' [] bound) :
    L.Holds w (b.anchor anchors) fun plan w' => L.Rows w w' plan.root := by
  refine (holds_members Sql.UnionMember.body hbody).bind fun plans w₁ _ hplans => ?_
  split
  next plan => exact .pure (L.rows_single hplans.1)
  next => exact (QueryPlan.holds_union L.along_id.toBeside hplans.1 _).mono fun _ _ _ h => h.1

section

variable {anchor step : QueryPlan} {columns : List RecursiveColumn} {names : List String}
    {name : String}
  {ledger : Ledger} {c : ConcatColumn}

theorem length_of_checkStep (h : checkStep name columns step = .ok ()) :
    step.columns.length = columns.length := by
  unfold checkStep at h
  split at h
  next => cases h
  next hlength => simpa using hlength

theorem holds_ofAnchor (relation : String) (names : List String) (anchor : QueryPlan) :
    L.Holds w (RecursiveColumn.ofAnchor relation names anchor) fun columns w' =>
      (L.strict → ∀ c ∈ columns, (L.ledger w').Types c.param c.dataType) ∧
        columns.length ≤ anchor.columns.length := by
  refine .mono
    (.mapM_forall₂ (S := fun (_ : (String × OutputColumn) × Nat) (c : RecursiveColumn) w' =>
      L.strict → (L.ledger w').Types c.param c.dataType)
    (fun hw h hst => (h hst).mono (L.ledger_later hw)) fun ((name, output), i) _ w₁ _ =>
    .check (by simp) fun _ => .test (by simp) fun (_, field) _ =>
      (L.freshParam w₁ field.dataType).bind
    fun _ _ _ h => .pure h) fun columns w' _ h => ⟨fun hst =>
      forall_mem_of_forall₂ h fun _ _ h => h hst, ?_⟩
  have hlength := h.length_eq
  simp only [List.length_zipIdx, List.length_zip] at hlength
  omega

theorem sets_stacked {stacked : List ConcatColumn} (hc : c ∈ stacked) {param : String}
    (hname : c.name = name) (hparam : ledger.Types param c.dataType) :
    ledger.Sets (.ofFields (stacked.map ConcatColumn.field)) ⟨param, .bare name⟩ := by
  subst hname
  exact ⟨c.dataType, hparam, Schema.passes_of_mem (f := c.field) (List.mem_map_of_mem hc)⟩

theorem sets_stackColumn (hanchor : columns.length ≤ anchor.columns.length)
    (hstep : columns.length ≤ step.columns.length) {c : RecursiveColumn} (hc : c ∈ columns)
    (hparam : ledger.Types c.param c.dataType) (more : List ConcatColumn) :
    ledger.Sets (.ofFields ((stackColumns columns anchor step ++ more).map ConcatColumn.field))
      ⟨c.param, .bare c.name⟩ := by
  have hzip : (columns.zip (anchor.columns.zip step.columns)).map Prod.fst = columns :=
    List.map_fst_zip (by simp only [List.length_zip]; omega)
  rw [← hzip] at hc
  obtain ⟨⟨_, fromAnchor, fromStep⟩, hmem, rfl⟩ := List.mem_map.1 hc
  unfold stackColumns
  exact sets_stacked (List.mem_append_left more (List.mem_map_of_mem hmem)) rfl hparam

/-- The stack sets the parameters of the recursive row and of the level for the steps. -/
theorem holds_recursiveStack {levelParam : String} (hanchor : L.Rows a m anchor.root)
    (hstep : L.Rows (L.recursing (columns.map (·.param)) m)
      (L.recursing (columns.map (·.param)) w) step.root)
    (hcolumns : L.strict → ∀ c ∈ columns, (L.ledger w).Types c.param c.dataType)
    (hlevel : L.strict → (L.ledger w).Types levelParam .int32)
    (hlengths : L.strict → columns.length ≤ anchor.columns.length ∧
      columns.length ≤ step.columns.length) :
    L.Holds w (recursiveStack columns levelParam anchor step) fun plan w' =>
      L.Rows a w' plan.root := by
  refine (L.freshExpr w).bind fun first w₁ h₁ _ => (L.freshExpr w₁).bind fun next w₂ h₂ hnext =>
    (L.freshExpr w₂).bind fun level w₃ h₃ _ => (L.freshSpool w₃).bind fun id w₄ h₄ hid =>
    L.consult (fun c => .pure ?_)
      fun c c' h => by simp only [BindContext.maxRecursion, h.options, h.recursionHint]
  have hw := le_trans h₁ (le_trans h₂ h₃)
  have hstep := (L.rows_steps (List.subset_append_left _ [levelParam]) hstep).later
    (L.recursing_later _ hw)
  have hparam : L.Value (L.recursing (columns.map (·.param) ++ [levelParam]) w₃)
      (.outer levelParam .int32) :=
    L.value_param (by simp) fun hst => (hlevel hst).mono (L.ledger_later hw)
  refine L.rows_stack _ _ _ (hanchor.above rfl rfl ?_ fun _ => ?_)
    (hstep.above rfl rfl ?_ fun _ => ?_) hid ?_ rfl
    fun hst hanchorRows hstepRows => ?_
  · exact List.forall_mem_singleton.2 (Account.value_literal _)
  · refine List.forall_mem_singleton.2 fun t ht => ?_
    cases ht
    rfl
  · exact List.forall_mem_singleton.2 (Account.value_binary.2 ⟨hparam, Account.value_literal _⟩)
  · refine List.forall_mem_singleton.2 fun t ht => ?_
    cases ht
    rfl
  · simp [JoinStrategy.bindings, Function.comp_def]
  · have hw := L.ledger_later (le_trans hw h₄)
    refine hanchorRows.stack hstepRows ?_ (hnext.coins.later (le_trans h₃ h₄) hst)
    refine List.forall_mem_append.2 ⟨List.forall_mem_map.2 fun c hc =>
      ?_, List.forall_mem_singleton.2 ?_⟩
    · exact sets_stackColumn (hlengths hst).1 (hlengths hst).2 hc ((hcolumns hst c hc).mono hw) _
    · exact sets_stacked (List.mem_append_right _ (List.mem_singleton_self _))
        rfl ((hlevel hst).mono hw)

end

end QueryBinder

/-- The expressions in view do not matter to a logic, and it knows the recursive rows. -/
structure Logic.Roams (L : Logic) : Prop where
  surroundings : ∀ {w : L.World} {β : Type} {f : BindContext → BindM β} {G : β → L.World → Prop},
    (∀ c, (∀ name r, c.recursiveReference? name = some r → L.Rows w w r.plan.root) →
      L.Holds w (f c) G) →
    L.Holds w (read >>= f) G
  elsewhere : ∀ {w : L.World} {α : Type} {x : BindM α} {F : α → L.World → Prop}
    {g : BindContext → BindContext}, (∀ c, (g c).recursive = c.recursive) → L.Holds w x F →
    L.Holds w (withReader g x) F
  stepping : ∀ {w : L.World} {α : Type} {x : BindM α} {F : α → L.World →
    Prop} (r : RecursiveReference),
    (L.strict → ∀ c ∈ r.columns, (L.ledger w).Types c.param c.dataType) →
    L.Holds (L.recursing (r.columns.map (·.param)) w) x F →
    L.Holds w (withReader (fun c => { c with recursive := r :: c.recursive }) x) fun a w' =>
      F a (L.recursing (r.columns.map (·.param)) w')

structure Logic.Binds (L : Logic) (b : QueryBinder) : Prop where
  query : ∀ {w : L.World} (q : Sql.Query) {levels : List Level}, L.Around w levels →
    L.Holds w (b.query q levels) fun bound w' => L.Answers w w' levels bound
  body : ∀ {w : L.World} (e : Sql.SetExpr Sql.Query) {levels : List Level}, L.Around w levels →
    L.Holds w (b.body e levels) fun bound w' => L.Answers w w' levels bound

namespace QueryBinder

variable (hL : L.Roams)

include hL

theorem stays_checkPlacement (w : L.World) (t : QueryTail) (hasTop : Bool) :
    L.Stays w (t.checkPlacement hasTop) fun _ => True :=
  hL.surroundings fun _ _ => .ite (fun _ => .throw (by simp)) fun _ => .pure ⟨rfl, trivial⟩

variable {b : QueryBinder} (hb : L.Binds b)

include hb

theorem holds_step (r : RecursiveReference)
    (hr : L.strict → ∀ c ∈ r.columns, (L.ledger w).Types c.param c.dataType)
    (steps : List (Sql.SetExpr Sql.Query)) :
    L.Holds w (b.step r steps) fun plan w' => L.Rows (L.recursing (r.columns.map (·.param)) w)
        (L.recursing (r.columns.map (·.param)) w') plan.root ∧
        plan.columns.length = r.columns.length := by
  rw [step, BindM.stepping_eq]
  refine .bind (hL.stepping r hr (holds_members id fun body _ _ _ => hb.body body (L.around_nil _)))
    fun plans w₁ _ hplans =>
      .bind (.forM (S := fun plan => checkStep r.name r.columns plan = .ok ())
      fun _ _ _ _ => .lift (by simp) fun _ h => h) fun _ w₂ h₂ hchecked => ?_
  have hplans := hplans.1.later (L.recursing_later _ h₂)
  cases plans with
  | nil => exact .throw (by simp)
  | cons first rest =>
    have hfirst := hchecked first (by simp)
    cases rest with
    | nil => exact .pure ⟨L.rows_single hplans, length_of_checkStep hfirst⟩
    | cons =>
      exact (QueryPlan.holds_union (L.beside_recursing _) hplans false).mono fun plan w₃ _ h =>
        ⟨h.1, (h.2.2 first (by simp)).trans (length_of_checkStep hfirst)⟩

theorem holds_recursiveCte (d : CteDefinition) :
    L.Holds w (b.recursiveCte d) fun plan w' => L.Rows w w' plan.root := by
  refine .test (by simp) fun members _ =>
    (holds_anchor fun m _ _ _ => hb.body m.body (L.around_nil _)).bind
    fun anchor w₁ _ hanchor => .test (by simp) fun names _ =>
      (holds_ofAnchor d.name names anchor).bind
    fun columns w₂ h₂ ⟨hcolumns, hlength⟩ => (L.freshParam w₂ .int32).bind
      fun param w₃ h₃ hparam => ?_
  have hcolumns (hst : L.strict) := fun c hc => (hcolumns hst c hc).mono (L.ledger_later h₃)
  refine (holds_step hL hb ⟨d.name, columns⟩ hcolumns _).bind fun step w₄ h₄ ⟨hstep, hwidth⟩ =>
    holds_recursiveStack (hanchor.later (le_trans h₂ h₃)) hstep (fun hst c hc => ?_)
      (fun hst => (hparam hst).mono (L.ledger_later h₄)) fun _ =>
      ⟨hlength, Nat.le_of_eq hwidth.symm⟩
  exact (hcolumns hst c hc).mono (L.ledger_later h₄)

theorem holds_cte (d : CteDefinition) : L.Holds w (b.cte d) fun plan w' =>
    L.Rows w w' plan.root := by
  rw [cte, BindM.amidst_eq]
  exact hL.elsewhere (fun _ => rfl) (.ite (fun _ => holds_recursiveCte hL hb d)
    fun _ => (hb.query _ (L.around_nil _)).bind fun _ _ _ h => .pure h.top)

theorem holds_namedTable (name : Sql.ObjectName) (tableAlias : Option Sql.TableAlias) :
    L.Holds w (b.namedTable name tableAlias) fun r w' => L.Shows w w' r.plan := by
  have hquery (columns : List String) : L.Holds w (b.namedQuery? name columns) fun found w' =>
      ∀ r ∈ found, L.Rows w w' r.1.root := by
    refine .ite (fun _ => .pure nofun) fun _ => hL.surroundings fun c hc => ?_
    split
    next reference _ hreference =>
      refine .pure ?_
      rintro _ ⟨⟩
      exact hc _ _ hreference
    · refine (holds_cte hL hb _).bind fun _ _ _ h => .pure ?_
      rintro _ ⟨⟩
      exact h
    · exact .pure nofun
  refine (hquery _).bind fun found w₁ h₁ hfound => ?_
  split
  next plan names => exact .lift (by simp) fun _ => QueryPlan.shows_named (hfound _ rfl)
  · exact .check (by simp) fun _ => (stays_bindStored w₁ _ _).next fun scan hscan =>
      .pure ⟨L.rows_scan h₁ hscan, fun _ => List.forall_mem_map.2 fun _ _ =>
        Ledger.gives_qualified _ _⟩

theorem serves : L.Serves b (fun _ => True) fun _ => True where
  query _ h := hb.query _ h
  table tableAlias _ := holds_namedTable hL hb _ tableAlias

variable {levels : List Level} (h : L.Around w levels)

include h

theorem holds_select (s : Sql.Select Sql.Query) (tail : QueryTail) :
    L.Holds w (b.select s tail levels) fun bound w' => L.Answers w w' levels bound := by
  have hblock : L.Holds (L.inside (L.query levels) [] w) (b.block s tail levels) _ :=
    holds_block (serves hL hb) (fun _ _ => trivial) (fun _ _ => trivial) (fun _ _ _ _ => trivial)
      (L.sees_inside [] h) (L.feeds_inside [] h)
  refine .test (by simp) fun _ _ => (stays_checkPlacement hL w tail _).next fun _ _ =>
    (L.enclosed hblock).bind fun (_, own) w' _ h =>
      .pure ⟨L.rows_more (List.Subset.refl _) h.1.1, h.2, fun hst => ?_⟩
  exact L.ledger_inside (L.query levels) own w' ▸ h.1.2 hst

theorem holds_bindBody (body : Sql.SetExpr Sql.Query) :
    L.Holds w (b.bindBody body levels) fun bound w' => L.Answers w w' levels bound := by
  unfold bindBody
  split
  · exact holds_select hL hb h _ _
  · exact hb.query _ h
  · exact holds_bindValues _ h
  · exact holds_unionChain fun m _ _ hw => hb.body m.body (L.around_later hw h)
  · exact holds_matching _ _ (hb.body _ h) fun _ hw => hb.body _ (L.around_later hw h)
  · exact .throw (by simp)

omit hb h in
theorem holds_tailApply {u : L.World} {bound : BoundQuery} (hbound : L.Answers u w levels bound)
    (t : QueryTail) : L.Holds w (t.apply bound) fun bound w' => L.Answers u w' levels bound := by
  refine (stays_checkPlacement hL w t _).next fun _ _ => .bind
    (.mapM (G := fun _ _ => True) (fun _ h => h) fun _ _ _ _ => .lift (by simp) fun _ _ => trivial)
    fun keys w₁ h₁ _ => ?_
  have hrows := hbound.rows.later (L.inside_later _ _ h₁)
  exact (t.holds_limitRows (L.along_inside _ _) (hrows.ordered keys)).bind fun _ w₂ h₂ h =>
    .pure ⟨h.1, fun c hc => L.owns_later (le_trans h₁ h₂) (hbound.owned c hc),
      fun hst => (hbound.listed hst).mono (L.ledger_later (le_trans h₁ h₂))⟩

theorem holds_bindQuery (q : Sql.Query) :
    L.Holds w (b.bindQuery q levels) fun bound w' => L.Answers w w' levels bound := by
  refine .check (by simp) fun _ => ?_
  dsimp only
  split
  · exact .throw (by simp)
  · rw [BindM.nested_eq]
    refine hL.surroundings fun c _ => .test (by simp) fun ctes _ => hL.elsewhere (fun _ => rfl) ?_
    split
    · exact holds_select hL hb h _ _
    · exact (hb.body _ h).bind fun _ _ _ hbound => holds_tailApply hL hbound _

omit hb h in
theorem binds_ofDepth (depth : Nat) : L.Binds (ofDepth depth) := by
  induction depth with
  | zero => exact ⟨fun _ _ _ => .throw (by simp), fun _ _ _ => .throw (by simp)⟩
  | succ depth ih =>
    exact ⟨fun q _ h => holds_bindQuery hL ih h q, fun e _ h => holds_bindBody hL ih h e⟩

end QueryBinder

end BatchPlan
