import BatchPlan.Proofs.Meaning.Lookup
import BatchPlan.Proofs.Substitution.Lowering

namespace BatchPlan

open BindM

variable {c : BindContext} {s s' s₀ : BindState} {α : Type}
    {calls : List (Sql.Call Sql.Expr)} {n : Nat}
  {b : QueryBinder} {e : Sql.Expr} {x : BindM α}
variable {es : List Sql.Expr}

theorem Obeys.yields {Q : α → BindState → Prop} (htame : Tame x) (h : Yields x c s Q) :
    Yields x c s fun a s' => Q a s' ∧ s.names.exprs ≤ s'.names.exprs :=
  fun a s' hx => ⟨h a s' hx, (htame.of_start c s _ s' hx).1.exprs⟩

theorem Obeys.le (htame : Tame x) : Yields x c s fun _ s' => s.names.exprs ≤ s'.names.exprs :=
  (htame.yields .any).mono fun _ _ h => h.2

theorem le_lift {r : Result α} : Yields (liftM r : BindM α) c s fun _ s' =>
    s.names.exprs ≤ s'.names.exprs :=
  .lift fun _ _ => Nat.le_refl _

def Scalar.New (v : Scalar) (s s' : BindState) : Prop :=
  ∃ n, s.names.exprs < n ∧ n ≤ s'.names.exprs ∧ v.Marked n

namespace Scalar

variable {v : Scalar}

theorem marked_column (n : Nat) : (Scalar.column (.bare (exprName n))).Marked n := by
  simp [Marked, columns, parts, column?]

theorem Marked.unary (h : v.Marked n) (op : UnaryOp) : (Scalar.unary op v).Marked n := by
  rw [Marked, columns, parts, List.filterMap_cons_none rfl]
  exact h

theorem Marked.binary (h : v.Marked n) (op : BinaryOp) (w : Scalar) :
    (Scalar.binary v op w).Marked n := by
  rw [Marked, columns] at h
  rw [Marked, columns, parts, List.filterMap_cons_none rfl, List.filterMap_append,
    List.head?_append, h]
  rfl

theorem New.widen {s₁ : BindState} (h : v.New s s') (h₀ : s₀.names.exprs ≤ s.names.exprs)
    (h₁ : s'.names.exprs ≤ s₁.names.exprs) : v.New s₀ s₁ := by
  obtain ⟨n, hn, hn', hv⟩ := h
  exact ⟨n, by omega, by omega, hv⟩

end Scalar

theorem yields_freshExpr : Yields freshExpr c s fun name s' =>
    (Scalar.column (.bare name)).New s s' := by
  intro name s' h
  obtain ⟨rfl, rfl⟩ := start_freshExpr h
  exact ⟨_, Nat.lt_succ_self _, Nat.le_refl _, Scalar.marked_column _⟩

theorem Block.grows_foldlM {step : Block → α → BindM Block} {xs : List α}
    (key : α → String) {k : Block}
    (hstep : ∀ k, ∀ a ∈ xs, ∀ s, Yields (step k a) c s fun k' s' => k.Grows b c es s k' s' ∧
      k'.scope.Knows (key a)) :
    Yields (xs.foldlM step k) c s fun k' s' => k.Grows b c es s k' s' ∧
      ∀ a ∈ xs, k'.scope.Knows (key a) := by
  induction xs generalizing k s with
  | nil => exact .pure ⟨.refl, nofun⟩
  | cons a xs ih =>
    rw [List.foldlM_cons]
    refine (hstep k a (by simp) s).bind fun k₁ s₁ ⟨hgrows, hknows⟩ =>
      (ih fun k a ha => hstep k a (by simp [ha])).mono fun k₂ s₂ ⟨hgrows', hknows'⟩ => ?_
    exact ⟨hgrows.trans hgrows', List.forall_mem_cons.2 ⟨hgrows'.knows hknows, hknows'⟩⟩

/-- A plan above the rows of a block, with a value whose number is new. -/
def Block.Gains (k : Block) (s : BindState) (r : Plan × Scalar) (s' : BindState) : Prop :=
  k.plan.Inside r.1 ∧ r.2.New s s'

theorem Plan.inside_join (left right : Plan) (j : JoinSpec) : left.Inside (.join left right j) :=
  (Plan.Inside.refl left).of_child (by simp [children])

theorem InnerQuery.yields_joinTo (q : InnerQuery) (left : Plan) (condition : Option Scalar)
    (definitions : List Definition) : Yields (q.joinTo left condition definitions) c s
      fun plan s' => left.Inside plan ∧ s.names.exprs ≤ s'.names.exprs := by
  refine (q.tame_joinTo left condition definitions).yields ?_
  unfold joinTo
  exact .ite (fun _ => Yields.any.bind fun _ _ _ => .pure (Plan.inside_join ..))
    fun _ => Yields.any.bind fun _ _ _ => .pure (Plan.inside_join ..)

theorem Plan.yields_withColumn (p : Plan) (e : Scalar) : Yields (p.withColumn e) c s
    fun r s' => p.Inside r.1 ∧ s.names.exprs ≤ s'.names.exprs := by
  refine (p.tame_withColumn e).yields ?_
  exact Yields.any.bind fun _ _ _ => .pure ((Plan.Inside.refl p).define _)

namespace QueryBinder

theorem yields_membership (inner : InnerQuery) (plan : Plan) (outerColumn innerColumn : Column)
    (definitions : List Definition) :
    Yields (membership inner plan outerColumn innerColumn definitions) c s
      fun r s' => plan.Inside r ∧ s.names.exprs ≤ s'.names.exprs := by
  refine .ite (fun _ => inner.yields_joinTo _ _ _) fun _ =>
    .ite (fun _ => .pure ⟨?_, Nat.le_refl _⟩) fun _ => .pure ⟨Plan.inside_join .., Nat.le_refl _⟩
  exact ((Plan.Inside.refl plan).ordered _).trans (Plan.inside_join ..)

section

variable {b : QueryBinder} (hb : b.IsTame)

include hb

theorem yields_exists_ (query : Sql.Query) (negated : Bool) (k : Block) :
    Yields (b.exists_ query negated k) c s (k.Gains s) := by
  refine (hb.query query _).le.bind fun q s₁ h₁ => yields_freshExpr.bind fun name s₂ hname =>
    (InnerQuery.yields_joinTo _ _ _ _).bind fun plan s₃ ⟨hplan, h₃⟩ => .pure ⟨hplan, ?_⟩
  obtain ⟨n, hn, hn', hmarked⟩ := hname.widen h₁ h₃
  refine ⟨n, hn, hn', ?_⟩
  cases negated
  · exact hmarked.unary _
  · exact hmarked.unary _

theorem yields_flagged (e : Sql.Expr) (query : Sql.Query) (k : Block) :
    Yields (b.flagged e query k) c s fun found s' => k.Gains s (found.plan, found.flag) s' := by
  refine (k.scope.tame_bindChecked e).le.bind fun e s₁ h₁ =>
    (hb.query query _).le.bind fun q s₂ h₂ =>
    le_lift.bind fun inner s₃ h₃ => le_lift.bind fun column s₄ h₄ =>
    (Obeys.le (.discard (.lift (by simp)))).bind fun _ s₅ h₅ => le_lift.bind fun (_, _) s₆ h₆ =>
    (Obeys.le .read).bind fun _ s₇ h₇ => le_lift.bind fun _ s₈ h₈ => ?_
  refine (k.plan.yields_withColumn e).bind fun (plan, outer) s₉ ⟨hcolumn, h₉⟩ =>
    yields_freshExpr.bind fun name t hname => (yields_membership _ _ _ _ _).bind
      fun joined t' ⟨hjoin, ht⟩ => ?_
  exact .pure ⟨hcolumn.trans hjoin, hname.widen (by omega) ht⟩

theorem yields_notInWithNulls (query : Sql.Query) (k : Block) (plan : Plan)
    (column : Column) {flag : Scalar}
    (hflag : flag.Marked n) : Yields (b.notInWithNulls query k plan column flag) c s
      fun r s' => plan.Inside r.1 ∧ r.2.Marked n ∧ s.names.exprs ≤ s'.names.exprs := by
  refine .mono ((tame_notInWithNulls hb query k plan column flag).yields
    (Q := fun r _ => plan.Inside r.1 ∧ r.2.Marked n) ?_) fun _ _ h => ⟨h.1.1, h.1.2, h.2⟩
  refine Yields.any.bind fun _ _ _ => Yields.any.bind fun _ _ _ => Yields.any.bind fun _ _ _ =>
    Yields.any.bind fun _ _ _ => Yields.any.bind fun _ _ _ => Yields.any.bind fun _ _ _ =>
    (InnerQuery.yields_joinTo _ _ _ _).bind fun plan' _ ⟨hplan, _⟩ => ?_
  exact .pure ⟨hplan, (hflag.unary _).binary _ _⟩

theorem yields_in_ (e : Sql.Expr) (query : Sql.Query) (negated : Bool) (k : Block) :
    Yields (b.in_ e query negated k) c s (k.Gains s) := by
  refine (yields_flagged hb e query k).bind fun found s₁ ⟨hplan, n, hn, hn', hflag⟩ => ?_
  refine .ite (fun _ => .pure ⟨hplan, n, hn, hn', hflag.unary _⟩) fun _ =>
    .ite (fun _ => .pure ⟨hplan, n, hn, hn', hflag.unary _⟩) fun _ => ?_
  refine (yields_notInWithNulls hb query k found.plan found.column hflag).mono
    fun r s₂ ⟨hjoin, hr, hs⟩ => ?_
  exact ⟨hplan.trans hjoin, n, hn, by omega, hr⟩

theorem yields_scalar (query : Sql.Query) (k : Block) :
    Yields (b.scalar query k) c s (k.Gains s) := by
  refine (hb.query query _).le.bind fun q s₁ h₁ => le_lift.bind fun inner s₂ h₂ =>
    le_lift.bind fun column s₃ h₃ => le_lift.bind fun (_, field) s₄ h₄ =>
    (tame_counted none inner.root.maxRows).le.bind fun most s₅ h₅ => ?_
  have hjoin (found : InnerQuery × Column) {s₆ : BindState} (h₆ : s.names.exprs ≤ s₆.names.exprs) :
      Yields (BindM.freshExpr >>= fun name =>
        found.1.joinTo k.plan none
          [{ name, expr := .column found.2, dataType := field.dataType }] >>=
          fun plan => pure (plan, Scalar.column (.bare name))) c s₆ (k.Gains s) :=
    yields_freshExpr.bind fun name s₇ hname => (InnerQuery.yields_joinTo _ _ _ _).bind
      fun plan s₈ ⟨hplan, h₈⟩ => .pure ⟨hplan, hname.widen h₆ h₈⟩
  have hfirst : Yields (firstValue inner column field.dataType) c s₅
      fun _ s' => s₅.names.exprs ≤ s'.names.exprs :=
    Obeys.le (tame_freshExpr.bind fun _ => tame_freshExpr.bind fun _ => .pure _)
  have h : s.names.exprs ≤ s₅.names.exprs := by omega
  exact .ite (fun _ => .bind (.pure h) fun found s₆ h₆ => hjoin found h₆) fun _ =>
    hfirst.bind fun found s₆ h₆ => hjoin found (Nat.le_trans h h₆)

theorem grows_subquery (he : e ∈ es) (hsub : e.isSubquery) (k : Block) :
    Yields (b.subquery k e) c s fun k' s' => k.Grows b c es s k' s' ∧ k'.scope.Knows e.key := by
  refine .ite (fun hknown => .pure ⟨.refl, Scope.knows_iff.2 hknown⟩) fun _ => ?_
  have hadd {r : Plan × Scalar} {s' : BindState} (hgains : k.Gains s r s')
    (hlowers : k.Lowers b c es r.1 e r.2) :
      Yields (pure (⟨r.1, (k.scope.withSchema r.1.schema).addComputed e.key r.2⟩ : Block)) c s'
        fun k' s' => k.Grows b c es s k' s' ∧ k'.scope.Knows e.key := by
    obtain ⟨hplan, n, hn, hn', hv⟩ := hgains
    exact .pure ⟨.add hplan rfl rfl rfl rfl (.single hn hn' hv e.key)
      (List.forall_mem_singleton.2 ⟨e, he, rfl, hlowers⟩), r.2, List.mem_cons_self⟩
  unfold Sql.ExprOf.isSubquery at hsub
  split at hsub
  · exact .mapped (yields_scalar hb _ k).run fun r s' h => hadd h.1 (.scalar h.2 (.refl _))
  · exact .mapped (yields_exists_ hb _ _ k).run fun r s' h => hadd h.1 (.exists_ h.2 (.refl _))
  · exact .mapped (yields_in_ hb _ _ _ k).run fun r s' h => hadd h.1 (.in_ h.2 (.refl _))
  · cases hsub

theorem grows_subqueries (conditions : List Sql.Expr) (hes : ∀ e ∈ conditions, e.subqueryParts ⊆ es)
    (k : Block) : Yields (b.subqueries conditions k) c s
      fun k' s' => k.Grows b c es s k' s' ∧
        ∀ e ∈ conditions, ∀ part ∈ e.subqueryParts, k'.scope.Knows part.key := by
  refine (Block.grows_foldlM Sql.ExprOf.key fun k part hpart s => ?_).mono
    fun k' s' ⟨hgrows, hknows⟩ =>
    ⟨hgrows, fun e he part hpart => hknows part (List.mem_flatMap.2 ⟨e, he, hpart⟩)⟩
  obtain ⟨e, he, hpart⟩ := List.mem_flatMap.1 hpart
  exact grows_subquery hb (hes e he hpart) (Sql.ExprOf.of_mem_outermost _ _ _ hpart) k

end

end QueryBinder

namespace WindowInput

/-- A plan above the rows of a window, with a column whose number is new. -/
def Gains (w : WindowInput) (s : BindState) (r : Plan × String) (s' : BindState) : Prop :=
  w.plan.Inside r.1 ∧ (Scalar.column (.bare r.2)).New s s'

theorem yields_segmented (w : WindowInput) (order : List SortKey) : Yields (w.segmented order) c s
    fun r s' => w.plan.Inside r.1 ∧ s.names.exprs ≤ s'.names.exprs := by
  refine (w.tame_segmented order).yields (Yields.any.bind fun _ _ _ => .pure ?_)
  exact ((Plan.Inside.refl w.plan).ordered _).above rfl

theorem yields_ranking (w : WindowInput) (f : AggregateFunction) :
    Yields (w.ranking f) c s (w.Gains s) := by
  refine (w.yields_segmented w.orderBy).bind fun r s₁ ⟨hplan, h₁⟩ => ?_
  have hname {plan : Plan} (segment : Option Column) {s₂ : BindState} (hplan : w.plan.Inside plan)
      (h₂ : s.names.exprs ≤ s₂.names.exprs) : Yields (freshExpr >>= fun name =>
        pure (Plan.sequence plan [⟨name, f, r.2, segment⟩], name)) c s₂ (w.Gains s) :=
    yields_freshExpr.bind fun name s₃ hname =>
      .pure ⟨hplan.above rfl, hname.widen h₂ (Nat.le_refl _)⟩
  refine .ite (fun _ => ?_) fun _ => tame_freshSegment.le.bind fun mark s₂ h₂ => ?_
  · rw [pure_bind]
    exact hname none hplan h₁
  · rw [pure_bind]
    exact hname _ (hplan.above rfl) (Nat.le_trans h₁ h₂)

theorem yields_partitionAggregate (w : WindowInput) (f : AggregateFunction) :
    Yields (w.partitionAggregate f) c s (w.Gains s) := by
  refine (w.yields_segmented []).bind fun r s₁ ⟨hplan, h₁⟩ =>
    tame_freshSpool.le.bind fun id s₂ h₂ =>
    yields_freshExpr.bind fun name s₃ hname =>
      .pure ⟨?_, hname.widen (Nat.le_trans h₁ h₂) (Nat.le_refl _)⟩
  exact (hplan.above rfl).trans (Plan.inside_join ..)

theorem yields_frameAggregate (w : WindowInput) (f : AggregateFunction) (frame : RowsFrame) :
    Yields (w.frameAggregate f frame) c s (w.Gains s) := by
  refine (w.yields_segmented w.orderBy).bind fun r s₁ ⟨hplan, h₁⟩ =>
    tame_freshExpr.le.bind fun number s₂ h₂ =>
    tame_freshExpr.le.bind fun first s₃ h₃ => tame_freshExpr.le.bind fun last s₄ h₄ =>
    (Obeys.le (.mapM (fun _ => tame_freshExpr.bind fun _ => .pure _) _)).bind fun values s₅ h₅ =>
    tame_freshSpool.le.bind fun id s₆ h₆ => yields_freshExpr.bind fun name s₇ hname => ?_
  exact .pure ⟨(((hplan.above rfl).above rfl).above rfl).above rfl,
    hname.widen (by omega) (Nat.le_refl _)⟩

theorem yields_bindAggregate (w : WindowInput) (f : AggregateFunction) (name : String)
    (frame : Option Sql.Frame) : Yields (w.bindAggregate f name frame) c s (w.Gains s) := by
  refine .check fun _ =>
    (Obeys.le (.optionMapM (fun _ => .bind (.lift (by simp)) fun _ => .pure _) _)).bind
    fun argType s₁ h₁ => ?_
  have hgains {r : Plan × String} {s₂ s' : BindState} (h₂ : s₁.names.exprs ≤ s₂.names.exprs)
      (h : Gains { w with argType } s₂ r s') : w.Gains s r s' :=
    ⟨h.1, h.2.widen (Nat.le_trans h₁ h₂) (Nat.le_refl _)⟩
  refine .ite (fun _ => .check fun _ => ?_) fun _ => le_lift.bind fun rows s₂ h₂ => ?_
  · exact (yields_partitionAggregate _ f).mono fun _ _ => hgains (Nat.le_refl _)
  · exact (yields_frameAggregate _ f rows).mono fun _ _ => hgains h₂

end WindowInput

namespace Block

theorem yields_windowInput (k : Block) (call : Sql.Call Sql.Expr) (partitionBy : List Sql.Expr)
    (orderBy : List (Sql.OrderItem Sql.Expr)) : Yields (k.windowInput call partitionBy orderBy) c s
      fun w s' => k.plan.Inside w.plan ∧ s.names.exprs ≤ s'.names.exprs := by
  refine (k.tame_windowInput call partitionBy orderBy).yields (Yields.any.bind fun _ _ _ =>
    Yields.any.bind fun _ _ _ => Yields.any.bind fun _ _ _ => .pure ?_)
  exact (Plan.Inside.refl _).define _

theorem yields_bindWindow (k : Block) (call : Sql.Call Sql.Expr) : Yields (k.bindWindow call) c s
    fun r s' => k.Gains s (r.1, .column (.bare r.2)) s' := by
  unfold bindWindow
  split
  next partitionBy orderBy frame _ =>
    refine le_lift.bind fun f s₁ h₁ => .check fun _ => .check fun _ =>
      (k.yields_windowInput call partitionBy orderBy).bind fun w s₂ ⟨hplan, h₂⟩ => ?_
    have hgains {r : Plan × String} {s' : BindState} (h : w.Gains s₂ r s') :
        k.Gains s (r.1, .column (.bare r.2)) s' :=
      ⟨hplan.trans h.1, h.2.widen (Nat.le_trans h₁ h₂) (Nat.le_refl _)⟩
    refine .ite (fun _ => ?_) fun _ => ?_
    · exact .check fun _ => .check fun _ => (w.yields_ranking f).mono fun _ _ => hgains
    · exact (w.yields_bindAggregate f _ frame).mono fun _ _ => hgains
  · exact .throw

theorem grows_windows (b : QueryBinder) (items : List Sql.Expr)
    (hes : ∀ e ∈ items, e.windowParts ⊆ es) (k : Block) : Yields (k.windows items) c s
      fun k' s' => k.Grows b c es s k' s' ∧ ∀ e ∈ items, ∀ part ∈ e.windowParts,
        k'.scope.Knows part.key := by
  refine (grows_foldlM (fun call => Sql.ExprOf.key (.call call)) fun k call hcall s => ?_).mono
    fun k' s' ⟨hgrows, hknows⟩ => ⟨hgrows, fun e he part hpart => ?_⟩
  · obtain ⟨e, he, hpart⟩ := Sql.exists_part_of_call hcall
    refine (k.yields_bindWindow call).run.bind fun r s₁ ⟨⟨hplan, n, hn, hn', hv⟩, hrun⟩ => .pure ?_
    exact ⟨.add hplan rfl rfl rfl rfl (.single hn hn' hv _) (List.forall_mem_singleton.2
      ⟨_, hes e he hpart, rfl, .window hrun (.refl _)⟩), _, List.mem_cons_self⟩
  · obtain ⟨call, hcall, hkey⟩ := Sql.exists_call_of_part he hpart
    exact hkey ▸ hknows call hcall

end Block

theorem Scalar.yields_asColumn (e : Scalar) (schema : Schema) : Yields (e.asColumn schema) c s
    fun r s' => s.names.exprs ≤ s'.names.exprs ∧ ∀ d, r.2 = some d →
      d.expr = e ∧ r.1 = .bare d.name ∧ (Scalar.column r.1).New s s' := by
  unfold asColumn
  split
  · exact .pure ⟨Nat.le_refl _, nofun⟩
  · refine le_lift.bind fun type s₁ h₁ => yields_freshExpr.bind fun name s₂ hname => .pure ?_
    have hnew := hname.widen h₁ (Nat.le_refl _)
    refine ⟨?_, fun d hd => ?_⟩
    · obtain ⟨n, hn, hn', -⟩ := hnew
      omega
    · cases hd
      exact ⟨rfl, rfl, hnew⟩

/-- The keys of groups that were computed: each has a definition that binds its expression, and its
column is one of the keys. -/
structure GroupKeys.Defined (g : GroupKeys) (c : BindContext) (scope : Scope) (es : List Sql.Expr)
    (s s' : BindState) : Prop where
  coined : Coined s.names.exprs g.computed s'.names.exprs
  bound : ∀ entry ∈ g.computed, ∃ e ∈ es, e.key = entry.1 ∧ ∃ d ∈ g.hoisted,
    entry.2 = .column (.bare d.name) ∧ .bare d.name ∈ g.columns ∧
      ∃ s s', (scope.bindChecked e).start c s = (.ok d.expr, s')

theorem GroupKeys.yields_add {g : GroupKeys} {scope : Scope} (he : e ∈ es) (input : Schema)
    (hg : g.Defined c scope es s₀ s) :
    Yields (GroupKeys.add scope input g e) c s fun g' s' => g'.Defined c scope es s₀ s' := by
  refine .check fun _ => (scope.tame_bindChecked e).le.run.bind fun bound s₁ ⟨h₁, hrun⟩ =>
    (bound.yields_asColumn input).bind fun r s₂ ⟨h₂, hdefinition⟩ => ?_
  obtain ⟨column, definition⟩ := r
  have hcolumns : column :: g.columns ⊆
      if g.columns.contains column then g.columns else g.columns ++ [column] := by
    split
    next h => exact List.cons_subset.2 ⟨by simpa using h, List.Subset.refl _⟩
    next => simp
  cases definition with
  | none =>
    refine .pure ⟨hg.coined.later (Nat.le_trans h₁ h₂), fun entry hentry => ?_⟩
    obtain ⟨e', he', hkey, d', hd', hv, hcolumn, hbound⟩ := hg.bound entry hentry
    exact ⟨e', he', hkey, d', hd', hv, hcolumns (List.mem_cons_of_mem _ hcolumn), hbound⟩
  | some d =>
    obtain ⟨rfl, rfl, n, hn, hn', hv⟩ := hdefinition d rfl
    refine .pure ⟨(hg.coined.later h₁).append (.single hn hn' hv _), List.forall_mem_append.2
      ⟨fun entry hentry => ?_, List.forall_mem_singleton.2 ?_⟩⟩
    · obtain ⟨e', he', hkey, d', hd', hv, hcolumn, hbound⟩ := hg.bound entry hentry
      exact ⟨e', he', hkey, d', List.mem_append_left _ hd', hv,
        hcolumns (List.mem_cons_of_mem _ hcolumn), hbound⟩
    · exact ⟨e, he, rfl, d, List.mem_append_right _ List.mem_cons_self, rfl,
        hcolumns List.mem_cons_self, s, s₁, hrun⟩

namespace GroupInput

variable {g : GroupInput} {scope : Scope} {es : List Sql.Expr}
variable {call : Sql.Call Sql.Expr}

/-- The order within groups is that of a call. -/
def Ordered (g : GroupInput) (c : BindContext) (scope : Scope) (es : List Sql.Expr) : Prop :=
  ∀ order, g.withinGroup = some order → ∃ other : Sql.Call Sql.Expr, .call other ∈ es ∧
    other.orderKey = order.1 ∧ ∃ definitions s s',
      (scope.bindOrder scope.schema other.withinGroup).start c s = (.ok (order.2, definitions), s')

theorem yields_order (hcall : .call call ∈ es) (hg : g.Ordered c scope es) (f : AggregateFunction) :
    Yields (g.order scope f call) c s fun g' _ => g'.Ordered c scope es ∧
      g.hoisted ⊆ g'.hoisted ∧ (call.withinGroup = [] ∧ g' = g ∨
        f = .stringAgg ∧ ∃ keys, g'.withinGroup = some (call.orderKey, keys)) := by
  refine .ite (fun hnone => .pure ⟨hg, List.Subset.refl _, .inl ⟨by simpa using hnone, rfl⟩⟩)
    fun _ => .check fun hf => Yields.any.run.bind fun r s₁ ⟨_, hrun⟩ => ?_
  have hf : f = .stringAgg := by simpa using hf
  have hhoisted : g.hoisted ⊆ g.hoisted ++ r.2 := List.subset_append_left _ _
  dsimp only
  split
  next hnone =>
    refine .pure ⟨?_, hhoisted, .inr ⟨hf, r.1, rfl⟩⟩
    rintro _ ⟨⟩
    exact ⟨call, hcall, rfl, r.2, s, s₁, hrun⟩
  next other keys hsome =>
    refine .ite (fun htext => .pure ⟨hg, hhoisted, .inr ⟨hf, keys, ?_⟩⟩) fun _ => .throw
    rw [hsome, htext]
    rfl

theorem Ordered.takes {f : AggregateFunction} (hg : g.Ordered c scope es)
    (h : call.withinGroup = [] ∨ f = .stringAgg ∧ ∃ keys,
      g.withinGroup = some (call.orderKey, keys)) :
    call.Takes c scope es (if f = .stringAgg then g.keys else []) := by
  by_cases hf : f = .stringAgg
  · rw [if_pos hf]
    cases horder : g.withinGroup with
    | none =>
      obtain hnone | ⟨-, keys, hkeys⟩ := h
      · exact .inl ⟨hnone, by simp [keys, horder]⟩
      · simp [horder] at hkeys
    | some order =>
      obtain ⟨other, hother, hkey, hrun⟩ := hg order horder
      have hkeys : g.keys = order.2 := by simp [keys, horder]
      refine .inr ⟨other, hother, h.imp_right fun h => ?_, hkeys ▸ hrun⟩
      obtain ⟨-, keys, hown⟩ := h
      rw [hkey, Option.some.inj (horder.symm.trans hown)]
  · exact .inl ⟨h.resolve_right fun h => hf h.1, if_neg hf⟩

theorem yields_aggregate (hcall : .call call ∈ es) (hg : g.Ordered c scope es) :
    Yields (g.aggregate scope call) c s fun r s' => r.2.Ordered c scope es ∧
    g.hoisted ⊆ r.2.hoisted ∧
      r.1.Computes c scope es call ∧ (Scalar.column (.bare r.1.name)).New s s' := by
  refine .bind (.lift (Q := fun f s' => AggregateFunction.ofCall call = .ok f ∧
    s.names.exprs ≤ s'.names.exprs)
    fun f hf => ⟨hf, Nat.le_refl _⟩) fun f s₁ ⟨hf, h₁⟩ => .check fun _ => .check fun _ => ?_
  refine (Obeys.le (.mapM scope.tame_bindChecked _)).run.bind fun args s₂ ⟨h₂, hargs⟩ =>
    (Obeys.le (.optionMapM (fun _ => .lift (by simp)) _)).bind fun type s₃ h₃ =>
      le_lift.bind fun _ s₄ h₄ =>
    ((tame_order scope g f call).yields (yields_order hcall hg f)).bind
      fun g' s₅ ⟨⟨hg', hhoisted, horder⟩, h₅⟩ => yields_freshExpr.bind fun name s₆ hname => .pure ?_
  refine ⟨hg', hhoisted, ⟨hf, ⟨s₁, s₂, hargs⟩, rfl, ?_⟩, hname.widen (by omega) (Nat.le_refl _)⟩
  exact hg'.takes (horder.imp_left (·.1))

theorem yields_aggregates (hcalls : ∀ call ∈ calls, .call call ∈ es) (hg : g.Ordered c scope es) :
    Yields (g.aggregates scope calls) c s fun r s' =>
      g.hoisted ⊆ r.2.hoisted ∧ r.1.map (·.1) = calls.map
        (fun call => Sql.ExprOf.key (.call call)) ∧
      Coined s.names.exprs (r.1.map fun x => (x.1, .column (.bare x.2.name))) s'.names.exprs ∧
      ∀ x ∈ r.1, ∃ call : Sql.Call Sql.Expr, .call call ∈ es ∧ Sql.ExprOf.key (.call call) = x.1 ∧
        x.2.Computes c scope es call := by
  induction calls generalizing g s with
  | nil => exact .pure ⟨List.Subset.refl _, rfl, .nil (Nat.le_refl _), nofun⟩
  | cons call rest ih =>
    obtain ⟨hcall, hrest⟩ := List.forall_mem_cons.1 hcalls
    refine (yields_aggregate hcall hg).bind fun r s₁ ⟨hg', hhoisted, hcomputes, n, hn, hn', hv⟩ =>
      (ih hrest hg').bind fun r' s₂ ⟨hhoisted', hkeys, hcoined, hvalues⟩ => .pure ?_
    exact ⟨List.Subset.trans hhoisted hhoisted', congrArg _ hkeys,
      (Coined.single hn hn' hv _).append hcoined,
      List.forall_mem_cons.2 ⟨⟨call, hcall, rfl, hcomputes⟩, hvalues⟩⟩

end GroupInput

theorem Scope.foldl_addComputed (found : List (String × Scalar)) (scope : Scope) :
    found.foldl (fun scope entry => scope.addComputed entry.1 entry.2) scope =
      { scope with computed := found.reverse ++ scope.computed } := by
  induction found generalizing scope with
  | nil => rfl
  | cons entry rest ih =>
    rw [List.foldl_cons, ih]
    simp [addComputed]

theorem Plan.exists_grouped (p : Plan) (keys : List Column) (within : List SortKey)
    (values : List AggregateValue) : ∃ input spec, spec.values = values ∧
      (Plan.aggregate input spec).Inside (p.grouped keys within values) := by
  unfold grouped
  dsimp only
  split
  · exact ⟨_, _, rfl, .refl _⟩
  · exact ⟨_, _, rfl, .refl _⟩

theorem Plan.inside_define {p q : Plan} {values : List Definition} {d : Definition}
    (hd : d ∈ values) (h : (p.define values).Inside q) : (Plan.compute p values).Inside q := by
  rwa [define, if_neg (by simp [List.ne_nil_of_mem hd])] at h

theorem Block.grows_group {groupBy : List Sql.Expr} (hgroupBy : groupBy ⊆ es)
    (hcalls : ∀ call ∈ calls, .call call ∈ es) (k : Block) :
    Yields (k.group groupBy calls) c s fun k' s' => k.Grows b c es s k' s' ∧
      ∀ call ∈ calls, k'.scope.Knows (Sql.ExprOf.key (.call call)) := by
  refine .bind (.foldlM (fun g s' => g.Defined c k.scope es s s') ⟨.nil (Nat.le_refl _), nofun⟩
    fun g e he s' => GroupKeys.yields_add (hgroupBy he) _) fun keys s₁ hkeys => ?_
  refine (GroupInput.yields_aggregates hcalls (by simp [GroupInput.Ordered])).bind
    fun r s₂ ⟨hhoisted, htexts, hcoined, hvalues⟩ => .pure ?_
  have hscope := Scope.foldl_addComputed
    (keys.computed ++ r.1.map fun x => (x.1, Scalar.column (.bare x.2.name))) k.scope
  have hcomputed := congrArg (fun scope : Scope => scope.computed) hscope
  have hplan := (Plan.Inside.refl (k.plan.define r.2.hoisted)).grouped keys.columns r.2.keys
    (r.1.map (·.2))
  refine ⟨.add (((Plan.Inside.refl _).define _).trans hplan) (congrArg (·.tables) hscope)
    (congrArg (·.outer) hscope) rfl hcomputed (hkeys.coined.append hcoined)
    (List.forall_mem_append.2 ⟨fun entry hentry => ?_, List.forall_mem_map.2 fun x hx => ?_⟩),
    fun call hcall => ?_⟩
  · obtain ⟨e, he, hkey, d, hd, hv, -, _, _, hrun⟩ := hkeys.bound entry hentry
    exact ⟨e, he, hkey, hv ▸ .groupKey hrun (hhoisted hd) (Plan.inside_define (hhoisted hd) hplan)⟩
  · obtain ⟨call, hcall, hkey, hcomputes⟩ := hvalues x hx
    obtain ⟨input, spec, hspec, hgrouped⟩ :=
      (k.plan.define r.2.hoisted).exists_grouped keys.columns r.2.keys
      (r.1.map (·.2))
    exact ⟨.call call, hcall, hkey, .aggregate hcomputes (hspec ▸ List.mem_map_of_mem hx) hgrouped⟩
  · obtain ⟨x, hx, hkey⟩ := List.mem_map.1 (htexts ▸ List.mem_map_of_mem hcall)
    have hmem : (x.1, Scalar.column (.bare x.2.name)) ∈
        (keys.computed ++ r.1.map fun x => (x.1, Scalar.column (.bare x.2.name))).reverse ++
          k.scope.computed :=
      List.mem_append_left _
        (List.mem_reverse.2 (List.mem_append_right _ (List.mem_map.2 ⟨x, hx, rfl⟩)))
    exact ⟨_, hkey ▸ (congrArg (_ ∈ ·) hcomputed).mpr hmem⟩

end BatchPlan
