import BatchPlan.Proofs.Substitution.Clauses

namespace BatchPlan

open BindM

variable {c : BindContext} {st : BindState} {p : Progress} {clause : Block → BindM Block}
  {s : Sql.Select Sql.Query} {k : Block} {condition : Sql.Expr} {tail : QueryTail}

theorem ErrorLog.errors_of_finish {log : ErrorLog} (h : log.finish = .ok ()) : log.errors = [] := by
  unfold finish at h
  cases herrors : log.errors with
  | nil => rfl
  | cons e rest => cases rest <;> simp [herrors, PlanError.ofList?] at h

namespace Progress

def Clean (p : Progress) : Prop :=
  p.log.errors = []

/-- A clause after which there is no fault has succeeded, and there was no fault before it. -/
theorem yields_extend {Q : Block → BindState → Prop} (htame : Tame (clause p.block))
    (h : Yields (clause p.block) c st Q) :
    Yields (p.extend clause) c st fun p' st' => p'.Clean → p.Clean ∧
      ∃ k, Q k st' ∧ p'.block = k.withPlan k.plan := by
  refine .bind (.attempt (Q := fun r st' => (∀ k, r = .ok k → Q k st') ∧ Reasoned r)
    (h.mono fun k st' hk => ⟨fun _ heq => Except.ok.inj heq ▸ hk, reasoned_ok k⟩)
      fun e st' he => ?_) ?_
  · exact ⟨nofun, (htame.of_start c st _ st' he).2⟩
  · intro r st' ⟨hok, hreason⟩
    cases r with
    | ok k => exact .pure fun hclean => ⟨hclean, k, hok k rfl, rfl⟩
    | error e =>
      refine .pure fun hclean => absurd ?_ (hreason e rfl)
      exact (List.append_eq_nil_iff.1 hclean).2

theorem grows_extend {b : QueryBinder} {es : List Sql.Expr} {Q : Block → Prop}
    (htame : Tame (clause p.block))
    (h : Yields (clause p.block) c st fun k st' => p.block.Grows b c es st k st' ∧ Q k)
    (hQ : ∀ k, Q k → Q (k.withPlan k.plan)) :
    Yields (p.extend clause) c st fun p' st' => p'.Clean → p.Clean ∧
      p.block.Grows b c es st p'.block st' ∧ Q p'.block := by
  refine (yields_extend htame h).mono fun p' st' h hclean => ?_
  obtain ⟨hp, k, ⟨hgrows, hk⟩, hblock⟩ := h hclean
  rw [hblock]
  exact ⟨hp, hgrows.renewed, hQ k hk⟩

theorem yields_abandon {α : Type} {Q : α → BindState → Prop} : Yields (p.abandon s tail) c st Q :=
  Yields.any.bind fun _ _ _ => .throw

end Progress

section

variable {outputs : List OutputColumn} {distinct : Bool}

theorem Sql.Top.yields_bind (t : Sql.Top Sql.Query) (tail : QueryTail) (plan : Plan) :
    Yields (t.bind tail plan) c st fun plan' _ => plan.Inside plan' :=
  .check fun _ => .check fun _ => Yields.any.bind fun _ _ _ =>
    .pure ((Plan.Inside.refl plan).above rfl)

theorem QueryTail.yields_limitRows (t : QueryTail) (plan : Plan) :
    Yields (t.limitRows plan) c st fun plan' _ => plan.Inside plan' := by
  refine .ite (fun _ => .pure (.refl plan)) fun _ => ?_
  split
  · exact .throw
  · exact Yields.any.bind fun _ _ _ => Yields.any.bind fun _ _ _ =>
      .pure ((Plan.Inside.refl plan).above rfl)

variable (b : QueryBinder) (es : List Sql.Expr)

theorem Sql.Select.grows_limitRows (s : Sql.Select Sql.Query) (tail : QueryTail) (k : Block) :
    Yields (s.limitRows tail k) c st (k.Grows b c es st) := by
  refine ((s.tame_limitRows tail k).yields (Q := fun k' _ => ∃ plan, k.plan.Inside plan ∧
    k' = k.withPlan plan) ?_).mono ?_
  · unfold limitRows
    split
    · exact (Sql.Top.yields_bind _ _ _).bind fun plan _ hplan => .pure ⟨plan, hplan, rfl⟩
    · exact .check fun _ => (tail.yields_limitRows _).bind fun plan _ hplan =>
        .pure ⟨plan, hplan, rfl⟩
  · rintro _ st' ⟨⟨plan, hplan, rfl⟩, h⟩
    exact .withPlan hplan h

/-- The keys of an order are bound at a block, and its rows are in that order. -/
def Block.Sorts (k : Block) (c : BindContext) (items : List (Sql.OrderItem Sql.Expr))
    (outputs : List OutputColumn) (distinct : Bool) (root : Plan) : Prop :=
  ∃ keys s s', (items.mapM (k.scope.bindSortKey outputs distinct)).start c s = (.ok keys, s') ∧
    ((k.plan.define (keys.filterMap (·.2))).ordered (keys.map (·.1))).Inside root

theorem Block.Sorts.mono {items : List (Sql.OrderItem Sql.Expr)} {p q : Plan}
    (h : k.Sorts c items outputs distinct p) (hp : p.Inside q) :
    k.Sorts c items outputs distinct q := by
  obtain ⟨keys, s, s', hrun, hroot⟩ := h
  exact ⟨keys, s, s', hrun, hroot.trans hp⟩

theorem Block.grows_orderBy (k : Block) (items : List (Sql.OrderItem Sql.Expr))
    (outputs : List OutputColumn)
    (distinct : Bool) : Yields (k.orderBy items outputs distinct) c st fun k' st' =>
      k.Grows b c es st k' st' ∧ k.Sorts c items outputs distinct k'.plan := by
  refine (Obeys.le (.mapM (k.scope.tame_bindSortKey outputs distinct) items)).run.bind
    fun keys st' ⟨h, hrun⟩ => .pure ⟨.withPlan ?_ h, keys, st, st', hrun, .refl _⟩
  exact ((Plan.Inside.refl k.plan).define _).ordered _

theorem QueryBinder.clean_deduplicated : (deduplicated p outputs distinct).Clean ↔ p.Clean := by
  unfold deduplicated
  split <;> rfl

theorem QueryBinder.exists_deduplicated {plan : Plan} (hp : p.block = k.withPlan plan)
    (outputs : List OutputColumn) (distinct : Bool) :
    ∃ rows, (deduplicated p outputs distinct).block = k.withPlan rows := by
  unfold deduplicated
  rw [hp]
  split
  · exact ⟨_, rfl⟩
  · exact ⟨plan, hp⟩

theorem QueryBinder.grows_deduplicated (p : Progress) (outputs : List OutputColumn)
    (distinct : Bool) : p.block.Grows b c es st (deduplicated p outputs distinct).block st := by
  unfold deduplicated
  split
  · exact .withPlan ((Plan.Inside.refl _).above rfl) (Nat.le_refl _)
  · exact .refl

end

/-- A condition on the rows that stay is bound at a block, and the rows are filtered there. -/
structure Block.Tests (k : Block) (c : BindContext) (condition : Sql.Expr) (root : Plan) :
    Prop where
  filter : ∃ predicate s s', (k.scope.bindPredicate condition).start c s = (.ok predicate, s') ∧
    (Plan.filter k.plan predicate).Inside root
  subqueries : ∀ part ∈ condition.subqueryParts, k.scope.Knows part.key

theorem Block.Tests.mono {p q : Plan} (h : k.Tests c condition p) (hp : p.Inside q) :
    k.Tests c condition q := by
  obtain ⟨⟨predicate, s, s', hrun, hroot⟩, hknows⟩ := h
  exact ⟨⟨predicate, s, s', hrun, hroot.trans hp⟩, hknows⟩

namespace QueryBinder

variable {b : QueryBinder} (hb : b.IsTame) {es : List Sql.Expr}

include hb

theorem grows_restrict (hes : condition.subqueryParts ⊆ es) (k : Block) :
    Yields (b.restrict condition k) c st fun k' st' => ∃ k₁ st₁, k.Grows b c es st k₁ st₁ ∧
      k₁.Grows b c es st₁ k' st' ∧ k₁.Tests c condition k'.plan := by
  have hes : ∀ e ∈ [condition], e.subqueryParts ⊆ es := List.forall_mem_singleton.2 hes
  refine (grows_subqueries hb [condition] hes k).bind fun k₁ st₁ ⟨hgrows, hknows⟩ =>
    (k₁.scope.tame_bindPredicate condition).le.run.bind fun predicate st₂ ⟨h₂, hrun⟩ => .pure ?_
  refine ⟨k₁, st₁, hgrows, .withPlan ((Plan.Inside.refl _).above rfl) h₂, ?_⟩
  exact ⟨⟨predicate, st₁, st₂, hrun, .refl _⟩, by simpa using hknows⟩

theorem grows_filtering (s : Sql.Select Sql.Query) (tail : QueryTail) (p : Progress) :
    Yields (b.filtering s p) c st fun p' st' => p'.Clean → p.Clean ∧
      p.block.Grows b c (s.computedParts tail) st p'.block st' := by
  unfold filtering
  split
  next condition hcondition =>
    have hes : condition.subqueryParts ⊆ s.computedParts tail :=
      Sql.Select.subqueryParts_subset (Sql.Select.mem_clauses.2 (.inl hcondition))
    refine (p.yields_extend (tame_whereClause hb condition _)
      (.check fun _ => grows_restrict hb hes p.block)).mono fun p' st' h hclean => ?_
    obtain ⟨hp, k, ⟨k₁, st₁, hgrows, hgrows', -⟩, hblock⟩ := h hclean
    exact ⟨hp, hblock ▸ (hgrows.trans hgrows').renewed⟩
  · exact .pure fun hclean => ⟨hclean, .refl⟩

omit hb in
theorem grows_grouped (s : Sql.Select Sql.Query) (tail : QueryTail) (k : Block) :
    Yields (k.group s.groupBy (s.aggregates tail.exprs)) c st fun k' st' =>
      k.Grows b c (s.computedParts tail) st k' st' ∧
      ∀ e ∈ s.exprs ++ s.having.toList ++ tail.exprs, ∀ part ∈ e.aggregateParts,
        k'.scope.Knows part.key := by
  refine (k.grows_group (List.subset_append_left _ _) fun _ =>
    Sql.Select.call_mem_computedParts).mono
    fun k' st' ⟨hgrows, hcalls⟩ => ⟨hgrows, fun e he part hpart => ?_⟩
  obtain ⟨call, hcall, hkey⟩ := Sql.exists_call_of_part he hpart
  exact hkey ▸ hcalls call hcall

/-- After grouping every aggregate has a value, and so it had when the condition on groups was
bound. -/
theorem grows_grouping (s : Sql.Select Sql.Query) (tail : QueryTail) (p : Progress) :
    Yields (b.grouping s tail p) c st fun p' st' => p'.Clean → p.Clean ∧
      p.block.Grows b c (s.computedParts tail) st p'.block st' ∧
      (∀ e ∈ s.exprs ++ tail.exprs, ∀ part ∈ e.aggregateParts, p'.block.scope.Knows part.key) ∧
      ∀ condition ∈ s.having, ∃ k₁ st₁, p.block.Grows b c (s.computedParts tail) st k₁ st₁ ∧
        k₁.Grows b c (s.computedParts tail) st₁ p'.block st' ∧ k₁.Tests c condition p'.block.plan ∧
        ∀ part ∈ condition.aggregateParts, k₁.scope.Knows part.key := by
  refine .bind (.lift (Q := fun groups st' => s.groups tail.exprs = .ok groups ∧ st = st')
    fun groups h => ⟨h, rfl⟩) ?_
  rintro groups _ ⟨hgroups, rfl⟩
  refine .ite (fun hnot => .pure fun hclean => ?_) fun _ => ?_
  · obtain rfl : groups = false := by simpa using hnot
    obtain ⟨hhaving, hnone⟩ := Sql.Select.not_grouped hgroups
    exact ⟨hclean, .refl, fun e he => by simp [hnone e he], by simp [hhaving]⟩
  refine .bind (.attempt (Q := fun r st' => ∀ k, r = .ok k →
    p.block.Grows b c (s.computedParts tail) st k st' ∧
      ∀ e ∈ s.exprs ++ s.having.toList ++ tail.exprs, ∀ part ∈ e.aggregateParts,
        k.scope.Knows part.key)
    ((grows_grouped s tail p.block).mono fun k st' h _ heq => Except.ok.inj heq ▸ h)
      fun _ _ _ => nofun)
    fun r st₁ hr => ?_
  cases r with
  | error e => exact Progress.yields_abandon
  | ok k =>
    obtain ⟨hgrows, hknows⟩ := hr k rfl
    have houtput : ∀ e ∈ s.exprs ++ tail.exprs, ∀ part ∈ e.aggregateParts, k.scope.Knows part.key :=
      fun e he => hknows e (by simp only [List.mem_append] at he ⊢; exact he.imp_left .inl)
    dsimp only
    split
    next condition hcondition =>
      have hes : condition.subqueryParts ⊆ s.computedParts tail :=
        Sql.Select.subqueryParts_subset (Sql.Select.mem_clauses.2 (.inr (.inl hcondition)))
      refine (Progress.yields_extend (tame_restrict hb condition _) (grows_restrict hb hes _)).mono
        fun p' st' h hclean => ?_
      obtain ⟨hp, k', ⟨k₁, st₂, hgrows₁, hgrows₂, htests⟩, hblock⟩ := h hclean
      have hfirst := hgrows.renewed.trans hgrows₁
      have hlast := hgrows₂.renewed
      rw [hblock]
      refine ⟨hp, hfirst.trans hlast, fun e he part hpart => ?_, fun condition' hcondition' => ?_⟩
      · exact (hgrows₁.trans hlast).knows (houtput e he part hpart)
      · cases hcondition.symm.trans hcondition'
        refine ⟨k₁, st₂, hfirst, hlast, htests, fun part hpart =>
          hgrows₁.knows (hknows condition ?_ part hpart)⟩
        simp [hcondition]
    next hnone =>
      exact .pure fun hclean => ⟨hclean, hgrows.renewed, houtput, by simp [hnone]⟩

omit hb in
variable (b es) in
theorem grows_project (s : Sql.Select Sql.Query) (tail : QueryTail) (p : Progress) :
    Yields (project p s tail) c st fun r st' => r.1.Clean → p.Clean ∧
    p.block.Grows b c es st r.1.block st' ∧
      ∃ values, r.1.block = p.block.withPlan (p.block.plan.define values) ∧
        (p.block.scope.bindItems s.items).start c st = (.ok (values, r.2), st') := by
  refine .bind (.attempt (Q := fun r st' => ∀ a, r = .ok a → st.names.exprs ≤ st'.names.exprs ∧
    (p.block.scope.bindItems s.items).start c st = (.ok a, st'))
    ((p.block.scope.tame_bindItems s.items).le.run.mono
      fun a st' h _ heq => Except.ok.inj heq ▸ h) fun _ _ _ => nofun) fun r st' hr => ?_
  cases r with
  | error e => exact Yields.any.bind fun _ _ _ => Progress.yields_abandon
  | ok bound =>
    obtain ⟨h, hrun⟩ := hr bound rfl
    exact .pure fun hclean => ⟨hclean, .withPlan ((Plan.Inside.refl _).define _) h,
      bound.1, rfl, hrun⟩

omit hb in
variable (b es) in
theorem grows_ordering (p : Progress) (tail : QueryTail) (outputs : List OutputColumn)
    (distinct : Bool) :
    Yields (ordering p tail outputs distinct) c st fun p' st' => p'.Clean → p.Clean ∧
      p.block.Grows b c es st p'.block st' ∧
      (tail.orderBy ≠ [] → p.block.Sorts c tail.orderBy outputs distinct p'.block.plan) := by
  refine .ite (fun hnone => .pure fun hclean =>
    ⟨hclean, .refl, fun h => (h (by simpa using hnone)).elim⟩)
    fun _ => (p.grows_extend (p.block.tame_orderBy _ _ _) (p.block.grows_orderBy b es _ _ _)
      fun _ h => h).mono fun p' st' h hclean => ?_
  obtain ⟨hp, hgrows, hkeys⟩ := h hclean
  exact ⟨hp, hgrows, fun _ => hkeys⟩

omit hb in
theorem yields_start (s : Sql.Select Sql.Query) (outer : List Level) : Yields (b.start s outer) c st
    fun k _ => k.scope.computed = [] ∧ k.Sees k.scope :=
  Yields.any.bind fun _ _ _ => .pure ⟨rfl, rfl, rfl, rfl⟩

/-- A block that is bound without a fault: its sources, the rows that its output reads, and its
plan. -/
structure Stages (b : QueryBinder) (c : BindContext) (s : Sql.Select Sql.Query) (tail : QueryTail)
    (outer : List Level) (plan : QueryPlan) (first out last : Block) (s₀ s₁ s₂ : BindState) :
    Prop where
  start : ∃ st, (b.start s outer).start c st = (.ok first, s₀)
  output : first.Grows b c (s.computedParts tail) s₀ out s₁
  rest : out.Grows b c (s.computedParts tail) s₁ last s₂
  root : last.plan = plan.root
  items : ∃ values st st', (out.scope.bindItems s.items).start c st =
    (.ok (values, plan.columns), st') ∧ (out.plan.define values).Inside plan.root
  order : tail.orderBy ≠ [] → ∃ rows, (out.withPlan rows).Sorts c tail.orderBy plan.columns
    (s.distinct.any Sql.Distinct.isRows) plan.root
  parts : ∀ e ∈ s.exprs ++ tail.exprs, ∀ part ∈ e.computedParts, out.scope.Knows part.key
  having : ∀ condition ∈ s.having, ∃ k st, first.Grows b c (s.computedParts tail) s₀ k st ∧
    k.Grows b c (s.computedParts tail) st last s₂ ∧ k.Tests c condition plan.root ∧
    ∀ part ∈ condition.aggregateParts, k.scope.Knows part.key

theorem exists_stages (s : Sql.Select Sql.Query) (tail : QueryTail) (outer : List Level) :
    Yields (b.block s tail outer) c st fun plan _ => ∃ first out last s₀ s₁ s₂,
      Stages b c s tail outer plan first out last s₀ s₁ s₂ := by
  have hclause {e : Sql.Expr} (he : e ∈ s.exprs ++ tail.exprs) : e ∈ s.clauses tail :=
    Sql.Select.mem_clauses.2 (.inr (.inr (List.mem_append.1 he)))
  refine Yields.any.run.bind fun first s₀ ⟨_, hstart⟩ =>
    (grows_filtering hb s tail _).bind fun p₁ s₁ h₁ =>
    (grows_grouping hb s tail p₁).bind fun p₂ s₂ h₂ =>
    (p₂.grows_extend (tame_subqueries hb _ _) (grows_subqueries hb _
      (fun e he => Sql.Select.subqueryParts_subset (hclause he)) _) fun _ h => h).bind
        fun p₃ s₃ h₃ =>
    (p₃.grows_extend (p₃.block.tame_windows _) (p₃.block.grows_windows b _
      fun e he => Sql.Select.windowParts_subset (hclause he)) fun _ h => h).bind fun p₄ s₄ h₄ =>
    (grows_project b (s.computedParts tail) s tail p₄).bind fun r s₅ h₅ =>
    (grows_ordering b (s.computedParts tail) _ tail r.2 _).bind fun p₆ s₆ h₆ =>
    (p₆.yields_extend (s.tame_limitRows tail _)
      (s.grows_limitRows b (s.computedParts tail) tail _)).bind
      fun p₇ s₇ h₇ =>
    .bind (.lift (Q := fun _ _ => p₇.Clean) fun _ => ErrorLog.errors_of_finish)
      fun _ s₈ h₈ => .pure ?_
  -- No fault at the end means none in any clause, so that every clause has succeeded.
  obtain ⟨h₆', k₇, hgrows₇, hblock₇⟩ := h₇ h₈
  obtain ⟨h₅', hgrows₆, horder⟩ := h₆ h₆'
  obtain ⟨h₄', hgrows₅, values, hblock₅, hitems⟩ := h₅ (clean_deduplicated.1 h₅')
  obtain ⟨h₃', hgrows₄, hwindows⟩ := h₄ h₄'
  obtain ⟨h₂', hgrows₃, hsubqueries⟩ := h₃ h₃'
  obtain ⟨h₁', hgrows₂, haggregates, hhaving⟩ := h₂ h₂'
  obtain ⟨-, hgrows₁⟩ := h₁ h₁'
  have hlimit : p₆.block.Grows b c (s.computedParts tail) s₆ p₇.block s₇ :=
    hblock₇ ▸ hgrows₇.renewed
  have htop : r.1.block.Grows b c (s.computedParts tail) s₅ p₇.block s₇ :=
    (grows_deduplicated b _ _ _ _).trans (hgrows₆.trans hlimit)
  have houtput := hgrows₃.trans hgrows₄
  have hlast := hgrows₅.trans htop
  have hrest := houtput.trans hlast
  refine ⟨first, p₄.block, p₇.block, s₀, s₄, s₇, ⟨st, hstart⟩,
    (hgrows₁.trans hgrows₂).trans houtput,
    hlast, rfl, ⟨values, s₄, s₅, hitems, ?_⟩, fun hne => ?_, fun e he part hpart =>
      ?_, fun condition hcondition => ?_⟩
  · have hplan := htop.plan
    rwa [hblock₅] at hplan
  · obtain ⟨rows, hrows⟩ := exists_deduplicated hblock₅ r.2 (s.distinct.any Sql.Distinct.isRows)
    exact ⟨rows, hrows ▸ (horder hne).mono hlimit.plan⟩
  · obtain hpart | hpart := List.mem_append.1 hpart
    · obtain hpart | hpart := List.mem_append.1 hpart
      · exact houtput.knows (haggregates e he part hpart)
      · exact hwindows e he part hpart
    · exact hgrows₄.knows (hsubqueries e he part hpart)
  · obtain ⟨k, st₁, hgrows, hgrows', htests, hknows⟩ := hhaving condition hcondition
    exact ⟨k, st₁, hgrows₁.trans hgrows, hgrows'.trans hrest, htests.mono hrest.plan, hknows⟩

omit hb in
theorem Stages.exists_having {outer : List Level} {plan : QueryPlan} {first out last : Block}
    {s₀ s₁ s₂ : BindState} (h : Stages b c s tail outer plan first out last s₀ s₁ s₂) : ∃ k s',
      first.Grows b c (s.computedParts tail) s₀ k s' ∧ k.scope.computed ⊆ last.scope.computed ∧
      ∀ condition ∈ s.having, k.Tests c condition plan.root ∧
        ∀ part ∈ condition.aggregateParts, k.scope.Knows part.key := by
  cases hhaving : s.having with
  | none => exact ⟨out, s₁, h.output, h.rest.subset, by simp⟩
  | some condition =>
    obtain ⟨k, s', hgrows, hgrows', htests, hknows⟩ := h.having condition hhaving
    refine ⟨k, s', hgrows, hgrows'.subset, fun condition' hcondition => ?_⟩
    cases Option.some.inj hcondition
    exact ⟨htests, hknows⟩

end QueryBinder

/-- A value stands for an expression in one of two places. -/
def Scope.Replaces (output having : Scope) (e : Sql.Expr) (v : Scalar) : Prop :=
  output.computed? e = some v ∨ having.computed? e = some v

/-- What stands for parts of expressions in a block whose sources are called as in `base`. The
select list and the order are bound at one place, and the condition on groups at another. Each
aggregate, windowed call and subquery is replaced there. What stands for an expression comes from
lowering an expression of the block whose text differs in the case of letters at most. The first
column of a value is its own: no other text has it. -/
structure Sql.Select.Substitutes (s : Sql.Select Sql.Query) (tail : QueryTail)
    (b : QueryBinder) (c : BindContext)
    (base : Scope) (output having : Block) (plan : QueryPlan) : Prop where
  outputNames : output.Sees base
  havingNames : having.Sees base
  items : ∃ values st st', (output.scope.bindItems s.items).start c st =
    (.ok (values, plan.columns), st') ∧ (output.plan.define values).Inside plan.root
  order : tail.orderBy ≠ [] → ∃ rows, (output.withPlan rows).Sorts c tail.orderBy plan.columns
    (s.distinct.any Sql.Distinct.isRows) plan.root
  condition : ∀ e ∈ s.having, ∃ predicate st st', (having.scope.bindPredicate e).start c st =
    (.ok predicate, st') ∧ (Plan.filter having.plan predicate).Inside plan.root
  outputParts : ∀ e ∈ s.exprs ++ tail.exprs, ∀ part ∈ e.computedParts, ∃ v,
    output.scope.computed? part = some v ∧ ∀ st, (output.scope.bind part).start c st = (.ok v, st)
  -- A windowed call has no value yet where HAVING is bound.
  havingParts : ∀ e ∈ s.having, ∀ part ∈ e.aggregateParts ++ e.subqueryParts, ∃ v,
    having.scope.computed? part = some v ∧ ∀ st, (having.scope.bind part).start c st = (.ok v, st)
  lowered : ∀ e v, output.scope.Replaces having.scope e v → ∃ e' ∈ s.computedParts tail,
    Text.lower e'.text = Text.lower e.text ∧ Lowered b c (s.computedParts tail) base plan.root e' v
  apart : ∀ e e' v v', output.scope.Replaces having.scope e v →
    output.scope.Replaces having.scope e' v' →
    v.columns.head? = v'.columns.head? → Text.lower e.text = Text.lower e'.text

theorem Scope.exists_of_knows {scope : Scope} {e : Sql.Expr} (h : scope.Knows e.key) :
    ∃ v, scope.computed? e = some v ∧ ∀ st, (scope.bind e).start c st = (.ok v, st) := by
  obtain ⟨v, hv⟩ := Option.isSome_iff_exists.1 (knows_iff.1 h)
  exact ⟨v, hv, fun _ => start_bind_computed hv⟩

namespace QueryBinder

/-- Every aggregate, windowed call and subquery of a block is replaced by a value that lowering an
expression of the block gave, up to the case of letters in the whole of its text. -/
theorem block_substitutes {depth : Nat} {s : Sql.Select Sql.Query} {tail : QueryTail}
    {outer : List Level} {st' : BindState} {plan : QueryPlan}
    (h : ((ofDepth depth).block s tail outer).start c st = (.ok plan, st')) :
    ∃ base output having, (∃ rows st₁ st₂, ((ofDepth depth).start s outer).start c st₁ =
      (.ok ⟨rows, base⟩, st₂)) ∧ s.Substitutes tail (ofDepth depth) c base output having plan := by
  obtain ⟨first, out, last, s₀, s₁, s₂, hstages⟩ :=
    exists_stages (isTame_ofDepth depth) s tail outer plan st' h
  obtain ⟨st₀, hstart⟩ := hstages.start
  obtain ⟨hnone, hsees⟩ := yields_start s outer first s₀ hstart
  obtain ⟨k, s', hhaving, hsubset, htests⟩ := hstages.exists_having
  have hgrows := hstages.output.trans hstages.rest
  have hfirst : first.Faithful (ofDepth depth) c (s.computedParts tail) first.scope :=
    ⟨hsees, by simp [hnone]⟩
  have hmem {e : Sql.Expr} {v : Scalar} (hv : out.scope.Replaces k.scope e v) :
      (e.key, v) ∈ last.scope.computed :=
    hv.elim (fun hv => hstages.rest.subset (Scope.mem_of_computed? hv)) fun hv =>
      hsubset (Scope.mem_of_computed? hv)
  refine ⟨first.scope, out, k, ⟨first.plan, st₀, s₀, hstart⟩,
    (hstages.output.faithful _ hfirst).toSees,
    (hhaving.faithful _ hfirst).toSees, hstages.items, hstages.order,
    fun e he => ?_, fun e he part hpart => Scope.exists_of_knows (hstages.parts e he part hpart),
    fun e he part hpart => Scope.exists_of_knows ?_, fun e v hv =>
      ?_, fun e e' v v' hv hv' hcolumn => ?_⟩
  · exact (htests e he).1.filter
  · obtain hpart | hpart := List.mem_append.1 hpart
    · exact (htests e he).2 part hpart
    · exact (htests e he).1.subqueries part hpart
  · exact hstages.root ▸ (hgrows.faithful _ hfirst).computed _ (hmem hv)
  · exact hgrows.key_eq_of_column hnone (hmem hv) (hmem hv') hcolumn

def accounts : BindContext :=
  { catalog :=
    { entities := [(Entity.new "account" "accountid").withAttribute
      { name := "name", type := .string }] },
    options := {} }

def blockOf? (text : String) : Option (Sql.Select Sql.Query × QueryTail) :=
  match Sql.parseStatement text with
  | .ok (.query q) => match q.body with
    | .select s => some (s, .ofQuery q)
    | _ => none
  | _ => none

def queryOf? (text : String) : Option Sql.Query :=
  match Sql.parseStatement text with
  | .ok (.query q) => some q
  | _ => none

def accountPlan? (block : Sql.Select Sql.Query × QueryTail) : Option QueryPlan :=
  (((ofDepth 2).block block.1 block.2 []).start accounts { session := .empty }).1.toOption

def groupedAccounts : String :=
  "SELECT name, MAX('A') AS m, (SELECT 1) AS n FROM account GROUP BY name HAVING COUNT(*) > " ++
  "1 ORDER BY MAX('A')"

theorem groupedAccounts_substitutes : ∃ s tail plan st', blockOf? groupedAccounts = some (s, tail) ∧
    ((ofDepth 2).block s tail []).start accounts { session := .empty } = (.ok plan, st') ∧
    ∃ base output having, (∃ rows st₁ st₂, ((ofDepth 2).start s []).start accounts st₁ =
      (.ok ⟨rows, base⟩, st₂)) ∧
      s.Substitutes tail (ofDepth 2) accounts base output having plan := by
  have hplan : ((blockOf? groupedAccounts).bind accountPlan?).isSome := by decide +kernel
  obtain ⟨plan, hplan⟩ := Option.isSome_iff_exists.1 hplan
  obtain ⟨block, hblock, hplan⟩ := Option.bind_eq_some_iff.1 hplan
  cases hrun : ((ofDepth 2).block block.1 block.2 []).start accounts { session := .empty } with
  | mk r st' =>
    rw [accountPlan?, hrun] at hplan
    cases r with
    | error e => cases hplan
    | ok plan' => exact ⟨block.1, block.2, plan', st', hblock, hrun, block_substitutes hrun⟩

/-- A text in capitals and the same one in small letters are not told apart: two calls share one
column, and the text of the second is aggregated nowhere. -/
theorem letterCase_not_kept :
    ((blockOf? "SELECT MAX('A') AS u, MAX('a') AS l FROM account").bind accountPlan?).map
      (fun plan => (plan.columns, plan.root.operators.map Plan.heading)) =
    some ([⟨"u", .bare "Expr1"⟩, ⟨"l", .bare "Expr1"⟩],
      ["Stream Aggregate: group_by=[], aggs=[Expr1 = MAX('A')]",
        "Scan: account AS account [accountid, name]"]) := by
  decide +kernel

end QueryBinder

end BatchPlan
