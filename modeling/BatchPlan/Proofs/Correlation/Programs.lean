import BatchPlan.Proofs.Binding.Programs
import BatchPlan.Proofs.Correlation.Booking

namespace BatchPlan

variable {b : QueryBinder}

def RootNode.params (node : RootNode) : List String :=
  node.plan?.toList.flatMap (·.root.params)

section

variable {w : Bookings}

theorem RootNode.params_subset {node : RootNode} {plan : QueryPlan} (h : node.plan? = some plan)
    (hplan : plan.root.params ⊆ w.params) : node.params ⊆ w.params := by
  rw [params, h]
  simpa using hplan

theorem QueryPlan.books_finish {a : Bookings} {q : QueryPlan} (hints : Hints)
    (hq : a ≤ w ∧ q.root.params ⊆ w.params) :
    Advances Bookings.Fits w (q.finish hints) fun plan w' => a ≤ w' ∧
    plan.root.params ⊆ w'.params := by
  refine QueryPlan.holds_finish (L := .correlation) hints fun o root hroot => ⟨hq.1, ?_⟩
  rw [hroot.params_eq]
  exact hq.2

end

def Bookings.none : Bookings where
  allowed _ _ := False
  rows := []
  lists := []

theorem Bookings.eq_nil_of_none_le {w : Bookings} (h : none ≤ w) :
    w.lists = [] ∧ w.params = [] := by
  have hlists : w.lists = [] := List.eq_nil_of_length_eq_zero h.2.2.length
  exact ⟨hlists, by rw [params, hlists, h.2.1]; rfl⟩

theorem concludes_params (hb : Logic.correlation.Binds b) :
    Concludes b Bookings.Fits (fun w q => q.root.params ⊆ w.params)
      (fun w node => node.params ⊆ w.params) (·.captured = []) (·.params = []) where
  same _ hcaptured hs := ⟨hs.rows, hcaptured.trans hs.lists⟩
  later hw hq := List.Subset.trans hq (Bookings.params_later hw)
  bare h := by simp [RootNode.params, h]
  plan hq hnode := RootNode.params_subset hnode hq
  draft hints h := by
    refine Advances.mono (QueryBinder.holds_finishedDraft (L := .correlation)
      Logic.roams_correlation hb QueryPlan.books_finish InsertTarget.stays_find hints h) ?_
    rintro _ w' - ⟨root, plan, hroot, rfl, hplan⟩
    exact RootNode.params_subset (hroot.plan? plan) hplan.2
  value e := Advances.mono (QueryBinder.holds_value (L := .correlation) Logic.roams_correlation hb
    QueryPlan.books_finish e) fun _ _ _ h => h.2
  condition e := Advances.mono (QueryBinder.holds_condition (L := .correlation)
    Logic.roams_correlation hb QueryPlan.books_finish e) fun _ _ _ h => h.2
  throw args := Advances.mono (holds_bindThrow (L := .correlation) args) fun _ _ _ h => h.2
  idle h := h
  begins hc hs := by
    refine ⟨.none, ⟨by simp [BindContext.rowParams, hc], hs⟩, fun w' hw => ?_⟩
    obtain ⟨hlists, hparams⟩ := Bookings.eq_nil_of_none_le hw
    exact ⟨fun _ hs' => hs'.lists.trans hlists, fun _ hnode => List.subset_nil.1 (hparams ▸ hnode)⟩

/-- No query is being bound, and all plans so far set what they read. -/
abbrev Assembly.IsClosed (a : Assembly) : Prop :=
  a.Says (·.captured = []) (·.params = [])

theorem respects_isClosed (hb : Logic.correlation.Binds b) :
    Respects b (·.recursive = []) fun a a' => a.IsClosed → a'.IsClosed :=
  (concludes_params hb).respects

theorem BuildInput.captured_start {i : BuildInput} {state : BindState} (h : i.start = .ok state) :
    state.captured = [] :=
  (concludes_params (QueryBinder.binds_ofDepth Logic.roams_correlation 0)).idle_start h

/-- The plans of a program read no parameter from outside: a parameter that is read anywhere in a
plan is set by a join, on the way from there to the top, that has the place on its right. -/
theorem build_sets_params (i : BuildInput) (sql : String) (roots : List Root)
    (h : i.build sql = .ok roots) (root : Root) (hroot : root ∈ roots) (plan : QueryPlan)
    (hplan : root.node.plan? = some plan) :
    plan.root.params = [] ∧ ∀ bound q e param type, Plan.Stands bound plan.root q →
      e ∈ q.expressions → Scalar.outer param type ∈ e.parts → param ∈ bound := by
  obtain ⟨commands, state, -, hstart, hfinish⟩ := BuildInput.exists_of_build h
  obtain ⟨-, rfl⟩ := Assembly.errors_of_finish hfinish
  have hempty : ({ state } : Assembly).IsClosed := ⟨BuildInput.captured_start hstart, by simp⟩
  have hclosed :=
    ((respects_isClosed (QueryBinder.binds_ofDepth Logic.roams_correlation
      (sql.length + 1))).leads_assembleAll
    {} commands).after { catalog := i.catalog, options := i.options } { state } rfl hempty
  have hparams : plan.root.params = [] := by
    simpa [RootNode.params, hplan] using hclosed.roots root hroot
  refine ⟨hparams, fun bound q e param type hq he hpart => ?_⟩
  have hparam : param ∈ e.params := List.mem_filterMap.2 ⟨_, hpart, rfl⟩
  exact (hq.mem_params he hparam).resolve_right (by simp [hparams])

def twiceCorrelated : String :=
  "SELECT a.k FROM t a WHERE a.k NOT IN (SELECT b.k FROM t b WHERE EXISTS " ++
    "(SELECT c.k FROM t c WHERE c.k = a.k AND c.k = b.k))"

def singleEntity : BuildInput where
  catalog := { entities := [.new "t" "k"] }
  options := { insertSpools := false }

theorem twiceCorrelated_sets_params :
    ∃ roots root plan, singleEntity.build twiceCorrelated = .ok roots ∧ root ∈ roots ∧
      root.node.plan? = some plan ∧
      (∃ q ∈ plan.root.operators, ∃ e ∈ q.expressions, e.params ≠ []) ∧
      plan.root.params = [] ∧ ∀ bound q e param type, Plan.Stands bound plan.root q →
        e ∈ q.expressions → Scalar.outer param type ∈ e.parts → param ∈ bound := by
  have hreads : ((singleEntity.build twiceCorrelated).toOption.any
    fun roots => roots.any fun root =>
      root.node.plan?.any fun plan => plan.root.operators.any fun q =>
        q.expressions.any fun e => !e.params.isEmpty) := by
    decide +kernel
  obtain ⟨roots, hroots, hread⟩ := exists_ok_of_any hreads
  obtain ⟨root, hroot, hread⟩ := List.any_eq_true.1 hread
  obtain ⟨plan, hplan, hread⟩ := (Option.any_eq_true _ _).1 hread
  refine ⟨roots, root, plan, hroots, hroot, hplan, ?_,
    build_sets_params singleEntity twiceCorrelated roots hroots root hroot plan hplan⟩
  simpa using hread

end BatchPlan
