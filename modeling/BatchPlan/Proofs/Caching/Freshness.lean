import BatchPlan.Proofs.Typing.Programs

namespace BatchPlan

variable {p : Plan}

namespace Plan

def isStale : Plan → Bool
  | .spool _ rows _ .table => rows.isCorrelated
  | _ => false

def isEagerTable : Plan → Bool
  | .spool _ _ .eager .table => true
  | _ => false

/-- The tables that an operator reads. A loop that neither sets parameters nor adds values may have
a stale one on its right, filled before it is read. -/
def ReadsFresh : Plan → Prop
  | .join left right j => left.isStale = false ∧
      (right.isStale → right.isEagerTable ∧ j.strategy = .nestedLoop [] ∧ j.definitions = [])
  | p => ∀ q ∈ p.children, q.isStale = false

theorem isCorrelated_congr {q : Plan} (h : q.params = p.params) :
    q.isCorrelated = p.isCorrelated := by
  rw [isCorrelated, isCorrelated, h]

theorem isCorrelated_of_params (h : p.params = []) : p.isCorrelated = false := by
  rw [isCorrelated, h]
  rfl

theorem of_producer? (h : p.producer? = none) : p.isStale = false ∧ p.isEagerTable = false := by
  cases p with
  | spool => cases h
  | _ => exact ⟨rfl, rfl⟩

theorem WellFormed.isStale (h : p.WellFormed) : p.isStale = false := by
  cases h with
  | operator htable _ _ =>
    unfold Plan.isStale
    split
    · cases htable
    · rfl
  | cached => rfl

theorem readsFresh_of_children (h : ∀ q ∈ p.children, q.isStale = false) : p.ReadsFresh := by
  cases p with
  | join left right j =>
    refine ⟨h left List.mem_cons_self, fun hstale => ?_⟩
    cases (h right (List.mem_cons_of_mem _ List.mem_cons_self)).symm.trans hstale
  | _ => exact h

theorem WellFormed.readsFresh (h : p.WellFormed) : ∀ r ∈ p.operators, r.ReadsFresh := by
  induction h with
  | operator _ _ hinputs ih =>
    exact forall_operators.2 ⟨readsFresh_of_children fun q hq => (hinputs q hq).isStale, ih⟩
  | @cached left right id j hloop hparams hleft hright ihleft ihright =>
    have htable : ∀ r ∈ (Plan.spool id right .eager .table).operators, r.ReadsFresh :=
      forall_operators.2
        ⟨List.forall_mem_singleton.2 hright.isStale, List.forall_mem_singleton.2 ihright⟩
    refine forall_operators.2 ⟨⟨hleft.isStale, fun hstale => ⟨rfl, hloop, ?_⟩⟩,
      List.forall_mem_cons.2 ⟨ihleft, List.forall_mem_singleton.2 htable⟩⟩
    by_contra hnone
    cases (isCorrelated_of_params (hparams hnone)).symm.trans hstale

/-- What becomes of a plan depends on the same parameters, and its tables are as fresh. -/
structure StaysFresh (p : Plan) (n : Nat) (q : Plan) (m : Nat) : Prop where
  params : q.params = p.params
  stale : q.isStale → p.isStale
  eager : p.isEagerTable → q.isEagerTable
  operators : (∀ r ∈ p.operators, r.ReadsFresh) → ∀ r ∈ q.operators, r.ReadsFresh

namespace StaysFresh

variable {p q : Plan} {inputs : List Plan} {n m : Nat}

theorem isStale_eq (h : StaysFresh p n q m) (hp : p.isStale = false) : q.isStale = false := by
  by_contra hq
  cases hp.symm.trans (h.stale (by simpa using hq))

theorem table_withChildren (hq : p.withChildren inputs = .ok q)
    (hparams : inputs.map Plan.params = p.children.map Plan.params) :
    (q.isStale → p.isStale) ∧ (p.isEagerTable → q.isEagerTable) := by
  have hproducer : q.producer? = p.producer? := (of_withChildren hq).2.2.1
  cases hp : p.producer? with
  | none =>
    rw [(of_producer? (hproducer.trans hp)).1, (of_producer? hp).2]
    exact ⟨nofun, nofun⟩
  | some id =>
    obtain ⟨rows, kind, mode, rfl⟩ : ∃ rows kind mode, p = .spool id rows kind mode := by
      cases p <;> cases hp
      exact ⟨_, _, _, rfl⟩
    rcases inputs with _ | ⟨rows', _ | _⟩ <;> cases hq
    have hrows : rows'.params = rows.params := by simpa [children] using hparams
    refine ⟨?_, by cases mode <;> cases kind <;> exact fun h => h⟩
    cases mode with
    | table => exact (isCorrelated_congr hrows).symm.trans
    | _ => exact fun h => h

theorem readsFresh_withChildren (hinputs : Chain StaysFresh p.children n inputs m)
    (hq : p.withChildren inputs = .ok q) (h : p.ReadsFresh) : q.ReadsFresh := by
  by_cases hjoin : ∃ left right j, p = .join left right j
  · obtain ⟨left, right, j, rfl⟩ := hjoin
    obtain ⟨left', right', rfl, rfl⟩ := exists_of_withChildren_join hq
    rcases hinputs with _ | ⟨hleft, _ | ⟨hright, _⟩⟩
    refine ⟨hleft.isStale_eq h.1, fun hstale => ?_⟩
    obtain ⟨heager, hloop⟩ := h.2 (hright.stale hstale)
    exact ⟨hright.eager heager, hloop⟩
  · have hchildren : ∀ child ∈ p.children, child.isStale = false := by
      cases p with
      | join left right j => exact absurd ⟨left, right, j, rfl⟩ hjoin
      | _ => exact h
    refine readsFresh_of_children fun child hchild => ?_
    rw [(of_withChildren hq).1] at hchild
    obtain ⟨old, hold, _, _, hstays⟩ := hinputs.exists_of_mem hchild
    exact hstays.isStale_eq (hchildren old hold)

theorem inside (hinputs : Chain StaysFresh p.children n inputs m)
    (hq : p.withChildren inputs = .ok q) : StaysFresh p n q m := by
  have hparams := (hinputs.mono fun h => h.params).map_eq
  obtain ⟨hstale, heager⟩ := table_withChildren hq hparams
  refine ⟨params_withChildren hq hparams, hstale, heager, fun h => ?_⟩
  rw [forall_operators] at h ⊢
  refine ⟨readsFresh_withChildren hinputs hq h.1, fun child hchild => ?_⟩
  rw [(of_withChildren hq).1] at hchild
  obtain ⟨old, hold, _, _, hstays⟩ := hinputs.exists_of_mem hchild
  exact hstays.operators (h.2 old hold)

end StaysFresh

end Plan

namespace CachingPolicy

open Plan

theorem staysFresh_insertSpools {policy : CachingPolicy} {q : Plan}
    (hq : policy.insertSpools p = .ok q) : ∃ m, StaysFresh p p.lastSpool q m := by
  refine SpoolInvariant.insertSpools ⟨fun h h' => ?_, fun _ hp => ?_, .inside⟩ hq
  · exact ⟨h'.params.trans h.params, h.stale ∘ h'.stale, h'.eager ∘ h.eager,
      h'.operators ∘ h.operators⟩
  · -- what is cached is not a table itself
    obtain ⟨hfresh, heager⟩ := of_producer? hp.producer
    refine ⟨by rw [params], fun h => ?_, fun h => ?_, fun h => ?_⟩
    · cases (isCorrelated_of_params hp.params).symm.trans h
    · cases heager.symm.trans h
    · exact forall_operators.2 ⟨List.forall_mem_singleton.2 hfresh, List.forall_mem_singleton.2 h⟩

end CachingPolicy

theorem Plan.Finished.readsFresh (h : p.Finished) :
    p.isStale = false ∧ ∀ r ∈ p.operators, r.ReadsFresh := by
  obtain ⟨q, o, hq, rfl | hp⟩ := h
  · exact ⟨hq.isStale, hq.readsFresh⟩
  · obtain ⟨_, hstays⟩ := CachingPolicy.staysFresh_insertSpools hp
    exact ⟨hstays.isStale_eq hq.isStale, hstays.operators hq.readsFresh⟩

/-- The tables in the plans of a program keep rows that depend on no parameter, but for eager ones
on the right of a loop that sets no parameter and adds no value. -/
theorem build_keeps_fresh_rows (i : BuildInput) (sql : String) (roots : List Root)
    (h : i.build sql = .ok roots) (root : Root) (hroot : root ∈ roots) (plan : QueryPlan)
    (hplan : root.node.plan? = some plan) :
    plan.root.isStale = false ∧ ∀ p ∈ plan.root.operators, p.ReadsFresh := by
  obtain ⟨w, hbooked⟩ := BuildInput.booked_of_build h root hroot
  exact (hbooked plan hplan).finished.readsFresh

def uncorrelatedSubquery : String :=
  "SELECT a.k FROM t a WHERE EXISTS (SELECT b.k FROM t b)"

theorem uncorrelatedSubquery_keeps_fresh_rows :
    ∃ roots root plan, singleEntity.build uncorrelatedSubquery = .ok roots ∧ root ∈ roots ∧
      root.node.plan? = some plan ∧ (∃ p ∈ plan.root.operators, p.isEagerTable) ∧
      plan.root.isStale = false ∧ ∀ p ∈ plan.root.operators, p.ReadsFresh := by
  obtain ⟨roots, root, plan, hroots, hroot, hplan, hkeeps⟩ := singleEntity.exists_plan_of_any
    uncorrelatedSubquery (fun plan => plan.root.operators.any (·.isEagerTable)) (by decide +kernel)
  exact ⟨roots, root, plan, hroots, hroot, hplan, List.any_eq_true.1 hkeeps,
    build_keeps_fresh_rows singleEntity uncorrelatedSubquery roots hroots root hroot plan hplan⟩

def correlatedCross : String :=
  "SELECT a.k FROM t a WHERE EXISTS (SELECT b.k FROM t b CROSS JOIN " ++
    "(SELECT c.k FROM t c WHERE c.k = a.k) d)"

/-- The rows on the right of a cross join are kept, though they depend on the row around. -/
theorem correlatedCross_keeps_stale_rows :
    ∃ roots root plan, singleEntity.build correlatedCross = .ok roots ∧ root ∈ roots ∧
      root.node.plan? = some plan ∧ ∃ p ∈ plan.root.operators, p.isStale := by
  obtain ⟨roots, root, plan, hroots, hroot, hplan, hkeeps⟩ := singleEntity.exists_plan_of_any
    correlatedCross (fun plan => plan.root.operators.any (·.isStale)) (by decide +kernel)
  exact ⟨roots, root, plan, hroots, hroot, hplan, List.any_eq_true.1 hkeeps⟩

end BatchPlan
