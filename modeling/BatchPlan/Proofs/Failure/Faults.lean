import BatchPlan.Proofs.Binding.Tame

namespace BatchPlan

open BindM

namespace ErrorLog

variable {log : ErrorLog} (hlog : log.errors ≠ [])

include hlog

theorem ofList?_errors : PlanError.ofList? log.errors = some log.toError := by
  unfold toError
  cases h : PlanError.ofList? log.errors with
  | some e => rfl
  | none =>
    unfold PlanError.ofList? at h
    split at h <;> simp_all

theorem flatten_toError : log.toError.flatten = log.errors :=
  (log.flatten_of_ofList? (ofList?_errors hlog)).1

theorem finish_eq : log.finish = .error log.toError := by
  rw [finish, ofList?_errors hlog]

end ErrorLog

/-- However an action ends, the faults found before are reported: by the log that goes on, or else
by its error. -/
structure Reports {α : Type} (faults : List PlanError) (x : BindM α) (log : α → List PlanError) :
    Prop where
  ok : ∀ {c s a s'}, x.start c s = (.ok a, s') → faults <+: log a
  error : ∀ {c s e s'}, x.start c s = (.error e, s') → faults <+: e.flatten

namespace Reports

variable {α β : Type} {faults : List PlanError} {x : BindM α} {f : α → BindM β}
    {L : α → List PlanError}
  {K : β → List PlanError}

theorem lift {r : Result α} (hok : ∀ a, r = .ok a → faults <+: L a)
    (herror : ∀ e, r = .error e → faults <+: e.flatten) : Reports faults (liftM r) L where
  ok {c s a s'} h := by
    rw [start_lift] at h
    cases h
    exact hok a rfl
  error {c s e s'} h := by
    rw [start_lift] at h
    cases h
    exact herror e rfl

theorem pure {a : α} (h : faults <+: L a) : Reports faults (pure a) L :=
  lift (fun _ ha => Except.ok.inj ha ▸ h) nofun

theorem throw {e : PlanError} (h : faults <+: e.flatten) : Reports faults (throw e) L :=
  lift nofun fun _ he => Except.error.inj he ▸ h

theorem bind (hx : Reports faults x L) (hf : ∀ a, faults <+: L a → Reports faults (f a) K) :
    Reports faults (x >>= f) K where
  ok {c s b s'} h := by
    obtain ⟨a, s₁, ha, hb⟩ := exists_of_start_bind h
    exact (hf a (hx.ok ha)).ok hb
  error {c s e s'} h := by
    obtain ⟨_, hrun, ⟨⟩⟩ | ⟨a, s₁, hrun, h⟩ := cases_of_start_bind h
    · exact hx.error hrun
    · exact (hf a (hx.ok hrun)).error h

theorem attempt {f : Result α → BindM β} (hf : ∀ r, Reports faults (f r) K) :
    Reports faults (attempt x >>= f) K where
  ok {c s b s'} h := by
    rw [start_bind, start_attempt] at h
    exact (hf _).ok h
  error {c s e s'} h := by
    rw [start_bind, start_attempt] at h
    exact (hf _).error h

end Reports

namespace Progress

variable {faults : List PlanError} {p : Progress} (hp : faults <+: p.log.errors)

include hp

theorem reported_record (r : Result Block) : faults <+: (p.record r).log.errors := by
  cases r with
  | ok => exact hp
  | error e => exact hp.trans (List.prefix_append _ _)

theorem reports_extend (clause : Block → BindM Block) :
    Reports faults (p.extend clause) (·.log.errors) :=
  .attempt fun r => .pure (reported_record hp r)

theorem reports_abandon {α : Type} (hfaults : faults ≠ []) (s : Sql.Select Sql.Query)
    (tail : QueryTail) (log : α → List PlanError) : Reports faults (p.abandon s tail) log := by
  refine (reports_extend hp (s.limitRows tail)).bind fun p hp => .throw ?_
  rwa [ErrorLog.flatten_toError fun h => hfaults (List.prefix_nil.1 (h ▸ hp))]

end Progress

namespace QueryBinder

variable {p : Progress} {groups : Bool}

/-- What is bound once the columns that stand for subqueries are there. -/
def complete (p : Progress) (s : Sql.Select Sql.Query) (tail : QueryTail) : BindM QueryPlan := do
  let p ← p.extend fun k => k.windows (s.exprs ++ tail.exprs)
  let (p, outputs) ← project p s tail
  let distinct := s.distinct.any Sql.Distinct.isRows
  let p ← ordering (deduplicated p outputs distinct) tail outputs distinct
  let p ← p.extend (s.limitRows tail)
  p.log.finish
  return ⟨p.block.plan, outputs⟩

/-- What is bound after WHERE. -/
def rest (b : QueryBinder) (s : Sql.Select Sql.Query) (tail : QueryTail) (p : Progress) :
    BindM QueryPlan := do
  let p ← b.grouping s tail p
  let p ← p.extend (b.subqueries (s.exprs ++ tail.exprs))
  complete p s tail

theorem block_eq (b : QueryBinder) (s : Sql.Select Sql.Query) (tail : QueryTail)
    (outer : List Level) :
    b.block s tail outer = b.start s outer >>= fun k =>
      b.filtering s { block := k } >>= b.rest s tail :=
  rfl

variable {faults : List PlanError} (hfaults : faults ≠ []) (b : QueryBinder)
    {s : Sql.Select Sql.Query}
  (tail : QueryTail)

theorem reports_ordering (hp : faults <+: p.log.errors) (outputs : List OutputColumn)
    (distinct : Bool) : Reports faults (ordering p tail outputs distinct) (·.log.errors) := by
  unfold ordering
  split
  · exact .pure hp
  · exact Progress.reports_extend hp _

include hfaults

theorem reports_grouping (hgroups : s.groups tail.exprs = .ok groups)
    (hp : faults <+: p.log.errors) : Reports faults (b.grouping s tail p) (·.log.errors) := by
  unfold grouping
  rw [hgroups]
  refine .bind (.pure (L := fun _ => faults) List.prefix_rfl) fun _ _ => ?_
  split
  · exact .pure hp
  · refine .attempt fun r => ?_
    split
    · exact Progress.reports_abandon (Progress.reported_record hp _) hfaults s tail _
    · dsimp only
      split
      · exact Progress.reports_extend (Progress.reported_record hp _) _
      · exact .pure (Progress.reported_record hp _)

theorem reports_project (hp : faults <+: p.log.errors) :
    Reports faults (project p s tail) (·.1.log.errors) := by
  refine .attempt fun r => ?_
  split
  · exact .pure hp
  · refine .attempt fun r => Progress.reports_abandon ?_ hfaults s tail _
    have hpush (log : ErrorLog) (e : PlanError) (h : faults <+: log.errors) :
        faults <+: (log.push e).errors :=
      h.trans (List.prefix_append _ _)
    cases r with
    | ok => exact hpush _ _ hp
    | error e => exact hpush _ _ (hpush _ _ hp)

theorem reports_complete (hp : faults <+: p.log.errors) :
    Reports faults (complete p s tail) fun _ => [] := by
  refine (Progress.reports_extend hp _).bind fun p hp =>
    (reports_project hfaults tail hp).bind fun (p, outputs) hp => ?_
  have hp : faults <+: (deduplicated p outputs
    (s.distinct.any Sql.Distinct.isRows)).log.errors := by
    unfold deduplicated
    split <;> exact hp
  refine (reports_ordering tail hp outputs _).bind fun p hp =>
    (Progress.reports_extend hp _).bind fun p hp => ?_
  have hlog : p.log.errors ≠ [] := fun h => hfaults (List.prefix_nil.1 (h ▸ hp))
  rw [ErrorLog.finish_eq hlog]
  refine .throw ?_
  rwa [ErrorLog.flatten_toError hlog]

/-- A block that has found faults fails with them. -/
theorem reports_rest (hgroups : s.groups tail.exprs = .ok groups) (hp : faults <+: p.log.errors) :
    Reports faults (b.rest s tail p) fun _ => [] :=
  (reports_grouping hfaults b tail hgroups hp).bind fun _ hp =>
    (Progress.reports_extend hp _).bind fun _ hp => reports_complete hfaults tail hp

omit hfaults

theorem start_filtering {condition : Sql.Expr} (hcondition : s.condition = some condition)
    {k : Block} {c : BindContext} {st st' : BindState} {e : PlanError}
    (h : (b.whereClause condition k).start c st = (.error e, st')) :
    (b.filtering s { block := k }).start c st =
    (.ok (({ block := k } : Progress).record (.error e)), st') := by
  unfold filtering
  rw [hcondition]
  change (attempt _ >>= _).start c st = _
  rw [start_bind, start_attempt, h]
  rfl

theorem select_reports_condition (depth : Nat) (s : Sql.Select Sql.Query)
    (tail : QueryTail) (outer : List Level)
    (c : BindContext) (st st₁ st₂ : BindState) (condition : Sql.Expr) (k : Block) (e : PlanError)
    (hcheck : s.check = .ok ())
    (hplacement : (tail.checkPlacement s.top.isSome).start c st = (.ok (), st))
    (hcondition : s.condition = some condition)
    (hsources : ((ofDepth depth).start s outer).start c { st with captured := [] :: st.captured } =
      (.ok k, st₁))
    (hwhere : ((ofDepth depth).whereClause condition k).start c st₁ = (.error e, st₂)) :
    ∃ e' st', ((ofDepth depth).select s tail outer).start c st = (.error e', st') ∧
      if s.groupByAll then e' = .unsupported "GROUP BY ALL" else e.flatten ≠ [] ∧
        e.flatten <+: e'.flatten := by
  set p := ({ block := k } : Progress).record (.error e) with hp
  have hblock : ((ofDepth depth).block s tail outer).start c
      { st with captured := [] :: st.captured } = ((ofDepth depth).rest s tail p).start c st₂ := by
    rw [block_eq, start_bind_ok hsources, start_bind_ok (start_filtering _ hcondition hwhere)]
  have hselect (e' : PlanError) (st' : BindState)
      (h : ((ofDepth depth).rest s tail p).start c st₂ = (.error e', st')) :
      ((ofDepth depth).select s tail outer).start c st =
        (.error e', { st' with captured := st'.captured.tail }) := by
    unfold select
    rw [hcheck]
    change ((tail.checkPlacement s.top.isSome : BindM Unit) >>= _).start c st = _
    rw [start_bind_ok hplacement, start_bind, start_enclosed, hblock, h]
    rfl
  by_cases hall : s.groupByAll
  · refine ⟨_, _, hselect (.unsupported "GROUP BY ALL") st₂ ?_, ?_⟩
    · have hgroups : s.groups tail.exprs = .error (.unsupported "GROUP BY ALL") := by
        rw [Sql.Select.groups, if_pos hall]
      unfold rest grouping
      rw [hgroups]
      rfl
    · rw [if_pos hall]
  · obtain ⟨groups, hgroups⟩ : ∃ groups, s.groups tail.exprs = .ok groups := ⟨_, if_neg hall⟩
    have hfaults : e.flatten ≠ [] :=
      ((tame_whereClause (isTame_ofDepth depth) condition k).of_start _ _ _ _ hwhere).2 e rfl
    have hreports := reports_rest hfaults (ofDepth depth) tail hgroups (p := p) List.prefix_rfl
    rcases hrun : ((ofDepth depth).rest s tail p).start c st₂ with ⟨e' | plan, st'⟩
    · refine ⟨e', _, hselect e' st' hrun, ?_⟩
      rw [if_neg hall]
      exact ⟨hfaults, hreports.error hrun⟩
    · exact absurd (List.prefix_nil.1 (hreports.ok hrun)) hfaults

def missing : Sql.Expr :=
  .isNull (.ident ⟨"missing", none⟩) false

def missingColumn (groupByAll : Bool) : Sql.Select Sql.Query :=
  ⟨none, none, [.star], none, [], [], some missing, groupByAll, [], [], [],
    [], none, [], none, false, none⟩

def withoutSource : Block :=
  ⟨.oneRow, { Scope.ofSchema .empty [] with schema := Plan.oneRow.schema }⟩

def messages {α : Type} : Result α → List String
  | .ok _ => []
  | .error e => e.flatten.map PlanError.message

/-- With GROUP BY ALL, nothing says that there is no such column. -/
theorem groupByAll_hides_condition :
    messages (((ofDepth 1).whereClause missing withoutSource).start { catalog := {}, options := {} }
      { session := .empty, captured := [[]] }).1 = ["Invalid column name 'missing'"] ∧
    messages (((ofDepth 1).select (missingColumn true) {} []).start { catalog := {}, options := {} }
      { session := .empty }).1 = ["Not supported: GROUP BY ALL"] := by
  decide +kernel

theorem missingColumn_reported :
    ∃ e st₂ e' st', ((ofDepth 1).whereClause missing withoutSource).start
      { catalog := {}, options := {} } { session := .empty, captured := [[]] } = (.error e, st₂) ∧
      ((ofDepth 1).select (missingColumn false) {} []).start { catalog := {}, options := {} }
        { session := .empty } = (.error e', st') ∧ e.flatten ≠ [] ∧ e.flatten <+: e'.flatten := by
  have hfails : (((ofDepth 1).whereClause missing withoutSource).start
    { catalog := {}, options := {} }
      { session := .empty, captured := [[]] }).1.toOption.isNone := by decide +kernel
  rcases hwhere : ((ofDepth 1).whereClause missing withoutSource).start
    { catalog := {}, options := {} } { session := .empty, captured := [[]] } with ⟨e | k, st₂⟩
  · obtain ⟨e', st', hselect, hfaults⟩ := select_reports_condition 1 (missingColumn false) {} []
      { catalog := {}, options := {} } { session := .empty }
        _ st₂ missing withoutSource e rfl rfl rfl rfl hwhere
    exact ⟨e, st₂, e', st', rfl, hselect, hfaults⟩
  · rw [hwhere] at hfails
    cases hfails

end QueryBinder

end BatchPlan
