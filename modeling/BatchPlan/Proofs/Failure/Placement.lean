import BatchPlan.Proofs.Failure.Faults
import BatchPlan.Proofs.Flow.Assembly

namespace BatchPlan

open BindM

variable {c : BindContext}

/-- Where the first action succeeds, the second does the same. -/
def Refines {α : Type} (x y : BindM α) : Prop :=
  ∀ c s a s', x.start c s = (.ok a, s') → y.start c s = (.ok a, s')

namespace Refines

variable {α β γ : Type} {x y : BindM α} {f g : α → BindM β} {p : Prop}

theorem refl (x : BindM α) : Refines x x :=
  fun _ _ _ _ h => h

theorem bind (hx : Refines x y) (hf : ∀ a, Refines (f a) (g a)) : Refines (x >>= f) (y >>= g) := by
  intro c s b s' h
  obtain ⟨a, s₁, ha, hb⟩ := exists_of_start_bind h
  rw [start_bind_ok (hx c s a s₁ ha)]
  exact hf a c s₁ b s' hb

theorem first (hx : Refines x y) : Refines (x >>= f) (y >>= f) :=
  hx.bind fun a => .refl (f a)

theorem after (hf : ∀ a, Refines (f a) (g a)) : Refines (x >>= f) (x >>= g) :=
  (refl x).bind hf

theorem ite [Decidable p] {x' y' : BindM α} (hx : Refines x y) (hx' : Refines x' y') :
    Refines (if p then x else x') (if p then y else y') := by
  split
  · exact hx
  · exact hx'

theorem check [Decidable p] {e : PlanError} {x' y' : BindM β} (hx' : Refines x' y') :
    Refines (if p then (throw e : BindM α) >>= f else x')
      (if p then (throw e : BindM α) >>= g else y') := by
  refine .ite (fun c s b s' h => ?_) hx'
  cases h

theorem mapM {f g : γ → BindM α} (hf : ∀ v, Refines (f v) (g v)) (vs : List γ) :
    Refines (vs.mapM f) (vs.mapM g) := by
  induction vs with
  | nil => exact .refl _
  | cons v rest ih =>
    rw [List.mapM_cons, List.mapM_cons]
    exact (hf v).bind fun _ => ih.first

theorem foldlM {f g : α → γ → BindM α} (hf : ∀ a v, Refines (f a v) (g a v)) (vs : List γ) (a : α) :
    Refines (vs.foldlM f a) (vs.foldlM g a) := by
  induction vs generalizing a with
  | nil => exact .refl _
  | cons v rest ih =>
    rw [List.foldlM_cons, List.foldlM_cons]
    exact (hf a v).bind ih

theorem withReader {h : BindContext → BindContext} (hx : Refines x y) :
    Refines (withReader h x) (withReader h y) :=
  fun c s a s' => hx (h c) s a s'

theorem enclosed (hx : Refines x y) : Refines (enclosed x) (enclosed y) := by
  intro c s a s' h
  rw [start_enclosed] at h ⊢
  rcases hrun : x.start c { s with captured := [] :: s.captured } with ⟨e | b, s₁⟩
  · rw [hrun] at h
    cases h
  · rw [hrun] at h
    rw [hx c _ b s₁ hrun]
    exact h

end Refines

/-- Where the first action goes through without faults, the second does the same. -/
def RefinesClean (x y : BindM Progress) : Prop :=
  ∀ c s p s', x.start c s = (.ok p, s') → p.log.errors = [] → y.start c s = (.ok p, s')

namespace RefinesClean

variable {α β : Type} {x y : BindM Progress}

theorem refl (x : BindM Progress) : RefinesClean x x :=
  fun _ _ _ _ h _ => h

theorem after {x : BindM α} {f g : α → BindM Progress} (hf : ∀ a, RefinesClean (f a) (g a)) :
    RefinesClean (x >>= f) (x >>= g) := by
  intro c s p s' h hclean
  obtain ⟨a, s₁, ha, hp⟩ := exists_of_start_bind h
  rw [start_bind_ok ha]
  exact hf a c s₁ p s' hp hclean

/-- What follows fails if there are faults. -/
theorem bind {f g : Progress → BindM β} (hx : RefinesClean x y)
    (hfails : ∀ p, p.log.errors ≠ [] → Reports p.log.errors (f p) fun _ => [])
    (hf : ∀ p, Refines (f p) (g p)) : Refines (x >>= f) (y >>= g) := by
  intro c s b s' h
  obtain ⟨p, s₁, hp, hb⟩ := exists_of_start_bind h
  have hclean : p.log.errors = [] := by
    by_contra hfaults
    exact hfaults (List.prefix_nil.1 ((hfails p hfaults).ok hb))
  rw [start_bind_ok (hx c s p s₁ hp hclean)]
  exact hf p c s₁ b s' hb

theorem extend {clause clause' : Block → BindM Block} (htame : ∀ k, Tame (clause k))
    (h : ∀ k, Refines (clause k) (clause' k)) (p : Progress) :
    RefinesClean (p.extend clause) (p.extend clause') := by
  intro c s p' s' hrun hclean
  unfold Progress.extend at hrun ⊢
  rw [start_bind, start_attempt] at hrun ⊢
  rcases hclause : (clause p.block).start c s with ⟨e | k, s₁⟩
  · rw [hclause] at hrun
    cases hrun
    have hreason := ((htame p.block).of_start c s _ s₁ hclause).2 e rfl
    exact absurd (List.append_eq_nil_iff.1 hclean).2 hreason
  · rw [hclause] at hrun
    rw [h p.block c s k s₁ hclause]
    exact hrun

end RefinesClean

/-- Binders of which the second does what the first does where that succeeds. -/
structure QueryBinder.Refined (b b' : QueryBinder) : Prop where
  tame : b.IsTame
  query : ∀ q outer, Refines (b.query q outer) (b'.query q outer)
  body : ∀ e outer, Refines (b.body e outer) (b'.body e outer)

namespace QueryBinder

variable {b b' : QueryBinder} (h : b.Refined b')

include h

theorem refines_step (r : RecursiveReference) (steps : List (Sql.SetExpr Sql.Query)) :
    Refines (b.step r steps) (b'.step r steps) := by
  rw [step, step, BindM.stepping_eq, BindM.stepping_eq]
  exact .first (.withReader (.mapM (fun body => (h.body body []).first) steps))

theorem refines_recursiveCte (d : CteDefinition) : Refines (b.recursiveCte d) (b'.recursiveCte d) :=
  .after fun members => .bind (.first (.mapM (fun m => (h.body m.body []).first) members.anchors))
    fun _ => .after fun _ => .after fun _ => .after fun _ => .first (refines_step h _ members.steps)

theorem refines_cte (d : CteDefinition) : Refines (b.cte d) (b'.cte d) := by
  rw [cte, cte, BindM.amidst_eq, BindM.amidst_eq]
  exact .withReader (.ite (refines_recursiveCte h d) (h.query d.query []).first)

theorem refines_namedQuery? (name : Sql.ObjectName) (columns : List String) :
    Refines (b.namedQuery? name columns) (b'.namedQuery? name columns) := by
  refine .ite (.refl _) (.after fun context => ?_)
  cases context.recursiveReference? name.base with
  | some reference => exact .refl _
  | none =>
    cases context.cte? name.base with
    | some d => exact (refines_cte h d).first
    | none => exact .refl _

theorem refines_namedTable (name : Sql.ObjectName) (tableAlias : Option Sql.TableAlias) :
    Refines (b.namedTable name tableAlias) (b'.namedTable name tableAlias) :=
  (refines_namedQuery? h name _).first

theorem refines_source (source : Sql.Source Sql.Query) (levels : List Level) :
    Refines (b.source levels source) (b'.source levels source) := by
  induction source generalizing levels with
  | table name args tableAlias _ =>
    unfold source
    cases args with
    | list => exact .refl _
    | _ => exact refines_namedTable h name tableAlias
  | derived _ query tableAlias =>
    unfold source
    cases tableAlias with
    | none => exact .refl _
    | some a => exact (h.query query levels).first
  | nested inner tableAlias ih =>
    unfold source
    exact .ite (.refl _) (ih levels)
  | join left kind right form condition ihl ihr =>
    unfold source
    refine (ihl levels).bind fun left => ?_
    cases kind with
    | inner | left | right | full => exact .after fun _ => (ihr levels).first
    | cross => exact (ihr levels).first
    | crossApply | outerApply => exact (ihr _).enclosed.first
    | _ => exact .refl _
  | other form =>
    unfold source
    exact .refl _

theorem refines_sources (levels : List Level) (sources : List (Sql.Source Sql.Query)) :
    Refines (b.sources levels sources) (b'.sources levels sources) := by
  cases sources with
  | nil => exact .refl _
  | cons first rest =>
    exact (refines_source h first levels).bind fun _ =>
      .foldlM (fun _ s => (refines_source h s levels).first) rest _

theorem refines_in_ (e : Sql.Expr) (query : Sql.Query) (negated : Bool) (k : Block) :
    Refines (b.in_ e query negated k) (b'.in_ e query negated k) :=
  .bind (.after fun _ => (h.query query _).first) fun _ =>
    .ite (.refl _) (.ite (.refl _) (h.query query _).first)

theorem refines_subquery (k : Block) (e : Sql.Expr) :
    Refines (b.subquery k e) (b'.subquery k e) := by
  have hmap {α β : Type} {x y : BindM α} (hx : Refines x y) (f : α → β) :
      Refines (f <$> x) (f <$> y) := by
    rw [map_eq_pure_bind, map_eq_pure_bind]
    exact hx.first
  refine .ite (.refl _) ?_
  split
  · exact (hmap (.first (h.query _ _)) _).first
  · exact (hmap (refines_in_ h _ _ _ k) _).first
  · exact (hmap (.first (h.query _ _)) _).first
  · exact .refl _

theorem refines_subqueries (es : List Sql.Expr) (k : Block) :
    Refines (b.subqueries es k) (b'.subqueries es k) :=
  .foldlM (refines_subquery h) _ k

theorem refines_restrict (condition : Sql.Expr) (k : Block) :
    Refines (b.restrict condition k) (b'.restrict condition k) :=
  (refines_subqueries h [condition] k).first

theorem refines_filtering (s : Sql.Select Sql.Query) (p : Progress) :
    RefinesClean (b.filtering s p) (b'.filtering s p) := by
  unfold filtering
  cases s.condition with
  | none => exact .refl _
  | some condition =>
    exact .extend (tame_whereClause h.tame condition)
      (fun k => .check (refines_restrict h condition k)) p

theorem refines_grouping (s : Sql.Select Sql.Query) (tail : QueryTail) (p : Progress) :
    RefinesClean (b.grouping s tail p) (b'.grouping s tail p) := by
  unfold grouping
  refine .after fun groups => ?_
  split
  · exact .refl _
  · refine .after fun r => ?_
    cases r with
    | error e => exact .refl _
    | ok k =>
      cases s.having with
      | none => exact .refl _
      | some condition =>
        exact .extend (tame_restrict h.tame condition) (refines_restrict h condition) _

theorem refines_rest (s : Sql.Select Sql.Query) (tail : QueryTail) (p : Progress) :
    Refines (b.rest s tail p) (b'.rest s tail p) :=
  (refines_grouping h s tail p).bind
    (fun _ hfaults => (Progress.reports_extend List.prefix_rfl _).bind fun _ hp =>
      reports_complete hfaults tail hp)
    fun p => (RefinesClean.extend (tame_subqueries h.tame _) (refines_subqueries h _) p).bind
      (fun _ hfaults => reports_complete hfaults tail List.prefix_rfl) fun _ => .refl _

theorem refines_block (s : Sql.Select Sql.Query) (tail : QueryTail) (outer : List Level) :
    Refines (b.block s tail outer) (b'.block s tail outer) := by
  rw [block_eq, block_eq]
  refine ((refines_sources h _ s.sources).first).bind fun k => ?_
  cases hgroups : s.groups tail.exprs with
  | ok groups =>
    exact (refines_filtering h s _).bind
      (fun _ hfaults => reports_rest hfaults b tail hgroups List.prefix_rfl) (refines_rest h s tail)
  | error e =>
    intro c st plan st' hrun
    obtain ⟨p, st₁, -, hrest⟩ := exists_of_start_bind hrun
    unfold rest grouping at hrest
    rw [hgroups] at hrest
    cases hrest

theorem refines_select (s : Sql.Select Sql.Query) (tail : QueryTail) (outer : List Level) :
    Refines (b.select s tail outer) (b'.select s tail outer) :=
  .after fun _ => .after fun _ => (refines_block h s tail outer).enclosed.first

theorem refines_bindBody (body : Sql.SetExpr Sql.Query) (outer : List Level) :
    Refines (b.bindBody body outer) (b'.bindBody body outer) := by
  cases body with
  | select s => exact refines_select h s {} outer
  | query q => exact h.query q outer
  | values => exact .refl _
  | operation op quantifier left right =>
    cases op with
    | union =>
      exact .first (.foldlM (fun _ (m : Sql.UnionMember) => (h.body m.body outer).first) _ _)
    | _ => exact .check ((h.body left outer).bind fun _ => (h.body right outer).first)
  | other form => exact .refl _

theorem refines_bindQuery (q : Sql.Query) (outer : List Level) :
    Refines (b.bindQuery q outer) (b'.bindQuery q outer) := by
  unfold bindQuery
  refine .check ?_
  cases q.forClause with
  | some clause =>
    intro c s bound s' hrun
    cases hrun
  | none =>
    dsimp only
    rw [nested_eq, nested_eq]
    refine .after fun _ => .after fun _ => .withReader ?_
    cases q.body with
    | select s => exact refines_select h s _ outer
    | _ => exact (h.body _ outer).first

theorem refines_valuePlan (e : Sql.Expr) (bind : Scope → Sql.Expr → BindM Scalar) :
    Refines (b.valuePlan e bind) (b'.valuePlan e bind) :=
  (refines_subqueries h [e] _).first

theorem refines_assignedValue (target : DataType) (e : Sql.Expr) :
    Refines (b.assignedValue target e) (b'.assignedValue target e) :=
  (refines_valuePlan h e _).first

theorem refines_declare (d : Sql.Declaration) : Refines (b.declare d) (b'.declare d) := by
  refine .after fun type => .first ?_
  cases d.initial with
  | none => exact .refl _
  | some e => exact .first (refines_assignedValue h type e)

theorem refines_changedRows (source : Sql.Source Sql.Query) (condition : Option Sql.Expr)
    (statement : String) :
    Refines (b.changedRows source condition statement)
      (b'.changedRows source condition statement) := by
  refine .after fun table => .check (.bind (refines_namedTable h _ _) fun relation => ?_)
  split
  · split
    · exact .refl _
    · cases condition with
      | none => exact .refl _
      | some condition => exact (refines_restrict h condition _).first
  · exact .refl _

theorem refines_statement (hints : Hints) (statement : Sql.Statement) :
    Refines (b.statement hints statement) (b'.statement hints statement) := by
  cases statement with
  | query q => exact (h.query q []).first
  | insert i =>
    refine .first (.after fun _ => .after fun _ => ?_)
    split
    · exact .refl _
    · exact (h.query _ []).first
  | update u =>
    exact .first
      (.check (.check ((refines_changedRows h u.table u.condition "UPDATE").bind fun rows =>
      .after fun _ => .after fun _ => .after fun _ => (refines_subqueries h _ rows.block).first)))
  | delete d =>
    refine .first (.check ?_)
    split
    · exact (refines_changedRows h _ d.condition "DELETE").first
    · exact .refl _
  | _ => exact .refl _

end QueryBinder

open AssemblyM

/-- Where the first action leaves no faults, the second does the same. -/
structure Rebuilds {α : Type} (x y : AssemblyM α) : Prop where
  keeps : KeepsFaults x
  same : ∀ c a, (x.after c a).errors = [] → (y c).run a = (x c).run a

namespace Rebuilds

variable {α β : Type} {x y : AssemblyM α} {f g : α → AssemblyM β}

theorem refl (hx : KeepsFaults x) : Rebuilds x x :=
  ⟨hx, fun _ _ _ => rfl⟩

theorem bind (hx : Rebuilds x y) (hf : ∀ v, Rebuilds (f v) (g v)) :
    Rebuilds (x >>= f) (y >>= g) where
  keeps := ⟨fun c a _ h => hx.keeps.before ((hf _).keeps.before h)⟩
  same c a h := by
    rw [after_bind] at h
    change (g ((y c).run a).1 c).run ((y c).run a).2 = _
    rw [hx.same c a ((hf _).keeps.before h)]
    exact (hf _).same c _ h

theorem run_first {a : Assembly} (h : (y c).run a = (x c).run a) :
    ((y >>= f) c).run a = ((x >>= f) c).run a :=
  congrArg (fun r : α × Assembly => (f r.1 c).run r.2) h

theorem emitAll {act act' : BindM (List RootNode)} (hact : Answers act) (h : Refines act act')
    (location : Sql.Location) : Rebuilds (emitAll location act) (emitAll location act') where
  keeps := ⟨fun _ _ _ => errors_before_emitAll⟩
  same c a hnone := by
    obtain ⟨nodes, state, hstart, -⟩ := after_emitAll_of_accepted hact hnone
    have hperform : (perform act' c).run a = (perform act c).run a := by
      change (fun r : Result _ × BindState => (r.1, { a with state := r.2 }))
        (act'.start c a.state) =
        (fun r : Result _ × BindState => (r.1, { a with state := r.2 })) (act.start c a.state)
      rw [hstart, h c a.state nodes state hstart]
    exact run_first hperform

theorem emitOne {act act' : BindM RootNode} (hact : Answers act) (h : Refines act act')
    (location : Sql.Location) : Rebuilds (emitOne location act) (emitOne location act') :=
  emitAll (hact.bind fun node => .pure [node]) h.first location

end Rebuilds

open QueryBinder in
theorem rebuilds_steps {b b' : QueryBinder} (h : b.Refined b') :
    StepRelation b b' fun _ x y => Rebuilds x y where
  idle hx := .refl ⟨fun c a _ => hx _ (respects_faults b).toTolerates c a⟩
  bind hx hf := hx.bind hf
  statement location hints s := by
    have hall := Rebuilds.emitAll (answers_statement h.tame hints s)
      (refines_statement h hints s) location
    exact ⟨⟨fun _ a _ => hall.keeps.after _ a trivial⟩, fun _ a => hall.same _ a⟩
  root location r := by
    refine .emitOne (answers_root h.tame r) ?_ location
    cases r with
    | declare d => exact refines_declare h d
    | assign name e => exact .after fun v => (refines_assignedValue h v.dataType e).first
    | print e => exact (refines_valuePlan h e _).first
    | jumpUnless e label => exact (refines_valuePlan h e _).first
    | throw args => exact .refl _

namespace Sql.Query

def hasTop (q : Query) : Bool :=
  match q.body with
  | .select s => s.top.isSome
  | _ => false

def ordersUnlimited (q : Query) : Bool :=
  !q.orderBy.isEmpty && !q.hasTop && !(QueryTail.ofQuery q).hasOffset

end Sql.Query

theorem QueryTail.placed_of_start {t : QueryTail} {hasTop : Bool} {s s' : BindState}
    (h : (t.checkPlacement hasTop).start c s = (.ok (), s')) (hdepth : 1 < c.depth) :
    (!t.orderBy.isEmpty && !hasTop && !t.hasOffset) = false := by
  unfold checkPlacement at h
  rw [start_read_bind] at h
  split at h
  · cases h
  · simp_all

namespace QueryBinder

/-- Binds up to a depth, but refuses some queries where they stand. -/
def refusing (refused : BindContext → Sql.Query → Bool) : Nat → QueryBinder
  | 0 => ofDepth 0
  | depth + 1 =>
    { query := fun q outer => do
        if refused (← read) q then throw (.unsupported "query")
        (refusing refused depth).bindQuery q outer
      body := fun e outer => (refusing refused depth).bindBody e outer }

/-- A query inside another one that orders its rows without a limit. -/
def nestedOrder (c : BindContext) (q : Sql.Query) : Bool :=
  decide (0 < c.depth) && q.ordersUnlimited

theorem yields_not_nestedOrder (b : QueryBinder) (q : Sql.Query) (outer : List Level)
    (c : BindContext) (s : BindState) :
    Yields (b.bindQuery q outer) c s fun _ _ => nestedOrder c q = false := by
  by_cases hdepth : 0 < c.depth
  case neg => exact fun _ _ _ => by simp [nestedOrder, hdepth]
  have hplaced (hasTop : Bool) (ctes : List CteDefinition) (s s' : BindState) :
      ((QueryTail.ofQuery q).checkPlacement hasTop).start { c with ctes, depth := c.depth + 1 } s =
        (.ok (), s') → q.hasTop = hasTop → nestedOrder c q = false := by
    intro h htop
    rw [nestedOrder, decide_eq_true hdepth, Bool.true_and, Sql.Query.ordersUnlimited, htop]
    exact QueryTail.placed_of_start h (Nat.succ_lt_succ hdepth)
  refine .check fun _ => ?_
  dsimp only
  split
  · exact .throw
  intro bound s' h
  rw [nested_eq, start_read_bind] at h
  obtain ⟨ctes, -, h⟩ := exists_of_start_lift_bind h
  rw [start_withReader] at h
  split at h
  next select hbody =>
    obtain ⟨⟨⟩, -, h⟩ := exists_of_start_lift_bind h
    obtain ⟨⟨⟩, s₁, h, -⟩ := exists_of_start_bind h
    exact hplaced _ _ _ _ h (by rw [Sql.Query.hasTop, hbody])
  next hbody =>
    obtain ⟨bound', s₁, -, h⟩ := exists_of_start_bind h
    obtain ⟨⟨⟩, s₂, h, -⟩ := exists_of_start_bind h
    refine hplaced _ _ _ _ h ?_
    unfold Sql.Query.hasTop
    split
    next select hselect => exact absurd hselect (hbody select)
    next => rfl

theorem refined_refusing (depth : Nat) : (ofDepth depth).Refined (refusing nestedOrder depth) := by
  induction depth with
  | zero => exact ⟨isTame_ofDepth 0, fun _ _ => .refl _, fun _ _ => .refl _⟩
  | succ depth ih =>
    refine ⟨isTame_ofDepth _, fun q outer c s bound s' h => ?_, fun e outer =>
      refines_bindBody ih e outer⟩
    have hnested := yields_not_nestedOrder _ q outer c s bound s' h
    change ((read : BindM BindContext) >>= _).start c s = _
    rw [start_read_bind, hnested]
    exact refines_bindQuery ih q outer c s bound s' h

end QueryBinder

/-- The program that a binder makes of a batch. -/
def BuildInput.buildBy (i : BuildInput) (b : QueryBinder) (sql : String) :
    Except BuildFailure (List Root) := do
  let (commands, state) ← Except.mapError (fun e => BuildFailure.faults e.flatten) do
    i.options.validate
    let commands ← Sql.parseBatch sql
    return (commands, ← i.start)
  let context : BindContext := { catalog := i.catalog, options := i.options }
  let (_, assembly) := (assembleAll b {} commands context).run { state }
  assembly.finish

theorem BuildInput.build_without_nested_orders (i : BuildInput) (sql : String) (roots : List Root)
    (h : i.build sql = .ok roots) :
    i.buildBy (.refusing QueryBinder.nestedOrder (sql.length + 1)) sql = .ok roots ∧
      ∀ name q members, RecursiveMembers.ofQuery name q = .ok members → q.orderBy = [] := by
  constructor
  · change i.buildBy _ sql = _ at h
    unfold buildBy at h ⊢
    cases hbatch : Except.mapError (fun e => BuildFailure.faults e.flatten) (do
        i.options.validate
        let commands ← Sql.parseBatch sql
        return (commands, ← i.start)) with
    | error e =>
      rw [hbatch] at h
      cases h
    | ok batch =>
      rw [hbatch] at h
      change ((assembleAll (.ofDepth (sql.length + 1)) {} batch.1).after _ _).finish = _ at h
      change Assembly.finish ((assembleAll _ {} batch.1 _).run _).2 = _
      have hsame :=
        (rebuilds_steps (QueryBinder.refined_refusing (sql.length + 1))).holds_assembleAll
        {} batch.1
      rw [hsame.same _ _ (Assembly.errors_of_finish h).1]
      exact h
  · intro name q members hmembers
    unfold RecursiveMembers.ofQuery at hmembers
    split at hmembers
    · cases hmembers
    · simp_all

def limitedOrder : String :=
  "SELECT n FROM (SELECT TOP (1) 1 AS n ORDER BY n) AS d ORDER BY n"

theorem BuildInput.limitedOrder_builds :
    ∃ roots, BuildInput.build { catalog := {} } limitedOrder = .ok roots ∧
      BuildInput.buildBy { catalog := {} }
        (.refusing QueryBinder.nestedOrder (limitedOrder.length + 1)) limitedOrder =
        .ok roots := by
  have hbuilds : (BuildInput.build { catalog := {} } limitedOrder).toOption.isSome := by
    decide +kernel
  cases h : BuildInput.build { catalog := {} } limitedOrder with
  | error e =>
    rw [h] at hbuilds
    cases hbuilds
  | ok roots => exact ⟨roots, rfl, (build_without_nested_orders _ _ roots h).1⟩

def printedOrder : String :=
  "PRINT (SELECT 1 AS n ORDER BY n)"

/-- It is bound, and it orders its rows without a limit. -/
theorem BuildInput.printedOrder_builds :
    (BuildInput.build { catalog := {} } printedOrder).toOption.isSome ∧
      (BuildInput.buildBy { catalog := {} }
        (.refusing (fun _ q => q.ordersUnlimited) (printedOrder.length + 1))
        printedOrder).toOption.isNone := by
  decide +kernel

end BatchPlan
