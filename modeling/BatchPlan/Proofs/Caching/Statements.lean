import BatchPlan.Proofs.Assembly
import BatchPlan.Proofs.Binding.Run
import BatchPlan.Proofs.Caching.Schedule
import BatchPlan.Proofs.Caching.Schema

namespace BatchPlan

open BindM

/-- What comes of an action, and of another that returns what `f` makes of its value. Where `f`
overflows the value stays, and that is noted in the state. -/
inductive Followed {α : Type} (f : α → Except Overflow α) :
    Result α × BindState → Result α × BindState → Prop
  | failed (e e' : PlanError) (s : BindState) : Followed f (.error e, s) (.error e', s)
  | made {a b : α} (h : f a = .ok b) (s : BindState) : Followed f (.ok a, s) (.ok b, s)
  | overflow {r : Result α} (h : ∀ a, r = .ok a → ∃ e, f a = .error e) (s : BindState) :
    Followed f (r, s) (r, { s with overflow := true })

def Follows {α : Type} (c : BindContext) (f : α → Except Overflow α) (x y : BindM α) : Prop :=
  ∀ s, Followed f (x.start c s) (y.start c s)

namespace Follows

variable {α β : Type} {c : BindContext} {x y : BindM α} {f : α → Except Overflow α}

theorem same (h : ∀ s, Yields x c s fun a _ => f a = .ok a) : Follows c f x x := by
  intro s
  rcases hx : x.start c s with ⟨e | a, s'⟩
  · exact .failed e e s'
  · exact .made (h s a s' hx) s'

theorem after {f : β → Except Overflow β} {g h : α → BindM β} (hgh : ∀ a, Follows c f (g a) (h a)) :
    Follows c f (x >>= g) (x >>= h) := by
  intro s
  rw [start_bind, start_bind]
  rcases x.start c s with ⟨e | a, s'⟩
  · exact .failed e e s'
  · exact hgh a s'

theorem check {f : β → Except Overflow β} {p : Prop} [Decidable p] {e : PlanError}
    {g h : α → BindM β} {x y : BindM β} (hxy : Follows c f x y) :
    Follows c f (if p then (throw e : BindM α) >>= g else x) (if p then throw e >>= h else y) := by
  split
  · exact fun s => .failed e e s
  · exact hxy

theorem map {f' : β → Except Overflow β} (h : Follows c f x y) {g : α → β}
    (hg : ∀ a, f' (g a) = (f a).map g) : Follows c f' (do return g (← x)) (do return g (← y)) := by
  intro s
  rw [start_bind, start_bind]
  generalize hx : x.start c s = r, hy : y.start c s = r'
  have hxy := h s
  rw [hx, hy] at hxy
  cases hxy with
  | failed e e' s' => exact .failed e e' s'
  | @made a b hb s' => exact .made (by rw [hg, hb]; rfl) s'
  | @overflow r hr s' =>
    cases r with
    | error e => exact .overflow nofun s'
    | ok a =>
      refine .overflow (r := .ok (g a)) ?_ s'
      rintro _ ⟨⟩
      obtain ⟨e, he⟩ := hr a rfl
      exact ⟨e, by rw [hg, he]; rfl⟩

end Follows

def QueryPlan.mapRoot (f : Plan → Except Overflow Plan) (q : QueryPlan) :
    Except Overflow QueryPlan :=
  (f q.root).map fun root => { q with root }

def RootNode.mapPlan (f : Plan → Except Overflow Plan) : RootNode → Except Overflow RootNode
  | .select q => (q.mapRoot f).map .select
  | .insert entity columns q => (q.mapRoot f).map (.insert entity columns)
  | .update entity primaryKey columns q => (q.mapRoot f).map (.update entity primaryKey columns)
  | .delete entity primaryKey q => (q.mapRoot f).map (.delete entity primaryKey)
  | node => .ok node

theorem Plan.Improved.validateSpools_iff {o : Options} {p q : Plan} (h : p.Improved o q) :
    q.validateSpools = .ok () ↔ p.validateSpools = .ok () := by
  obtain rfl | h := h
  · exact Iff.rfl
  · exact CachingPolicy.validateSpools_insertSpools h

section

variable {c : BindContext} (hints : Hints)

theorem QueryPlan.follows_finish (q : QueryPlan) :
    Follows c (mapRoot (Plan.improve c.options.passes))
      (q.finish { hints with noPerformanceSpool := true })
      (q.finish { hints with noPerformanceSpool := false }) := by
  intro s
  unfold finish
  rw [start_read_bind, start_read_bind, start_bind, start_bind, start_counted, start_counted]
  simp only [Bool.false_eq_true, if_false, if_true]
  cases himprove : q.root.improve c.options.passes with
  | ok root =>
    have hiff := (Plan.improved_of_improve himprove).validateSpools_iff
    simp only [Except.toOption, Option.getD_some, Option.isNone_some, Bool.or_false]
    rw [start_bind, start_bind, start_lift, start_lift]
    rcases hspools : root.validateSpools with e | ⟨⟩ <;> rcases hplain :
      q.root.validateSpools with e' | ⟨⟩
    · exact .failed e' e s
    · cases hspools.symm.trans (hiff.2 hplain)
    · cases hplain.symm.trans (hiff.1 hspools)
    · exact .made (by rw [mapRoot, himprove]; rfl) s
  | error e =>
    simp only [Except.toOption, Option.getD_some, Option.getD_none, Option.isNone_some,
      Option.isNone_none, Bool.or_false, Bool.or_true]
    rw [start_bind, start_bind, start_lift, start_lift]
    rcases q.root.validateSpools with e' | ⟨⟩
    · exact .overflow (by rintro _ ⟨⟩) s
    · refine .overflow (r := .ok q) ?_ s
      rintro _ ⟨⟩
      exact ⟨e, by rw [mapRoot, himprove]; rfl⟩

theorem yields_createTable (create : Sql.CreateTable) (f : Plan → Except Overflow Plan)
    (s : BindState) : Yields (createTable create) c s fun node _ => node.mapPlan f = .ok node :=
  .check fun _ => .check fun _ => .bind .any fun _ _ _ => .check fun _ => .bind .any fun _ _ _ =>
    .bind .any fun _ _ _ => .pure rfl

theorem yields_dropTables (ifExists : Bool) (names : List Sql.ObjectName)
    (f : Plan → Except Overflow Plan) (s : BindState) :
    Yields (dropTables ifExists names) c s fun nodes _ => nodes.mapM (·.mapPlan f) = .ok nodes := by
  induction names generalizing s with
  | nil => exact .pure rfl
  | cons object rest ih =>
    refine .check fun _ => .bind .any fun s _ _ => ?_
    dsimp only
    split
    · exact .bind .any fun _ s _ => (ih s).bind fun nodes _ h =>
        .pure (by rw [List.mapM_cons, h]; rfl)
    · exact .ite (fun _ => ih _) fun _ => .throw

variable (b : QueryBinder)

theorem follows_insert (i : Sql.Insert) :
    Follows c (RootNode.mapPlan (Plan.improve c.options.passes))
      (b.insert { hints with noPerformanceSpool := true } i)
      (b.insert { hints with noPerformanceSpool := false } i) := by
  unfold QueryBinder.insert
  refine .after fun target => .after fun columns => ?_
  split
  · exact .same fun _ => .throw
  · exact .after fun bound =>
      .check (.after fun _ => .map (bound.plan.follows_finish hints) fun _ => rfl)

theorem follows_update (u : Sql.Update) :
    Follows c (RootNode.mapPlan (Plan.improve c.options.passes))
      (b.update { hints with noPerformanceSpool := true } u)
      (b.update { hints with noPerformanceSpool := false } u) := by
  unfold QueryBinder.update
  exact .check (.check (.after fun rows => .after fun context => .after fun entity =>
    .after fun targets => .after fun k => .after fun bound =>
    .map (QueryPlan.follows_finish hints _) fun _ => rfl))

theorem follows_delete (d : Sql.Delete) :
    Follows c (RootNode.mapPlan (Plan.improve c.options.passes))
      (b.delete { hints with noPerformanceSpool := true } d)
      (b.delete { hints with noPerformanceSpool := false } d) := by
  unfold QueryBinder.delete
  refine .check ?_
  split
  · exact .after fun rows => .map (QueryPlan.follows_finish hints _) fun _ => rfl
  · exact .same fun _ => .throw

theorem follows_statement (statement : Sql.Statement) :
    Follows c (List.mapM (RootNode.mapPlan (Plan.improve c.options.passes)))
      (b.statement { hints with noPerformanceSpool := true } statement)
      (b.statement { hints with noPerformanceSpool := false } statement) := by
  have hsingle (node : RootNode) : [node].mapM (RootNode.mapPlan (Plan.improve c.options.passes)) =
      (node.mapPlan (Plan.improve c.options.passes)).map ([·]) := by
    cases h : node.mapPlan (Plan.improve c.options.passes) <;> simp [h] <;> rfl
  cases statement with
  | query q =>
    refine .after fun bound => .map (bound.plan.follows_finish hints)
      fun plan => (hsingle _).trans ?_
    change Except.map _ (Except.map _ (plan.mapRoot _)) = _
    cases plan.mapRoot (Plan.improve c.options.passes) <;> rfl
  | insert i => exact .map (follows_insert hints b i) hsingle
  | update u => exact .map (follows_update hints b u) hsingle
  | delete d => exact .map (follows_delete hints b d) hsingle
  | createTable create => exact .map (.same (yields_createTable create _)) hsingle
  | drop d =>
    rw [QueryBinder.statement, QueryBinder.statement]
    exact .same fun _ => .ite (fun _ => yields_dropTables _ _ _ _) fun _ => .throw
  | other headline =>
    rw [QueryBinder.statement, QueryBinder.statement]
    exact .same fun _ => .throw

end

/-- Caching leaves the schedule of a plan as it is: the plan with caches is in order exactly where
the plan without them is. No number of a spool is given away twice that was not before, and whatever
spools are filled around the plan, its consumers find theirs among them or do not as before. Where
the counts of the plan leave room there is such a plan. -/
theorem spoolInsertion_keeps_schedule (o : Options) (p : Plan) :
    (∀ q, (PlanPass.spoolInsertion o).run p = .ok q →
      (q.validateSpools = .ok () ↔ p.validateSpools = .ok ()) ∧
      (q.producers.Nodup ↔ p.producers.Nodup) ∧
      ∀ available, q.checkConsumers available = .ok () ↔ p.checkConsumers available = .ok ()) ∧
    (p.Countable → ∃ q, (PlanPass.spoolInsertion o).run p = .ok q) :=
  ⟨fun _ hq => ⟨CachingPolicy.validateSpools_insertSpools hq,
    CachingPolicy.nodup_producers_insertSpools hq,
    CachingPolicy.checkConsumers_insertSpools hq⟩, CachingPolicy.exists_insertSpools _⟩

theorem loopedScans_keeps_schedule :
    ∃ q, (PlanPass.spoolInsertion {}).run loopedScans = .ok q ∧ q.validateSpools = .ok () := by
  obtain ⟨hschedule, hcount⟩ := spoolInsertion_keeps_schedule {} loopedScans
  obtain ⟨q, hq⟩ := hcount countable_loopedScans
  exact ⟨q, hq, (hschedule q hq).1.2 rfl⟩

/-- The rows of a table many times over, and for each of them those with the same key. -/
def loopedUnion : String :=
  "SELECT x.k FROM (SELECT TOP (9223372036854775807) k FROM t UNION ALL " ++
    "SELECT TOP (9223372036854775807) k FROM t UNION ALL SELECT TOP (3) k FROM t) x " ++
    "CROSS APPLY (SELECT c.k FROM t c WHERE c.k = x.k) y"

def loopedTable : BuildInput where
  catalog := { entities := [.new "t" "k"] }

def QueryPlan.breaksOff (q : QueryPlan) : Bool :=
  q.root.validateSpools.toOption.isSome && ((PlanPass.spoolInsertion {}).run q.root).toOption.isNone

theorem hintedUnion_breaksOff :
    (loopedTable.build (loopedUnion ++ " OPTION (NO_PERFORMANCE_SPOOL)")).toOption.any fun roots =>
      roots.any fun root => root.node.plan?.any QueryPlan.breaksOff := by
  decide +kernel

theorem loopedUnion_overflows : loopedTable.overflows loopedUnion := by
  decide +kernel

/-- A plan is in order, and there is none with spools: the bounds of its rows go beyond a word. -/
theorem loopedUnion_breaks_off :
    (∃ roots root plan, loopedTable.build (loopedUnion ++ " OPTION (NO_PERFORMANCE_SPOOL)") =
      .ok roots ∧ root ∈ roots ∧ root.node.plan? = some plan ∧ plan.root.validateSpools = .ok () ∧
      ∀ q, (PlanPass.spoolInsertion {}).run plan.root ≠ .ok q) ∧
    loopedTable.build loopedUnion = .error .overflow := by
  constructor
  · obtain ⟨roots, root, plan, hroots, hroot, hplan, h⟩ :=
      loopedTable.exists_plan_of_any _ _ hintedUnion_breaksOff
    rw [QueryPlan.breaksOff, Bool.and_eq_true] at h
    obtain ⟨hvalid, hnone⟩ := h
    refine ⟨roots, root, plan, hroots, hroot, hplan, ?_, fun q hq => ?_⟩
    · cases hspools : plan.root.validateSpools with
      | ok => rfl
      | error e =>
        rw [hspools] at hvalid
        cases hvalid
    · rw [hq] at hnone
      cases hnone
  · exact BuildInput.build_of_overflows loopedUnion_overflows

end BatchPlan
