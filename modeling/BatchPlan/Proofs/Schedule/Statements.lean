import BatchPlan.Proofs.Caching.Statements
import BatchPlan.Proofs.Schedule.Plans

namespace BatchPlan

namespace Plan

variable {p : Plan} {around : List Nat}

/-- The inputs of an operator, each with the spools that the operator has filled before the input
runs: a spool fills itself from its input, and a nested loop runs its left side first. -/
def supplied : Plan → List (List Nat × Plan)
  | .spool id input _ _ => [([id], input)]
  | .join left right spec => [([], left), (JoinStrategy.offers spec.strategy left, right)]
  | p => p.children.map fun child => ([], child)

/-- An operator stands in a plan where the operators above it have filled some spools. -/
inductive Supplies : List Nat → Plan → Plan → Prop
  | top (p : Plan) : Supplies [] p p
  | inside {p input q : Plan} {own filled : List Nat} (hinput : (own, input) ∈ p.supplied)
    (hq : Supplies filled input q) : Supplies (own ++ filled) p q

theorem checkConsumers_eq : p.checkConsumers around = .ok () ↔
    (∀ id ∈ p.consumed?, id ∈ around) ∧
      ∀ i ∈ p.supplied, i.2.checkConsumers (i.1 ++ around) = .ok () := by
  cases p with
  | consumer id schema =>
    by_cases h : id ∈ around <;> simp [checkConsumers, consumed?, supplied, children, h]
  | spool => simp [checkConsumers, consumed?, supplied]
  | join => simp [checkConsumers_join, consumed?, supplied]
  | _ =>
    rw [checkConsumers_of_isPlain rfl]
    simp [consumed?, supplied]

theorem mem_children_of_supplied {i : List Nat × Plan} (h : i ∈ p.supplied) : i.2 ∈ p.children := by
  cases p with
  | spool | join => simp [supplied, children] at h ⊢; grind
  | _ => obtain ⟨child, hchild, rfl⟩ := List.mem_map.1 h; exact hchild

theorem checkConsumers_eq_ok : p.checkConsumers around = .ok () ↔
    ∀ filled id schema, Supplies filled p (.consumer id schema) → id ∈ filled ++ around := by
  induction p using byChildren generalizing around with
  | step p ih =>
    rw [checkConsumers_eq]
    constructor
    · rintro ⟨hown, hinputs⟩ filled id schema hid
      cases hid with
      | top => exact hown id rfl
      | inside hinput hq =>
        have := (ih _ (mem_children_of_supplied hinput)).1 (hinputs _ hinput) _ _ _ hq
        grind
    · intro h
      refine ⟨fun id hid => ?_, fun i hi => (ih _ (mem_children_of_supplied hi)).2
        fun filled id schema hq => ?_⟩
      · cases p with
        | consumer =>
          cases hid
          exact h [] _ _ (.top _)
        | _ => cases hid
      · have := h _ _ _ (.inside hi hq)
        grind

end Plan

/-- A plan in order is finished without a fault, and at most an overflow is noted. -/
theorem QueryPlan.exists_start_finish {q : QueryPlan} (h : q.root.validateSpools = .ok ())
    (hints : Hints) (c : BindContext) (s : BindState) :
    ∃ finished overflow, (q.finish hints).start c s = (.ok finished, { s with overflow }) := by
  have hroot : ((if hints.noPerformanceSpool then .ok q.root
      else q.root.improve c.options.passes).toOption.getD q.root).validateSpools = .ok () := by
    cases hroot :
      (if hints.noPerformanceSpool then .ok q.root else q.root.improve c.options.passes :
        Except Overflow Plan) with
    | error e => exact h
    | ok root => exact (Plan.improved_of_ite hroot).validateSpools_iff.2 h
  unfold finish
  rw [BindM.start_read_bind, BindM.start_bind, BindM.start_counted]
  dsimp only
  rw [BindM.start_bind, BindM.start_lift, hroot]
  exact ⟨_, _, rfl⟩

theorem Draft.exists_start_finish {d : Draft} (h : d.plan.root.validateSpools = .ok ())
    (hints : Hints) (c : BindContext) (s : BindState) :
    ∃ root overflow, (d.finish hints).start c s = (.ok root, { s with overflow }) := by
  obtain ⟨finished, overflow, hfinish⟩ := QueryPlan.exists_start_finish h hints c s
  unfold finish
  rw [BindM.start_bind_ok hfinish]
  exact ⟨_, _, rfl⟩

theorem exists_of_schedule {α : Type} {x : BindM α} {P : Nat → Nat → α → Prop}
    (h : ∀ n : Nat, Logic.schedule.Holds n x fun a m => P n m a) {c : BindContext}
    {s s' : BindState} {a : α} (hx : x.start c s = (.ok a, s')) : ∃ n m, P n m a := by
  obtain ⟨m, -, -, ha⟩ := (h s.names.spools).of_start c s _ s' rfl hx
  exact ⟨_, m, ha a rfl⟩

namespace QueryBinder

/-- The binder schedules its own spools. A query bound at any depth, in any surroundings, has each
spool once, and each consumer stands where its spool is filled: in the input of the spool, or on the
right of a nested loop that has the spool on its left. So the plans of queries, statements and
values are finished without a fault, and only an overflow can come of it. -/
theorem bound_plans_schedule_spools (depth : Nat) :
    (∀ q levels c s bound s', ((ofDepth depth).query q levels).start c s = (.ok bound, s') →
      bound.plan.root.validateSpools = .ok () ∧ bound.plan.root.producers.Nodup ∧
      (∀ filled id schema, Plan.Supplies filled bound.plan.root (.consumer id schema) →
        id ∈ filled) ∧
      ∀ hints c s, ∃ finished overflow,
        (bound.plan.finish hints).start c s = (.ok finished, { s with overflow })) ∧
    (∀ statement draft, (ofDepth depth).draft? statement = some draft → ∀ hints,
      (ofDepth depth).statement hints statement = (do return [← (← draft).finish hints]) ∧
      ∀ c s d s', draft.start c s = (.ok d, s') →
        ∃ root overflow, (d.finish hints).start c s' = (.ok root, { s' with overflow })) ∧
    ∀ e bind, bind = Scope.bindChecked ∨ bind = Scope.bindPredicate →
      (ofDepth depth).valuePlan e bind = (do (← (ofDepth depth).valueDraft e bind).finish {}) ∧
      ∀ c s q s', ((ofDepth depth).valueDraft e bind).start c s = (.ok q, s') →
        ∃ finished overflow, (q.finish {}).start c s' = (.ok finished, { s' with overflow }) := by
  have hL := Logic.roams_schedule
  have hb := binds_ofDepth hL depth
  refine ⟨fun q levels c s bound s' h => ?_, fun statement draft hdraft hints =>
    ⟨statement_eq _ hdraft hints, fun c s d s' h => ?_⟩, fun e bind hbind =>
    ⟨valuePlan_eq _ e bind, fun c s q s' h => ?_⟩⟩
  · have hquery (n : Nat) : Logic.schedule.Holds n ((ofDepth depth).query q levels) fun bound m =>
        Logic.schedule.Answers n m levels bound := hb.query q trivial
    obtain ⟨_, _, hbound⟩ := exists_of_schedule hquery h
    have hroot : bound.plan.root.Scheduled _ _ := hbound.rows
    refine ⟨hroot.validateSpools, hroot.nodup, fun filled id schema hid => ?_, fun hints c s => ?_⟩
    · simpa using Plan.checkConsumers_eq_ok.1 (hroot.ready []) filled id schema hid
    · exact QueryPlan.exists_start_finish hroot.validateSpools hints c s
  · obtain ⟨_, _, hroot, -⟩ := exists_of_schedule
      (fun n => holds_draft (w := n) hL hb InsertTarget.stays_find hdraft) h
    exact Draft.exists_start_finish hroot.validateSpools hints c s'
  · have hvalue : ∀ {s : Scope} {w : Nat}, s.Fits .schedule w →
        Logic.schedule.Holds w (bind s e) fun value w' => Logic.schedule.Value w' value := by
      intro s w hs
      rcases hbind with rfl | rfl
      · exact Scope.holds_bindChecked (L := .schedule) hs e
      · exact Scope.holds_bindPredicate (L := .schedule) hs e
    obtain ⟨_, _, hroot⟩ := exists_of_schedule (fun n => holds_valueDraft (w := n) hL hb e hvalue) h
    exact QueryPlan.exists_start_finish hroot.validateSpools {} c s'

def countedSums : Sql.Query :=
  match Sql.parseStatement
    ("WITH r AS (SELECT 1 AS n UNION ALL SELECT n + 1 FROM r WHERE n < 3) " ++
      "SELECT n, SUM(n) OVER () FROM r") with
  | .ok (.query q) => q
  | _ => default

theorem countedSums_schedules_spools :
    ∃ bound s', ((ofDepth 4).query countedSums []).start { catalog := {}, options := {} }
        { session := .empty } = (.ok bound, s') ∧
      bound.plan.root.consumed.length = 3 ∧ bound.plan.root.producers.Nodup ∧
      ∀ filled id schema, Plan.Supplies filled bound.plan.root (.consumer id schema) →
      id ∈ filled := by
  have h := BindM.start_eq_value (x := (ofDepth 4).query countedSums [])
    (c := { catalog := {}, options := {} }) (s := { session := .empty }) (by decide +kernel)
  obtain ⟨-, hnodup, hready, -⟩ := (bound_plans_schedule_spools 4).1 _ _ _ _ _ _ h
  exact ⟨_, _, h, by decide +kernel, hnodup, hready⟩

end QueryBinder

end BatchPlan
