import BatchPlan.Proofs.Binding.Tame
import BatchPlan.Proofs.Correlation.Booking

namespace BatchPlan

namespace QueryBinder

/-- After a query the surroundings are those before it, whether it was bound or failed, at whatever
depth. Names may have been given out, and columns of the enclosing queries may have been booked. -/
theorem query_leaves_surroundings (depth : Nat) (q : Sql.Query) (outer : List Level)
    (before : Desk) :
    ∃ outcome after, ((ofDepth depth).query q outer).act.run.run before = (outcome, after) ∧
      after.context = before.context ∧
      after.state.session = before.state.session ∧
      after.state.declared = before.state.declared ∧
      before.state.names.exprs ≤ after.state.names.exprs ∧
      before.state.names.segments ≤ after.state.names.segments ∧
      before.state.names.spools ≤ after.state.names.spools ∧
      (outer.length ≤ before.state.captured.length + 1 →
        Grew (Offered outer.tail) before.state.captured after.state.captured) := by
  obtain ⟨c, s⟩ := before
  obtain ⟨outcome, s', h⟩ : ∃ outcome s', ((ofDepth depth).query q outer).start c s =
    (outcome, s') := ⟨_, _, rfl⟩
  have hrun := BindM.run_act ((ofDepth depth).query q outer) c s
  rw [h] at hrun
  have hkeeps := (((isTame_ofDepth depth).query q outer).of_start c s outcome s' h).1
  refine ⟨outcome, ⟨c, s'⟩, hrun, rfl, hkeeps.session, hkeeps.declared, hkeeps.exprs,
    hkeeps.segments, hkeeps.spools, fun hlevels => ?_⟩
  have hstart : Bookings.Fits ⟨Offered outer.tail, c.rowParams, s.captured⟩ c s :=
    ⟨List.Subset.refl _, rfl⟩
  have haround : Account.correlation.Around ⟨Offered outer.tail, c.rowParams, s.captured⟩ outer :=
    ⟨hlevels, fun _ _ => offered_tail.2⟩
  obtain ⟨w, hw, hs', -⟩ :=
    ((binds_ofDepth Logic.roams_correlation depth).query q haround).of_start c s outcome s' hstart h
  change Grew _ s.captured s'.captured
  rw [hs'.lists]
  exact hw.2.2

def failingRecursion : Sql.Query :=
  match Sql.parseStatement
    ("WITH r AS (SELECT 1 AS n UNION ALL SELECT n + 1 FROM r WHERE missing < 3) " ++
      "SELECT n FROM r") with
  | .ok (.query q) => q
  | _ => default

def innerPlace : BindContext :=
  { catalog := {}, options := {}, recursionHint := some 7,
    ctes := [⟨"t", [], failingRecursion, []⟩],
    recursive := [⟨"u", [⟨"n", .int32, true, "@Expr1"⟩]⟩], depth := 1 }

theorem failingRecursion_leaves_surroundings :
    ∃ e s', ((ofDepth 4).query failingRecursion [{ schema := .empty }]).act.run.run
        ⟨innerPlace, { session := .empty, captured := [[]] }⟩ = (.error e, ⟨innerPlace, s'⟩) ∧
      0 < s'.names.exprs ∧ Grew (Offered []) [[]] s'.captured := by
  have hrun : (((ofDepth 4).query failingRecursion [{ schema := .empty }]).start innerPlace
      { session := .empty, captured := [[]] }).1.toOption.isNone ∧
      0 < (((ofDepth 4).query failingRecursion [{ schema := .empty }]).start innerPlace
        { session := .empty, captured := [[]] }).2.names.exprs := by decide +kernel
  obtain ⟨outcome, ⟨c', s'⟩, h, hcontext, -, -, -, -, -, hgrew⟩ := query_leaves_surroundings 4
    failingRecursion [{ schema := .empty }] ⟨innerPlace, { session := .empty, captured := [[]] }⟩
  cases hcontext
  rw [BindM.start, h] at hrun
  cases outcome with
  | ok bound => simp [Except.toOption] at hrun
  | error e => exact ⟨e, s', h, hrun.2, hgrew (by simp)⟩

end QueryBinder

end BatchPlan
