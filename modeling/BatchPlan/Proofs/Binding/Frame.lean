import BatchPlan.Proofs.Binding.Operands
import BatchPlan.Proofs.Binding.Run
import Mathlib.Order.Defs.Unbundled

namespace BatchPlan

/-- The session and the variables stay, and names are only added. -/
structure BindState.Keeps (s s' : BindState) : Prop where
  session : s'.session = s.session
  declared : s'.declared = s.declared
  exprs : s.names.exprs ≤ s'.names.exprs
  segments : s.names.segments ≤ s'.names.segments
  spools : s.names.spools ≤ s'.names.spools

namespace BindState

instance : IsPreorder BindState Keeps where
  refl _ := ⟨rfl, rfl, Nat.le_refl _, Nat.le_refl _, Nat.le_refl _⟩
  trans _ _ _ h h' := ⟨h'.session.trans h.session, h'.declared.trans h.declared,
    Nat.le_trans h.exprs h'.exprs, Nat.le_trans h.segments h'.segments,
    Nat.le_trans h.spools h'.spools⟩

theorem Keeps.of_captured {s s' : BindState} {captured captured' : List (List Captured)}
    (h : Keeps { s with captured } s') : Keeps s { s' with captured := captured' } :=
  ⟨h.session, h.declared, h.exprs, h.segments, h.spools⟩

end BindState

/-- Whatever comes of an action, the state changes as `R` allows and a failure has a reason. -/
structure Obeys {α : Type} (R : BindState → BindState → Prop) (x : BindM α) : Prop where
  of_start : ∀ c s r s', x.start c s = (r, s') → R s s' ∧ Reasoned r

abbrev Tame {α : Type} (x : BindM α) : Prop := Obeys BindState.Keeps x

namespace Obeys

open BindM

variable {α β : Type} {R : BindState → BindState → Prop} {x : BindM α}
    {f : α → BindM β} {r : Result α}
  {p : Prop}

theorem exprs_le (h : Tame x) {c : BindContext} {s s' : BindState} (hx : x.start c s = (r, s')) :
    s.names.exprs ≤ s'.names.exprs :=
  (h.of_start c s r s' hx).1.exprs

theorem mono {R' : BindState → BindState → Prop} (h : Obeys R x) (hR : ∀ s s', R s s' → R' s s') :
    Obeys R' x where
  of_start c s r s' hx := ⟨hR s s' (h.of_start c s r s' hx).1, (h.of_start c s r s' hx).2⟩

theorem effect {g : BindState → α × BindState} (hg : ∀ s, R s (g s).2) :
    Obeys R (modifyGet g : BindM α) := by
  refine ⟨?_⟩
  rintro c s r s' ⟨⟩
  exact ⟨hg s, reasoned_ok _⟩

theorem ite [Decidable p] {y : BindM α} (hx : Obeys R x) (hy : Obeys R y) :
    Obeys R (if p then x else y) := by
  split
  · exact hx
  · exact hy

variable [IsPreorder BindState R]

theorem lift (hr : Reasoned r) : Obeys R (liftM r : BindM α) := by
  refine ⟨fun c s r' s' h => ?_⟩
  rw [start_lift] at h
  cases h
  exact ⟨refl s, hr⟩

theorem pure (a : α) : Obeys R (pure a : BindM α) :=
  lift (reasoned_ok a)

theorem throw {e : PlanError} (he : e.flatten ≠ []) : Obeys R (throw e : BindM α) :=
  lift ((reasoned_error e).2 he)

theorem read : Obeys R (read : BindM BindContext) := by
  refine ⟨?_⟩
  rintro c s r s' ⟨⟩
  exact ⟨refl s, reasoned_ok c⟩

theorem get : Obeys R (get : BindM BindState) := by
  refine ⟨?_⟩
  rintro c s r s' ⟨⟩
  exact ⟨refl s, reasoned_ok s⟩

theorem bind (hx : Obeys R x) (hf : ∀ a, Obeys R (f a)) : Obeys R (x >>= f) := by
  refine ⟨fun c s r s' h => ?_⟩
  obtain ⟨e, hrun, rfl⟩ | ⟨a, s₁, hrun, h⟩ := cases_of_start_bind h
  · obtain ⟨hstate, hreason⟩ := hx.of_start c s _ s' hrun
    exact ⟨hstate, (reasoned_error e).2 (hreason e rfl)⟩
  · obtain ⟨hstate, -⟩ := hx.of_start c s _ s₁ hrun
    obtain ⟨hstate', hreason⟩ := (hf a).of_start c s₁ r s' h
    exact ⟨IsTrans.trans _ _ _ hstate hstate', hreason⟩

theorem map (g : α → β) (hx : Obeys R x) : Obeys R (g <$> x) := by
  rw [map_eq_pure_bind]
  exact hx.bind fun a => .pure (g a)

theorem discard (hx : Obeys R x) : Obeys R (discard x) :=
  hx.map _

theorem check [Decidable p] {y : BindM β} {e : PlanError} (he : e.flatten ≠ []) (hy : Obeys R y) :
    Obeys R (if p then (MonadExcept.throw e : BindM α) >>= f else y) := by
  split
  · exact .throw he
  · exact hy

theorem mapM (hf : ∀ a, Obeys R (f a)) (xs : List α) : Obeys R (xs.mapM f) := by
  induction xs with
  | nil => exact .pure []
  | cons a xs ih =>
    rw [List.mapM_cons]
    exact (hf a).bind fun b => ih.bind fun bs => .pure (b :: bs)

theorem optionMapM (hf : ∀ a, Obeys R (f a)) (o : Option α) : Obeys R (o.mapM f) := by
  cases o with
  | none => exact .pure none
  | some a => exact (hf a).map some

end Obeys

namespace BindM

variable {α : Type}

theorem tame_overflow : Tame (modify fun s : BindState =>
    { s with overflow := true } : BindM PUnit) :=
  .effect fun _ => ⟨rfl, rfl, Nat.le_refl _, Nat.le_refl _, Nat.le_refl _⟩

theorem tame_counted (otherwise : α) (r : Except Overflow α) : Tame (counted otherwise r) := by
  cases r with
  | ok a => exact .pure a
  | error e => exact tame_overflow.bind fun _ => .pure otherwise

theorem tame_freshExpr : Tame freshExpr :=
  .effect fun _ => ⟨rfl, rfl, Nat.le_succ _, Nat.le_refl _, Nat.le_refl _⟩

theorem tame_freshParam : Tame freshParam :=
  tame_freshExpr.bind fun _ => .pure _

theorem tame_freshSegment : Tame freshSegment :=
  .effect fun _ => ⟨rfl, rfl, Nat.le_refl _, Nat.le_succ _, Nat.le_refl _⟩

theorem tame_freshSpool : Tame freshSpool :=
  .effect fun _ => ⟨rfl, rfl, Nat.le_refl _, Nat.le_refl _, Nat.le_succ _⟩

theorem tame_absorb (inner : List Captured) : Tame (absorb inner) := by
  refine .effect fun s => ?_
  dsimp only
  split
  · exact refl s
  · exact (refl s : BindState.Keeps s s).of_captured

end BindM

end BatchPlan
