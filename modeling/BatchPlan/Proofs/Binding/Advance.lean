import BatchPlan.Proofs.Binding.Run
import Mathlib.Data.List.Forall2
import Mathlib.Order.Defs.PartialOrder

namespace BatchPlan

open BindM

/-- From a state that fits the account `w`, an action leads to a state that fits a later account. If
it succeeds, its value is as stated. -/
structure Advances {α W : Type} [Preorder W] (Fits : W → BindContext → BindState → Prop) (w : W)
    (x : BindM α) (P : α → W → Prop) : Prop where
  of_start : ∀ c s r s', Fits w c s → x.start c s = (r, s') →
    ∃ w', w ≤ w' ∧ Fits w' c s' ∧ ∀ a, r = .ok a → P a w'

namespace Advances

variable {α β W : Type} [Preorder W] {Fits Fits' : W → BindContext → BindState → Prop}
    {w : W} {x : BindM α}
  {f : α → BindM β} {P P' : α → W → Prop} {Q : β → W → Prop} {xs : List α} {r : Result α} {p : Prop}

theorem mono (h : Advances Fits w x P) (hP : ∀ a w', w ≤ w' → P a w' → P' a w') :
    Advances Fits w x P' where
  of_start c s r s' hs hx := by
    obtain ⟨w', hw, hs', hok⟩ := h.of_start c s r s' hs hx
    exact ⟨w', hw, hs', fun a ha => hP a w' hw (hok a ha)⟩

theorem lift (h : ∀ a, r = .ok a → P a w) : Advances Fits w (liftM r) P where
  of_start c s r' s' hs hx := by
    rw [start_lift] at hx
    cases hx
    exact ⟨w, le_refl w, hs, h⟩

theorem pure {a : α} (h : P a w) : Advances Fits w (pure a) P :=
  lift fun _ ha => by
    cases ha
    exact h

theorem throw (e : PlanError) : Advances Fits w (throw e) P :=
  lift (r := .error e) nofun

theorem read : Advances Fits w read fun c w' => w' = w ∧ ∃ s, Fits w c s where
  of_start := by
    rintro c s r s' hs ⟨⟩
    refine ⟨w, le_refl w, hs, fun a ha => ?_⟩
    cases ha
    exact ⟨rfl, s, hs⟩

theorem get : Advances Fits w get fun s w' => w' = w ∧ ∃ c, Fits w c s where
  of_start := by
    rintro c s r s' hs ⟨⟩
    refine ⟨w, le_refl w, hs, fun a ha => ?_⟩
    cases ha
    exact ⟨rfl, c, hs⟩

theorem effect {g : BindState → α × BindState}
    (h : ∀ c s, Fits w c s → ∃ w', w ≤ w' ∧ Fits w' c (g s).2 ∧ P (g s).1 w') :
    Advances Fits w (modifyGet g) P where
  of_start := by
    rintro c s r s' hs ⟨⟩
    obtain ⟨w', hw, hs', hP⟩ := h c s hs
    refine ⟨w', hw, hs', fun a ha => ?_⟩
    cases ha
    exact hP

theorem bind (hx : Advances Fits w x P) (hf : ∀ a w', w ≤ w' → P a w' → Advances Fits w' (f a) Q) :
    Advances Fits w (x >>= f) Q where
  of_start c s r s' hs h := by
    obtain ⟨e, hrun, rfl⟩ | ⟨a, s₁, hrun, h⟩ := cases_of_start_bind h
    · obtain ⟨w', hw, hs', -⟩ := hx.of_start c s _ s' hs hrun
      exact ⟨w', hw, hs', nofun⟩
    · obtain ⟨w₁, hw₁, hs₁, hP⟩ := hx.of_start c s _ s₁ hs hrun
      obtain ⟨w', hw, hs', hQ⟩ := (hf a w₁ hw₁ (hP a rfl)).of_start c s₁ r s' hs₁ h
      exact ⟨w', le_trans hw₁ hw, hs', hQ⟩

theorem lookupVariable (name : String) :
    Advances Fits w (BindM.lookupVariable name) fun _ w' => w' = w ∧ True := by
  refine get.bind fun s w' _ h => ?_
  obtain ⟨rfl, -⟩ := h
  split
  · exact .pure ⟨rfl, trivial⟩
  · exact .throw _

theorem tempTable (name : String) :
    Advances Fits w (BindM.tempTable name) fun _ w' => w' = w ∧ True := by
  refine get.bind fun s w' _ h => ?_
  obtain ⟨rfl, -⟩ := h
  dsimp only
  split
  · exact .pure ⟨rfl, trivial⟩
  · exact .throw _

theorem test (hf : ∀ a, r = .ok a → Advances Fits w (f a) Q) : Advances Fits w (liftM r >>= f) Q :=
  (lift (P := fun a w' => w' = w ∧ r = .ok a) fun _ ha => ⟨rfl, ha⟩).bind
    fun a _ _ h => h.1 ▸ hf a h.2

theorem consult {f : BindContext → BindM β} (hf : ∀ c s, Fits w c s → Advances Fits w (f c) Q) :
    Advances Fits w (MonadReader.read >>= f) Q :=
  read.bind fun c _ _ ⟨h, s, hs⟩ => h ▸ hf c s hs

theorem map {g : α → β} (hx : Advances Fits w x P) (hg : ∀ a w', w ≤ w' → P a w' → Q (g a) w') :
    Advances Fits w (g <$> x) Q := by
  rw [map_eq_pure_bind]
  exact hx.bind fun a w' hw ha => .pure (hg a w' hw ha)

theorem ite [Decidable p] {y : BindM α} (hx : p → Advances Fits w x P)
    (hy : ¬ p → Advances Fits w y P) : Advances Fits w (if p then x else y) P := by
  split
  next h => exact hx h
  next h => exact hy h

theorem check [Decidable p] {y : BindM β} {e : PlanError} (hy : ¬ p → Advances Fits w y Q) :
    Advances Fits w (if p then (MonadExcept.throw e : BindM α) >>= f else y) Q :=
  .ite (fun _ => .throw e) hy

theorem withReader {g : BindContext → BindContext} (hx : Advances Fits' w x P)
    (hin : ∀ c s, Fits w c s → Fits' w (g c) s)
    (hout : ∀ w' c s, Fits' w' (g c) s → Fits w' c s) : Advances Fits w (withReader g x) P where
  of_start c s r s' hs h := by
    obtain ⟨w', hw, hs', hok⟩ := hx.of_start (g c) s r s' (hin c s hs) h
    exact ⟨w', hw, hout w' c s' hs', hok⟩

theorem attempt (hx : Advances Fits w x P) :
    Advances Fits w (attempt x) fun r w' => ∀ a, r = .ok a → P a w' where
  of_start c s r s' hs h := by
    rw [start_attempt] at h
    cases h
    obtain ⟨w', hw, hs', hok⟩ := hx.of_start c s _ _ hs rfl
    refine ⟨w', hw, hs', fun a ha => ?_⟩
    cases ha
    exact hok

theorem rethrow {g : PlanError → BindM α} (hx : Advances Fits w x P)
    (hg : ∀ e, ∃ e', g e = MonadExcept.throw e') : Advances Fits w (tryCatch x g) P where
  of_start c s r s' hs h := by
    rw [start_tryCatch] at h
    rcases hrun : x.start c s with ⟨e | a, s₁⟩
    · obtain ⟨e', he'⟩ := hg e
      simp only [hrun, he'] at h
      cases h
      obtain ⟨w', hw, hs', -⟩ := hx.of_start c s _ _ hs hrun
      exact ⟨w', hw, hs', nofun⟩
    · rw [hrun] at h
      cases h
      exact hx.of_start c s _ _ hs hrun

/-- A query of its own. What it read of the query around it comes with the result. -/
theorem enclosed {E : Captured → W → Prop} (hx : Advances Fits' w x P)
    (hin : ∀ c s, Fits w c s → Fits' w c { s with captured := [] :: s.captured })
    (hout : ∀ w' c s, Fits' w' c s → Fits w' c { s with captured := s.captured.tail } ∧
      ∀ e ∈ s.captured.headD [], E e w') :
    Advances Fits w (enclosed x) fun r w' => P r.1 w' ∧ ∀ e ∈ r.2, E e w' where
  of_start c s r s' hs h := by
    rw [start_enclosed] at h
    cases h
    obtain ⟨w', hw, hs₁, hok⟩ := hx.of_start c _ _ _ (hin c s hs) rfl
    obtain ⟨hs', hE⟩ := hout w' c _ hs₁
    refine ⟨w', hw, hs', fun a ha => ?_⟩
    obtain ⟨v, hv, rfl⟩ := Result.exists_of_map ha
    exact ⟨hok v hv, hE⟩

theorem optionMapM {o : Option α} {Q : Option β → W → Prop} (hn : o = none → Q none w)
    (hf : ∀ a, o = some a → Advances Fits w (f a) fun b w' => Q (some b) w') :
    Advances Fits w (o.mapM f) Q := by
  cases o with
  | none => exact .pure (hn rfl)
  | some a => exact (hf a rfl).map fun _ _ _ hb => hb

end Advances

end BatchPlan
