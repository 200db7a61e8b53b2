import BatchPlan.Proofs.Binding.Frame
import BatchPlan.Proofs.Binding.Queries
import BatchPlan.Proofs.Binding.Vocabulary

namespace BatchPlan

variable {s₀ : BindState} {V : Vocabulary}

structure BindState.Shares (s s₀ : BindState) : Prop where
  session : s.session = s₀.session
  declared : s.declared = s₀.declared

theorem BindState.Keeps.shares {s s' : BindState} (h : s.Keeps s') (hs : s.Shares s₀) :
    s'.Shares s₀ :=
  ⟨h.session.trans hs.session, h.declared.trans hs.declared⟩

/-- An action that is tame among the variables and tables of a state, and its results satisfy
`F`. -/
structure Stable {α : Type} (s₀ : BindState) (x : BindM α) (F : α → Prop) : Prop where
  of_start : ∀ c s r s', s.Shares s₀ → x.start c s = (r, s') →
    (s.Keeps s' ∧ Reasoned r) ∧ ∀ a, r = .ok a → F a

section

variable {α : Type} {x : BindM α} {F : α → Prop}

theorem Obeys.stable (hx : Tame x) (hF : ∀ a, F a) : Stable s₀ x F where
  of_start c s r s' _ h := ⟨hx.of_start c s r s' h, fun a _ => hF a⟩

theorem Obeys.of_stable {F : BindState → α → Prop} (hx : ∀ s₀, Stable s₀ x (F s₀)) : Tame x where
  of_start c s r s' h := ((hx s).of_start c s r s' ⟨rfl, rfl⟩ h).1

end

namespace Stable

open BindM

variable {α β : Type} {s₀ : BindState} {x : BindM α} {f : α → BindM β} {F : α → Prop} {G : β → Prop}

theorem lift {r : Result α} (hr : Reasoned r) (h : ∀ a, r = .ok a → F a) :
    Stable s₀ (liftM r : BindM α) F where
  of_start c s r' s' _ hrun := by
    refine ⟨(Obeys.lift hr).of_start c s r' s' hrun, ?_⟩
    rw [start_lift] at hrun
    cases hrun
    exact h

theorem mono {F' : α → Prop} (h : Stable s₀ x F) (hF : ∀ a, F a → F' a) : Stable s₀ x F' where
  of_start c s r s' hs hrun :=
    (h.of_start c s r s' hs hrun).imp_right fun hr a ha => hF a (hr a ha)

theorem pure {a : α} (h : F a) : Stable s₀ (pure a : BindM α) F :=
  lift (r := .ok a) (reasoned_ok a) fun _ hb => Except.ok.inj hb ▸ h

theorem throw {e : PlanError} (he : e.flatten ≠ []) : Stable s₀ (throw e : BindM α) F :=
  lift (r := .error e) ((reasoned_error e).2 he) nofun

theorem bind (hx : Stable s₀ x F) (hf : ∀ a, F a → Stable s₀ (f a) G) : Stable s₀ (x >>= f) G where
  of_start c s r s' hs h := by
    obtain ⟨e, hrun, rfl⟩ | ⟨a, s₁, hrun, h⟩ := cases_of_start_bind h
    · obtain ⟨⟨hkeeps, hreason⟩, -⟩ := hx.of_start c s _ _ hs hrun
      exact ⟨⟨hkeeps, (reasoned_error e).2 (hreason e rfl)⟩, nofun⟩
    · obtain ⟨⟨hkeeps, -⟩, ha⟩ := hx.of_start c s _ _ hs hrun
      obtain ⟨⟨hkeeps', hreason⟩, hF⟩ := (hf a (ha a rfl)).of_start c s₁ r s' (hkeeps.shares hs) h
      exact ⟨⟨IsTrans.trans _ _ _ hkeeps hkeeps', hreason⟩, hF⟩

theorem rethrow {g : PlanError → PlanError} (hx : Stable s₀ x F)
    (hg : ∀ e, e.flatten ≠ [] → (g e).flatten ≠ []) :
    Stable s₀ (tryCatch x fun e => MonadExcept.throw (g e)) F where
  of_start c s r s' hs hrun := by
    rw [start_tryCatch] at hrun
    rcases hx' : x.start c s with ⟨e | a, s₁⟩
    · rw [hx'] at hrun
      cases hrun
      obtain ⟨⟨hkeeps, hreason⟩, -⟩ := hx.of_start c s _ _ hs hx'
      exact ⟨⟨hkeeps, (reasoned_error _).2 (hg e (hreason e rfl))⟩, nofun⟩
    · rw [hx'] at hrun
      cases hrun
      exact hx.of_start c s _ _ hs hx'

theorem attempt (hx : Stable s₀ x F) : Stable s₀ (attempt x) fun r => ∀ a, r = .ok a → F a where
  of_start c s r s' hs hrun := by
    rw [start_attempt] at hrun
    cases hrun
    obtain ⟨⟨hkeeps, -⟩, hF⟩ := hx.of_start c s _ _ hs rfl
    exact ⟨⟨hkeeps, reasoned_ok _⟩, fun _ h => Except.ok.inj h ▸ hF⟩

theorem counted {otherwise : α} {r : Except Overflow α} (h : ∀ a, r = .ok a → F a)
    (h' : F otherwise) : Stable s₀ (counted otherwise r) F := by
  cases r with
  | ok a => exact .pure (h a rfl)
  | error e =>
    exact .bind (tame_overflow.stable (F := fun _ => True) fun _ => trivial) fun _ _ => .pure h'

theorem read {f : BindContext → BindM β} (hf : ∀ c, Stable s₀ (f c) G) :
    Stable s₀ (read >>= f) G where
  of_start c := (hf c).of_start c

theorem withReader {g : BindContext → BindContext} (hx : Stable s₀ x F) :
    Stable s₀ (withReader g x) F where
  of_start c := hx.of_start (g c)

theorem get {f : BindState → BindM β} (hf : ∀ s, s.Shares s₀ → Stable s₀ (f s) G) :
    Stable s₀ (get >>= f) G where
  of_start c s r s' hs h := (hf s hs).of_start c s r s' hs h

theorem enclosed (hx : Stable s₀ x F) : Stable s₀ (enclosed x) fun r => F r.1 where
  of_start c s r s' hs h := by
    rw [start_enclosed] at h
    rcases hrun : x.start c { s with captured := [] :: s.captured } with ⟨r₁, s₁⟩
    rw [hrun] at h
    cases h
    have hinner : BindState.Shares { s with captured := [] :: s.captured } s₀ :=
      ⟨hs.session, hs.declared⟩
    obtain ⟨⟨hkeeps, hreason⟩, hF⟩ := hx.of_start c _ _ _ hinner hrun
    cases r₁ with
    | error e => exact ⟨⟨hkeeps.of_captured, (reasoned_error e).2 (hreason e rfl)⟩, nofun⟩
    | ok a => exact ⟨⟨hkeeps.of_captured, reasoned_ok _⟩, fun _ h => Except.ok.inj h ▸ hF a rfl⟩

theorem yields (hx : Stable s₀ x F) (c : BindContext) :
    Yields x c s₀ fun a s' => s'.Shares s₀ ∧ F a := by
  intro a s' h
  obtain ⟨⟨hkeeps, -⟩, hF⟩ := hx.of_start c s₀ _ s' ⟨rfl, rfl⟩ h
  exact ⟨hkeeps.shares ⟨rfl, rfl⟩, hF a rfl⟩

end Stable

/-- A vocabulary that has the variables and temporary tables of a state and all entities. -/
structure BindState.Provides (s₀ : BindState) (V : Vocabulary) : Prop where
  var : ∀ {name : String} {v : Variable}, s₀.declared.lookup (Text.lower name) = some v →
    V.var v.name v.dataType
  table : ∀ {name : String} {t : TempTable}, s₀.session.find? name = some t →
    ∀ relation, V.scan (t.scan relation)
  entity : ∀ (e : Entity) {source : ScanSource} (relation : String), source ≠ .tempTable →
    V.scan (e.scan source relation)

namespace BindM

variable {s₀ : BindState} {V : Vocabulary}

theorem stable_lookupVariable (hV : s₀.Provides V) (name : String) :
    Stable s₀ (lookupVariable name) fun v => V.var v.name v.dataType := by
  refine .get fun s hs => ?_
  rw [hs.declared]
  split
  next v hv => exact .pure (hV.var hv)
  · exact .throw (by simp)

theorem stable_tempTable (name : String) :
    Stable s₀ (tempTable name) fun t => s₀.session.find? name = some t := by
  refine .get fun s hs => ?_
  rw [hs.session]
  dsimp only
  split
  next t ht => exact .pure ht
  · exact .throw (by simp)

theorem stable_capture (level : Nat) (column : Column) (dataType : DataType) :
    Stable s₀ (capture level column dataType) (·.UsesOnly V) := by
  refine .get fun s _ => ?_
  dsimp only
  split
  · exact .pure (Scalar.usesOnly_outer _ _)
  · refine .bind (tame_freshParam.stable (F := fun _ => True) fun _ => trivial) fun param _ =>
      .bind (Obeys.stable (F := fun _ => True) (.effect fun _ => ?_) fun _ => trivial)
      fun _ _ => .pure (Scalar.usesOnly_outer _ _)
    exact (refl _ : BindState.Keeps _ _).of_captured

end BindM

/-- Plans read the variables and temporary tables of a state. -/
def Logic.stable {s₀ : BindState} {V : Vocabulary} (hV : s₀.Provides V) : Logic where
  toAccount := .ofVocabulary V
  Holds n _ x F := Stable s₀ x (F · n)
  lift := .lift
  bind hx hf := hx.bind fun a ha => hf a _ rfl ha
  rethrow := .rethrow
  attempt := .attempt
  consult hf _ := .read hf
  overflow _ := BindM.tame_overflow.stable fun _ => rfl
  freshExpr _ := BindM.tame_freshExpr.stable nofun
  freshSegment _ := BindM.tame_freshSegment.stable nofun
  freshParam _ _ := BindM.tame_freshParam.stable nofun
  freshSpool _ := BindM.tame_freshSpool.stable fun _ => rfl
  lookupVariable _ name := (BindM.stable_lookupVariable hV name).mono fun _ h =>
    ⟨rfl, Scalar.usesOnly_var.2 h⟩
  tempTable _ name _ := (BindM.stable_tempTable name).mono fun _ h => ⟨rfl, hV.table h⟩
  entity e _ relation := hV.entity e relation
  capture _ _ := BindM.stable_capture _ _ _
  enclosed hx := hx.enclosed.mono fun _ h => ⟨h, fun _ _ => trivial⟩
  absorb {_} {_} inner _ _ := (BindM.tame_absorb inner).stable fun _ =>
    ⟨fun _ h => h, fun _ _ h => h⟩

theorem RecursiveReference.usesOnly_plan (r : RecursiveReference) : r.plan.root.UsesOnly V := by
  refine Plan.usesOnly_of_children ?_ ?_ ?_ <;>
    simp [RecursiveReference.plan, Plan.children, Plan.expressions]

theorem Logic.roams_stable (hV : s₀.Provides V) : (stable hV).Roams where
  surroundings hf := .read fun c => hf c fun _ r _ => r.usesOnly_plan
  elsewhere _ hx := hx.withReader
  stepping _ _ hx := hx.withReader

end BatchPlan
