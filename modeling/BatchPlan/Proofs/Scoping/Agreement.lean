import BatchPlan.Proofs.Binding.Vocabulary
import BatchPlan.Proofs.Scoping.Mentions

namespace BatchPlan

/-- States that differ at most in what was read beyond the `n` nearest queries. -/
structure BindState.Matches (n : Nat) (s₁ s₂ : BindState) : Prop where
  session : s₁.session = s₂.session
  declared : s₁.declared = s₂.declared
  names : s₁.names = s₂.names
  captured : s₁.captured.take n = s₂.captured.take n

/-- Places inside queries with the same settings, which agree on the recursive rows of some
names. -/
structure BindContext.Alike (N : String → Prop) (c₁ c₂ : BindContext) : Prop extends
    SameSettings c₁ c₂ where
  inQuery : 0 < c₁.depth ∧ 0 < c₂.depth
  recursive : ∀ name, N name → c₁.recursiveReference? name = c₂.recursiveReference? name

/-- Places that have the same expressions in view, which mention no other names. -/
structure BindContext.SameView (N : String → Prop) (c₁ c₂ : BindContext) : Prop extends
    Alike N c₁ c₂ where
  ctes : c₁.ctes = c₂.ctes
  mentions : ∀ d ∈ c₁.ctes, ∀ name, d.Mentions name → N name

/-- Runs of an action from related surroundings and matching states give the same result, which
satisfies `F`, and end in matching states. -/
structure Agrees {α : Type} (R : BindContext → BindContext → Prop) (n : Nat) (x : BindM α)
    (F : α → Prop) : Prop where
  of_start : ∀ c₁ c₂ s₁ s₂, R c₁ c₂ → BindState.Matches n s₁ s₂ →
    ∃ r s₁' s₂', x.start c₁ s₁ = (r, s₁') ∧ x.start c₂ s₂ = (r, s₂') ∧
      BindState.Matches n s₁' s₂' ∧ ∀ a, r = .ok a → F a

namespace Agrees

open BindM

variable {α β : Type} {R S : BindContext → BindContext → Prop} {n : Nat} {x : BindM α}
  {f : α → BindM β} {F : α → Prop} {G : β → Prop}

theorem mono (h : Agrees R n x F) (hS : ∀ c₁ c₂, S c₁ c₂ → R c₁ c₂) : Agrees S n x F where
  of_start c₁ c₂ s₁ s₂ hc hs := h.of_start c₁ c₂ s₁ s₂ (hS c₁ c₂ hc) hs

theorem weaken {F' : α → Prop} (h : Agrees R n x F) (hF : ∀ a, F a → F' a) : Agrees R n x F' where
  of_start c₁ c₂ s₁ s₂ hc hs := by
    obtain ⟨r, s₁', s₂', h₁, h₂, hs', hr⟩ := h.of_start c₁ c₂ s₁ s₂ hc hs
    exact ⟨r, s₁', s₂', h₁, h₂, hs', fun a ha => hF a (hr a ha)⟩

theorem lift {r : Result α} (h : ∀ a, r = .ok a → F a) : Agrees R n (liftM r : BindM α) F where
  of_start _ _ s₁ s₂ _ hs := ⟨r, s₁, s₂, start_lift r, start_lift r, hs, h⟩

theorem pure {a : α} (h : F a) : Agrees R n (pure a : BindM α) F :=
  lift (r := .ok a) fun _ hb => Except.ok.inj hb ▸ h

theorem throw (e : PlanError) : Agrees R n (throw e : BindM α) F :=
  lift (r := .error e) nofun

theorem bind (hx : Agrees R n x F) (hf : ∀ a, F a → Agrees R n (f a) G) :
    Agrees R n (x >>= f) G where
  of_start c₁ c₂ s₁ s₂ hc hs := by
    obtain ⟨r, s₁', s₂', h₁, h₂, hs', hr⟩ := hx.of_start c₁ c₂ s₁ s₂ hc hs
    rw [start_bind, start_bind, h₁, h₂]
    cases r with
    | error e => exact ⟨.error e, s₁', s₂', rfl, rfl, hs', nofun⟩
    | ok a => exact (hf a (hr a rfl)).of_start c₁ c₂ s₁' s₂' hc hs'

theorem tryCatch {h : PlanError → BindM α} (hx : Agrees R n x F) (hh : ∀ e, Agrees R n (h e) F) :
    Agrees R n (tryCatch x h) F where
  of_start c₁ c₂ s₁ s₂ hc hs := by
    obtain ⟨r, s₁', s₂', h₁, h₂, hs', hr⟩ := hx.of_start c₁ c₂ s₁ s₂ hc hs
    rw [start_tryCatch, start_tryCatch, h₁, h₂]
    cases r with
    | error e => exact (hh e).of_start c₁ c₂ s₁' s₂' hc hs'
    | ok a => exact ⟨.ok a, s₁', s₂', rfl, rfl, hs', hr⟩

theorem attempt (hx : Agrees R n x F) : Agrees R n (attempt x) fun r => ∀ a, r = .ok a → F a where
  of_start c₁ c₂ s₁ s₂ hc hs := by
    obtain ⟨r, s₁', s₂', h₁, h₂, hs', hr⟩ := hx.of_start c₁ c₂ s₁ s₂ hc hs
    rw [start_attempt, start_attempt, h₁, h₂]
    exact ⟨.ok r, s₁', s₂', rfl, rfl, hs', fun _ h => Except.ok.inj h ▸ hr⟩

theorem read {f : BindContext → BindM β}
    (hf : ∀ c₁ c₂, R c₁ c₂ → f c₁ = f c₂ ∧ Agrees R n (f c₁) G) : Agrees R n (read >>= f) G where
  of_start c₁ c₂ s₁ s₂ hc hs := by
    obtain ⟨heq, hagrees⟩ := hf c₁ c₂ hc
    rw [start_read_bind, start_read_bind, ← heq]
    exact hagrees.of_start c₁ c₂ s₁ s₂ hc hs

theorem withReader {g : BindContext → BindContext} (hx : Agrees S n x F)
    (hg : ∀ c₁ c₂, R c₁ c₂ → S (g c₁) (g c₂)) : Agrees R n (withReader g x) F where
  of_start c₁ c₂ s₁ s₂ hc hs := hx.of_start (g c₁) (g c₂) s₁ s₂ (hg c₁ c₂ hc) hs

theorem effect {g : BindState → α × BindState} (hg : ∀ s₁ s₂, BindState.Matches n s₁ s₂ →
    (g s₁).1 = (g s₂).1 ∧ BindState.Matches n (g s₁).2 (g s₂).2) :
    Agrees R n (modifyGet g : BindM α) fun _ => True where
  of_start _ _ s₁ s₂ _ hs := by
    obtain ⟨hvalue, hstate⟩ := hg s₁ s₂ hs
    exact ⟨.ok (g s₁).1, (g s₁).2, (g s₂).2, rfl, by rw [hvalue]; rfl, hstate, fun _ _ => trivial⟩

theorem get {f : BindState → BindM β} (hf : ∀ s₁ s₂, BindState.Matches n s₁ s₂ → f s₁ = f s₂)
    (hagrees : ∀ s, Agrees R n (f s) G) : Agrees R n (get >>= f) G where
  of_start c₁ c₂ s₁ s₂ hc hs := by
    change ∃ r s₁' s₂', (f s₁).start c₁ s₁ = _ ∧ (f s₂).start c₂ s₂ = _ ∧ _
    rw [← hf s₁ s₂ hs]
    exact (hagrees s₁).of_start c₁ c₂ s₁ s₂ hc hs

theorem enclosed (hx : Agrees R (n + 1) x F) : Agrees R n (enclosed x) fun r => F r.1 where
  of_start c₁ c₂ s₁ s₂ hc hs := by
    have hinner : BindState.Matches (n + 1) { s₁ with captured := [] :: s₁.captured }
        { s₂ with captured := [] :: s₂.captured } :=
      ⟨hs.session, hs.declared, hs.names, by simp [hs.captured]⟩
    obtain ⟨r, s₁', s₂', h₁, h₂, hs', hr⟩ := hx.of_start c₁ c₂ _ _ hc hinner
    have htails : s₁'.captured.headD [] = s₂'.captured.headD [] ∧
        s₁'.captured.tail.take n = s₂'.captured.tail.take n := by
      have hcaptured := hs'.captured
      cases hS₁ : s₁'.captured <;> cases hS₂ : s₂'.captured <;> simp_all
    rw [start_enclosed, start_enclosed, h₁, h₂]
    refine ⟨_, { s₁' with captured := s₁'.captured.tail },
      { s₂' with captured := s₂'.captured.tail }, rfl,
      by simp only [htails.1], ⟨hs'.session, hs'.declared, hs'.names, htails.2⟩, ?_⟩
    cases r with
    | error e => nofun
    | ok a =>
      rintro _ ⟨⟩
      exact hr a rfl

end Agrees

namespace BindM

variable {R : BindContext → BindContext → Prop} {n : Nat}

theorem agrees_freshExpr : Agrees R n freshExpr fun _ => True :=
  .effect fun _ _ hs => by
    dsimp only
    rw [hs.names]
    exact ⟨rfl, hs.session, hs.declared, rfl, hs.captured⟩

theorem agrees_freshParam : Agrees R n freshParam fun _ => True :=
  agrees_freshExpr.bind fun _ _ => .pure trivial

theorem agrees_freshSegment : Agrees R n freshSegment fun _ => True :=
  .effect fun _ _ hs => by
    dsimp only
    rw [hs.names]
    exact ⟨rfl, hs.session, hs.declared, rfl, hs.captured⟩

theorem agrees_freshSpool : Agrees R n freshSpool fun _ => True :=
  .effect fun _ _ hs => by
    dsimp only
    rw [hs.names]
    exact ⟨rfl, hs.session, hs.declared, rfl, hs.captured⟩

theorem agrees_lookupVariable (name : String) : Agrees R n (lookupVariable name) fun _ => True := by
  refine .get (fun _ _ hs => by rw [hs.declared]) fun s => ?_
  split
  · exact .pure trivial
  · exact .throw _

theorem agrees_tempTable (name : String) : Agrees R n (tempTable name) fun _ => True := by
  refine .get (fun _ _ hs => by simp only [hs.session]) fun s => ?_
  dsimp only
  split
  · exact .pure trivial
  · exact .throw _

theorem agrees_absorb (inner : List Captured) : Agrees R n (absorb inner) fun _ => True := by
  refine .effect fun s₁ s₂ hs => ⟨rfl, ?_⟩
  have hcaptured := hs.captured
  dsimp only
  -- with `n` positive both lists have a head, and it is the same
  cases hS₁ : s₁.captured <;> cases hS₂ : s₂.captured <;>
    exact ⟨hs.session, hs.declared, hs.names, by cases n <;> simp_all⟩

theorem agrees_capture {level : Nat} (hlevel : level < n) (column : Column) (dataType : DataType) :
    Agrees R n (capture level column dataType) fun _ => True := by
  refine .get (fun s₁ s₂ hs => ?_) fun s => ?_
  · have hown : s₁.captured.getD level [] = s₂.captured.getD level [] := by
      have hlists := congrArg (·[level]?) hs.captured
      simp only [List.getElem?_take_of_lt hlevel] at hlists
      rw [List.getD_eq_getElem?_getD, List.getD_eq_getElem?_getD, hlists]
    dsimp only
    rw [hown]
  · dsimp only
    split
    · exact .pure trivial
    · have hbook (param : String) : Agrees R n (modify fun s : BindState =>
          { s with captured := s.captured.modify level (· ++ [⟨⟨param, column⟩, dataType⟩]) })
          fun _ => True :=
        .effect fun _ _ hs => ⟨rfl, hs.session, hs.declared, hs.names, by
          rw [List.take_modify, List.take_modify, hs.captured]⟩
      exact agrees_freshParam.bind fun param _ => (hbook param).bind fun _ _ => .pure trivial

end BindM

/-- Runs from places with the same view agree. -/
def Logic.agreement (N : String → Prop) : Logic where
  toAccount := .ofVocabulary .all
  Holds n _ x F := Agrees (BindContext.SameView N) n x (F · n)
  lift _ := .lift
  bind hx hf := hx.bind fun a ha => hf a _ rfl ha
  rethrow hx _ := .tryCatch hx fun _ => .throw _
  attempt := .attempt
  consult hf heq := .read fun c₁ c₂ hc => ⟨heq c₁ c₂ hc.toSameSettings, hf c₁⟩
  overflow _ := (Agrees.effect fun _ _ hs =>
    ⟨rfl, hs.session, hs.declared, hs.names, hs.captured⟩).weaken
    fun _ _ => rfl
  freshExpr _ := BindM.agrees_freshExpr.weaken fun _ _ => nofun
  freshSegment _ := BindM.agrees_freshSegment.weaken fun _ _ => nofun
  freshParam _ _ := BindM.agrees_freshParam.weaken fun _ _ => nofun
  freshSpool _ := BindM.agrees_freshSpool.weaken fun _ _ => rfl
  lookupVariable _ name := (BindM.agrees_lookupVariable name).weaken fun _ _ =>
    ⟨rfl, Scalar.usesOnly_all _⟩
  tempTable _ name _ := (BindM.agrees_tempTable name).weaken fun _ _ => ⟨rfl, fun _ => trivial⟩
  entity _ _ _ _ := trivial
  capture hsees hnearest := by
    obtain ⟨l, hl, -⟩ := hnearest.owner
    have hlevel := Nat.lt_of_lt_of_le (List.getElem?_eq_some_iff.1 hl).1 hsees
    exact (BindM.agrees_capture hlevel _ _).weaken fun _ _ => Scalar.usesOnly_all _
  enclosed hx := hx.enclosed.weaken fun _ h => ⟨h, fun _ _ => trivial⟩
  absorb {_} {_} inner _ _ := (BindM.agrees_absorb inner).weaken fun _ _ =>
    ⟨fun _ _ => Scalar.usesOnly_all _, fun _ p _ => p.usesOnly_all⟩

end BatchPlan
