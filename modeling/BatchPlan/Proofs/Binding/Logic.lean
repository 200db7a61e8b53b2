import BatchPlan.Proofs.Binding.Account
import BatchPlan.Proofs.Binding.Run

namespace BatchPlan

theorem forall_mem_of_forall₂ {α β : Type} {S : α → β → Prop} {Q : β → Prop}
    {as : List α} {bs : List β}
    (h : List.Forall₂ S as bs) (hS : ∀ a b, S a b → Q b) : ∀ b ∈ bs, Q b := by
  induction h with
  | nil => exact nofun
  | cons hab _ ih => exact List.forall_mem_cons.2 ⟨hS _ _ hab, ih⟩

/-- Surroundings that differ at most in the common table expressions, the recursive rows and the
depth. -/
structure BindContext.SameSettings (c c' : BindContext) : Prop where
  catalog : c.catalog = c'.catalog
  options : c.options = c'.options
  recursionHint : c.recursionHint = c'.recursionHint

structure Logic extends Account where
  Holds : World → {α : Type} → BindM α → (α → World → Prop) → Prop
  lift : ∀ {w : World} {α : Type} {r : Result α} {F : α → World → Prop}, Reasoned r →
    (∀ a, r = .ok a → F a w) → Holds w (liftM r : BindM α) F
  bind : ∀ {w : World} {α β : Type} {x : BindM α} {f : α → BindM β} {F : α → World → Prop}
    {G : β → World → Prop}, Holds w x F → (∀ a w', w ≤ w' → F a w' → Holds w' (f a) G) →
      Holds w (x >>= f) G
  rethrow : ∀ {w : World} {α : Type} {x : BindM α} {g : PlanError →
    PlanError} {F : α → World → Prop},
    Holds w x F → (∀ e, e.flatten ≠ [] → (g e).flatten ≠ []) →
      Holds w (tryCatch x fun e => throw (g e)) F
  attempt : ∀ {w : World} {α : Type} {x : BindM α} {F : α → World → Prop},
    Holds w x F → Holds w (attempt x) fun r w' => ∀ a, r = .ok a → F a w'
  consult : ∀ {w : World} {β : Type} {f : BindContext → BindM β} {G : β → World → Prop},
    (∀ c, Holds w (f c) G) → (∀ c c', c.SameSettings c' → f c = f c') → Holds w (read >>= f) G
  overflow : ∀ w : World,
    Holds w (modify fun s : BindState => { s with overflow := true }) fun _ w' => w' = w
  freshExpr : ∀ w : World, Holds w BindM.freshExpr (toAccount.News w)
  freshSegment : ∀ w : World, Holds w BindM.freshSegment (toAccount.News w)
  freshParam : ∀ (w : World) (type : DataType),
    Holds w BindM.freshParam fun param w' => strict → (ledger w').Types param type
  freshSpool : ∀ w : World, Holds w BindM.freshSpool fun id w' => Fresh w id w'
  lookupVariable : ∀ (w : World) (name : String),
    Holds w (BindM.lookupVariable name) fun v w' => w' = w ∧ Value w (.var v.name v.dataType)
  tempTable : ∀ (w : World) (name : String), Sql.isTemporaryName name →
    Holds w (BindM.tempTable name) fun t w' => w' = w ∧ ∀ relation, Stored (t.scan relation)
  entity : ∀ (e : Entity) {source : ScanSource} (relation : String), source ≠ .tempTable →
    Stored (e.scan source relation)
  capture : ∀ {w : World} {levels : List Level} {c : Column} {level : Nat} {found : Nat × Field},
    Sees w levels → Nearest c levels level found →
    Holds w (BindM.capture level found.2.column found.2.dataType) fun e w' => Value w' e
  enclosed : ∀ {w : World} {v : View} {α : Type} {x : BindM α} {F : α → World → Prop},
    Holds (inside v [] w) x F →
    Holds w (BindM.enclosed x) fun r w' => F r.1 (inside v r.2 w') ∧ ∀ c ∈ r.2, Owns w' v c
  absorb : ∀ {w : World} {levels : List Level} {inner : List Captured}, Feeds w levels →
    (∀ c ∈ inner, Owns w (query levels) c) → Holds w (BindM.absorb inner) fun _ w' =>
      (∀ e, Value (inside (query levels) inner w) e → Value w' e) ∧
      ∀ a p, Rows (inside (query levels) inner a) (inside (query levels) inner w) p → Rows a w' p

/-- An action that does not matter to the account. -/
abbrev Logic.Stays (L : Logic) (w : L.World) {α : Type} (x : BindM α) (F : α → Prop) : Prop :=
  L.Holds w x fun a w' => w' = w ∧ F a

namespace Logic

section

variable {L : Logic} {w : L.World} {α β : Type} {x : BindM α} {f : α → BindM β}
    {F F' : α → L.World → Prop}
  {G : β → L.World → Prop} {H : α → Prop} {xs : List α} {r : Result α} {o : Option α}
    {g : α → β} {p : Prop}

theorem Stays.next (h : L.Stays w x H) (hf : ∀ a, H a → L.Holds w (f a) G) :
    L.Holds w (x >>= f) G := by
  refine L.bind h fun a w' _ ha => ?_
  obtain ⟨rfl, ha⟩ := ha
  exact hf a ha

namespace Holds

theorem lift (hr : Reasoned r) (h : ∀ a, r = .ok a → F a w) : L.Holds w (liftM r : BindM α) F :=
  L.lift hr h

theorem pure {a : α} (h : F a w) : L.Holds w (pure a : BindM α) F :=
  L.lift (r := .ok a) (reasoned_ok a) fun _ hb => Except.ok.inj hb ▸ h

theorem throw {e : PlanError} (he : e.flatten ≠ []) : L.Holds w (throw e : BindM α) F :=
  L.lift (r := .error e) ((reasoned_error e).2 he) nofun

theorem bind (h : L.Holds w x F) (hf : ∀ a w', w ≤ w' → F a w' → L.Holds w' (f a) G) :
    L.Holds w (x >>= f) G :=
  L.bind h hf

theorem mono (h : L.Holds w x F) (hF : ∀ a w', w ≤ w' → F a w' → F' a w') : L.Holds w x F' := by
  rw [← bind_pure x]
  exact h.bind fun a w' hw ha => .pure (hF a w' hw ha)

theorem map (h : L.Holds w x fun a w' => G (g a) w') : L.Holds w (g <$> x) G := by
  rw [map_eq_pure_bind]
  exact h.bind fun _ _ _ ha => .pure ha

theorem mapped {γ : Type} {f : β → BindM γ} {G : γ → L.World → Prop} (h : L.Holds w x F)
    (hf : ∀ a w', w ≤ w' → F a w' → L.Holds w' (f (g a)) G) : L.Holds w (g <$> x >>= f) G := by
  rw [bind_map_left]
  exact h.bind hf

theorem test (hr : Reasoned r) (hf : ∀ a, r = .ok a → L.Holds w (f a) G) :
    L.Holds w ((liftM r : BindM α) >>= f) G :=
  (lift (F := fun a w' => L.Holds w' (f a) G) hr hf).bind fun _ _ _ h => h

theorem ignore {f : PUnit → BindM β} (hr : Reasoned r) (hf : ∀ a, r = .ok a → L.Holds w (f ⟨⟩) G) :
    L.Holds w (discard (liftM r : BindM α) >>= f) G :=
  (map (G := fun _ w' => L.Holds w' (f ⟨⟩) G) (lift hr hf)).bind fun _ _ _ h => h

theorem counted {otherwise : α} {r : Except Overflow α} (h : ∀ a, r = .ok a → F a w)
    (h' : F otherwise w) : L.Holds w (BindM.counted otherwise r) F := by
  cases r with
  | ok a => exact .pure (h a rfl)
  | error o =>
    refine (L.overflow w).bind fun _ w' _ hw => .pure ?_
    exact hw ▸ h'

theorem ite [Decidable p] {y : BindM α} (hx : p → L.Holds w x F) (hy : ¬p → L.Holds w y F) :
    L.Holds w (if p then x else y) F := by
  split
  · exact hx ‹_›
  · exact hy ‹_›

theorem check [Decidable p] {y : BindM β} {e : PlanError} (he : e.flatten ≠ [])
    (hy : ¬p → L.Holds w y G) :
    L.Holds w (if p then (MonadExcept.throw e : BindM α) >>= f else y) G :=
  ite (fun _ => .throw he) hy

theorem mapM_forall₂ {S : α → β → L.World → Prop} (hS : ∀ {a b w w'}, w ≤ w' → S a b w → S a b w')
    (hf : ∀ a ∈ xs, ∀ w', w ≤ w' → L.Holds w' (f a) (S a)) :
    L.Holds w (xs.mapM f) fun bs w' => List.Forall₂ (S · · w') xs bs := by
  induction xs generalizing w with
  | nil => exact .pure .nil
  | cons a xs ih =>
    rw [List.mapM_cons]
    rw [List.forall_mem_cons] at hf
    refine (hf.1 w (le_refl w)).bind fun b w₁ h₁ hb => ?_
    refine (ih fun a ha w' hw => hf.2 a ha w' (le_trans h₁ hw)).bind fun bs w₂ h₂ hbs => .pure ?_
    exact .cons (hS h₂ hb) hbs

theorem mapM (hG : ∀ {b w w'}, w ≤ w' → G b w → G b w')
    (hf : ∀ a ∈ xs, ∀ w', w ≤ w' → L.Holds w' (f a) G) :
    L.Holds w (xs.mapM f) fun bs w' => ∀ b ∈ bs, G b w' :=
  (mapM_forall₂ (S := fun _ => G) hG hf).mono fun _ _ _ h =>
    forall_mem_of_forall₂ h fun _ _ hb => hb

theorem foldlM_each {S : α → Prop} {f : β → α → BindM β} {b : β} (hb : G b w)
    (hf : ∀ b w', w ≤ w' → G b w' → ∀ a ∈ xs, L.Holds w' (f b a) fun b w'' => G b w'' ∧ S a) :
    L.Holds w (xs.foldlM f b) fun b w' => G b w' ∧ ∀ a ∈ xs, S a := by
  induction xs generalizing b w with
  | nil => exact .pure ⟨hb, nofun⟩
  | cons a xs ih =>
    rw [List.foldlM_cons]
    refine (hf b w (le_refl w) hb a (by simp)).bind fun b' w' hw hb' =>
      (ih hb'.1 fun b w₁ h₁ hb a ha => ?_).mono
      fun _ _ _ h => ⟨h.1, List.forall_mem_cons.2 ⟨hb'.2, h.2⟩⟩
    exact hf b w₁ (le_trans hw h₁) hb a (by simp [ha])

theorem foldlM {f : β → α → BindM β} {b : β} (hb : G b w)
    (hf : ∀ b w', w ≤ w' → G b w' → ∀ a ∈ xs, L.Holds w' (f b a) G) :
    L.Holds w (xs.foldlM f b) G := by
  refine (foldlM_each (S := fun _ => True) hb fun b w' hw hb a ha => ?_).mono fun _ _ _ h => h.1
  exact (hf b w' hw hb a ha).mono fun _ _ _ h => ⟨h, trivial⟩

theorem forM {S : α → Prop} {f : α → BindM PUnit}
    (hf : ∀ a ∈ xs, ∀ w', w ≤ w' → L.Holds w' (f a) fun _ _ => S a) :
    L.Holds w (xs.forM f) fun _ _ => ∀ a ∈ xs, S a := by
  induction xs generalizing w with
  | nil => exact .pure nofun
  | cons a xs ih =>
    rw [List.forall_mem_cons] at hf
    refine (hf.1 w (le_refl w)).bind fun _ _ hw ha => ?_
    refine (ih fun a ha w' hw' => hf.2 a ha w' (le_trans hw hw')).mono fun _ _ _ h => ?_
    exact List.forall_mem_cons.2 ⟨ha, h⟩

theorem optionMapM (hf : ∀ a ∈ o, L.Holds w (f a) G) :
    L.Holds w (o.mapM f) fun r w' => ∀ b ∈ r, G b w' := by
  cases o with
  | none => exact .pure nofun
  | some a =>
    refine .map ((hf a rfl).mono fun b _ _ hb => ?_)
    rintro _ ⟨⟩
    exact hb

end Holds

theorem Stays.pure {a : α} (h : H a) : L.Stays w (pure a) H :=
  Holds.pure ⟨rfl, h⟩

theorem stays_mapM {H : β → Prop} (hf : ∀ a ∈ xs, L.Stays w (f a) H) :
    L.Stays w (xs.mapM f) fun bs => ∀ b ∈ bs, H b := by
  induction xs with
  | nil => exact .pure nofun
  | cons a xs ih =>
    rw [List.forall_mem_cons] at hf
    rw [List.mapM_cons]
    exact hf.1.next fun b hb => (ih hf.2).next fun bs hbs => .pure
      ⟨rfl, List.forall_mem_cons.2 ⟨hb, hbs⟩⟩

theorem stays_tests {f : α → Result β} (hf : ∀ a, Reasoned (f a)) :
    L.Stays w (xs.mapM fun a => (liftM (f a) : BindM β)) fun _ => True :=
  (stays_mapM (H := fun _ => True) fun a _ => .lift (hf a) fun _ _ => ⟨rfl, trivial⟩).mono
    fun _ _ _ h => ⟨h.1, trivial⟩

end

end Logic

end BatchPlan
