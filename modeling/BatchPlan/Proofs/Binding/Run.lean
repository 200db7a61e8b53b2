import BatchPlan.Binding.Select

namespace BatchPlan

variable {p : Prop} {e : PlanError}

theorem Result.of_check {α β : Type} [Decidable p] {f : α → Result β} {y : Result β} {b : β}
    (h : (if p then throw e >>= f else y) = .ok b) : ¬p ∧ y = .ok b := by
  split at h
  · cases h
  · exact ⟨‹_›, h⟩

theorem Result.exists_of_map {ε α β : Type} {r : Except ε α} {g : α → β}
    {b : β} (h : r.map g = .ok b) : ∃ a, r = .ok a ∧ g a = b := by
  cases r with
  | error e => cases h
  | ok a =>
    cases h
    exact ⟨a, rfl, rfl⟩

namespace BindM

variable {α β : Type} {c : BindContext} {s : BindState} {x : BindM α} {f : α → BindM β}
    {r : Result α} {b : β}
  {a : α}
variable {s' : BindState}

/-- An action is known by its outcomes: it leaves the surroundings where they are. -/
theorem run_act (x : BindM α) (c : BindContext) (s : BindState) :
    x.act.run.run ⟨c, s⟩ = ((x.start c s).1, ⟨c, (x.start c s).2⟩) := by
  have hcontext := x.tidy ⟨c, s⟩
  unfold start
  rcases hrun : x.act.run.run ⟨c, s⟩ with ⟨r, c', s'⟩
  rw [hrun] at hcontext
  cases hcontext
  rfl

theorem ext_start {x y : BindM α} (h : ∀ c s, x.start c s = y.start c s) : x = y := by
  obtain ⟨f, hf⟩ := x
  obtain ⟨g, hg⟩ := y
  have hrun (d : Desk) : f.run.run d = g.run.run d :=
    (run_act ⟨f, hf⟩ d.context d.state).trans
    (h d.context d.state ▸ (run_act ⟨g, hg⟩ d.context d.state).symm)
  obtain rfl : f = g := funext hrun
  rfl

theorem start_bind (x : BindM α) (f : α → BindM β) :
    (x >>= f).start c s = match x.start c s with
      | (.ok a, s') => (f a).start c s'
      | (.error e, s') => (.error e, s') := by
  have hrun : (x >>= f).act.run.run ⟨c, s⟩ = _ := DeskM.run_bind x.act (fun a => (f a).act) ⟨c, s⟩
  rw [run_act x] at hrun
  rw [start, hrun]
  rcases x.start c s with ⟨_ | _, s'⟩ <;> rfl

theorem bind_bind (x : BindM α) (f : α → BindM β) {γ : Type} (g : β → BindM γ) :
    x >>= f >>= g = x >>= fun a => f a >>= g := by
  refine ext_start fun c s => ?_
  rw [start_bind, start_bind, start_bind]
  rcases x.start c s with ⟨_ | a, s'⟩
  · rfl
  · exact (start_bind (f a) g).symm

theorem bind_pure_id (x : BindM α) : x >>= pure = x := by
  refine ext_start fun c s => ?_
  rw [start_bind]
  rcases x.start c s with ⟨_ | _, s'⟩ <;> rfl

instance : LawfulMonad BindM :=
  .mk' BindM bind_pure_id (fun a f => ext_start fun _ _ => start_bind (pure a) f)
    fun x f g => bind_bind x f g

theorem start_bind_ok (h : x.start c s = (.ok a, s')) (f : α → BindM β) :
    (x >>= f).start c s = (f a).start c s' := by
  rw [start_bind, h]

theorem cases_of_start_bind {r : Result β} (h : (x >>= f).start c s = (r, s')) :
    (∃ e, x.start c s = (.error e, s') ∧ r = .error e) ∨
      ∃ a s₁, x.start c s = (.ok a, s₁) ∧ (f a).start c s₁ = (r, s') := by
  rw [start_bind] at h
  rcases hx : x.start c s with ⟨e | a, s₁⟩
  · rw [hx] at h
    cases h
    exact .inl ⟨e, rfl, rfl⟩
  · rw [hx] at h
    exact .inr ⟨a, s₁, rfl, h⟩

theorem exists_of_start_bind (h : (x >>= f).start c s = (.ok b, s')) :
    ∃ a s₁, x.start c s = (.ok a, s₁) ∧ (f a).start c s₁ = (.ok b, s') :=
  (cases_of_start_bind h).resolve_left nofun

theorem start_pure (a : α) : (pure a : BindM α).start c s = (.ok a, s) := rfl

theorem start_lift (r : Result α) : (liftM r : BindM α).start c s = (r, s) := by
  cases r <;> rfl

theorem exists_of_start_lift_bind (h : ((liftM r : BindM α) >>= f).start c s = (.ok b, s')) :
    ∃ a, r = .ok a ∧ (f a).start c s = (.ok b, s') := by
  cases r with
  | error e => cases h
  | ok a => exact ⟨a, rfl, h⟩

theorem exists_of_start_test_bind {f : PUnit → BindM β}
    (h : (discard (liftM r : BindM α) >>= f).start c s = (.ok b, s')) :
    ∃ a, r = .ok a ∧ (f ⟨⟩).start c s = (.ok b, s') := by
  cases r with
  | error e => cases h
  | ok a => exact ⟨a, rfl, h⟩

theorem start_read_bind (f : BindContext → BindM β) :
    ((read : BindM BindContext) >>= f).start c s = (f c).start c s := rfl

theorem start_get_bind (f : BindState → BindM β) :
    ((get : BindM BindState) >>= f).start c s = (f s).start c s := rfl

/-- Other surroundings for an action. -/
instance : MonadWithReaderOf BindContext BindM where
  withReader f x :=
    ⟨fun d => ((x.start (f d.context) d.state).1, ⟨d.context, (x.start (f d.context) d.state).2⟩),
      fun _ => rfl⟩

theorem start_withReader (f : BindContext → BindContext) (x : BindM α) :
    (withReader f x).start c s = x.start (f c) s := rfl

theorem amidst_eq (ctes : List CteDefinition) (x : BindM α) :
    amidst ctes x = withReader (fun c => { c with ctes }) x :=
  ext_start fun _ _ => rfl

theorem stepping_eq (r : RecursiveReference) (x : BindM α) :
    stepping r x = withReader (fun c => { c with recursive := r :: c.recursive }) x :=
  ext_start fun _ _ => rfl

/-- The expressions in view when those of a WITH clause are added, each in view of the next. -/
def registered (visible : List CteDefinition) (seen : List String) :
    List (Sql.Cte Sql.Query) → Result (List CteDefinition)
  | [] => .ok visible
  | cte :: rest => do
    let name := cte.tableAlias.name.value
    if seen.contains (Text.lower name) then throw (.duplicate "CTE" name)
    match repeatedName? [] cte.tableAlias.columnNames with
    | some column => throw (repeatedColumnError name column)
    | none =>
      registered (⟨name, cte.tableAlias.columnNames, cte.query, visible⟩ :: visible)
        (Text.lower name :: seen) rest

theorem run_registerCtes (seen : List String) (ctes : List (Sql.Cte Sql.Query)) (c : BindContext)
    (s : BindState) : ∃ c', (registerCtes seen ctes).run.run ⟨c, s⟩ =
      ((registered c.ctes seen ctes).map fun _ => (), ⟨c', s⟩) ∧
      ∀ visible, registered c.ctes seen ctes = .ok visible → c' = { c with ctes := visible } := by
  induction ctes generalizing seen c with
  | nil =>
    refine ⟨c, rfl, ?_⟩
    rintro _ ⟨⟩
    rfl
  | cons cte rest ih =>
    unfold registerCtes registered
    dsimp only
    split
    · exact ⟨c, rfl, by rintro _ ⟨⟩⟩
    · cases repeatedName? [] cte.tableAlias.columnNames with
      | some column => exact ⟨c, rfl, by rintro _ ⟨⟩⟩
      | none =>
        exact ih (Text.lower cte.tableAlias.name.value :: seen) { c with ctes := _ :: c.ctes }

/-- The level and the view of a query are those of its body alone. -/
theorem nested_eq (ctes : List (Sql.Cte Sql.Query)) (x : BindM α) : nested ctes x = (do
    let visible ← registered (← read).ctes [] ctes
    withReader (fun c => { c with ctes := visible, depth := c.depth + 1 }) x) := by
  refine ext_start fun c s => ?_
  have hrun : (nested ctes x).start c s =
      let body := ((do registerCtes [] ctes; x.act) : DeskM α).run.run
        ⟨{ c with depth := c.depth + 1 }, s⟩
      (body.1, body.2.state) := rfl
  obtain ⟨c', hc', hvisible⟩ := run_registerCtes [] ctes { c with depth := c.depth + 1 } s
  rw [hrun, DeskM.run_bind, hc', start_read_bind, start_bind, start_lift]
  cases hregistered : registered c.ctes [] ctes with
  | error e => rfl
  | ok visible =>
    cases hvisible visible hregistered
    rfl

theorem start_counted (otherwise : α) (r : Except Overflow α) :
    (counted otherwise r).start c s = (.ok (r.toOption.getD otherwise),
      { s with overflow := s.overflow || r.toOption.isNone }) := by
  cases r with
  | ok a =>
    rw [Except.toOption, Option.isNone_some, Bool.or_false]
    rfl
  | error e =>
    rw [Except.toOption, Option.isNone_none, Bool.or_true]
    rfl

theorem eq_ok_of_counted {r : Except Overflow (Option α)}
    (h : (counted none r).start c s = (.ok (some a), s')) : r = .ok (some a) := by
  cases r with
  | ok most =>
    cases h
    rfl
  | error e => cases h

theorem start_tryCatch (x : BindM α) (h : PlanError → BindM α) :
    (tryCatch x h).start c s = match x.start c s with
      | (.ok a, s') => (.ok a, s')
      | (.error e, s') => (h e).start c s' := by
  have hrun : (tryCatch x h).act.run.run ⟨c, s⟩ = _ :=
    DeskM.run_tryCatch x.act (fun e => (h e).act) ⟨c, s⟩
  rw [run_act x] at hrun
  rw [start, hrun]
  rcases x.start c s with ⟨_ | _, s'⟩ <;> rfl

theorem start_attempt (x : BindM α) :
    (attempt x).start c s = (.ok (x.start c s).1, (x.start c s).2) := by
  simp only [attempt, start_tryCatch, start_bind]
  rcases x.start c s with ⟨_ | _, s'⟩ <;> rfl

/-- What an enclosed action reads of the query around it is taken off the stack at its end, also
when it fails. -/
theorem start_enclosed (x : BindM α) : (enclosed x).start c s =
    let run := x.start c { s with captured := [] :: s.captured }
    (run.1.map (·, run.2.captured.headD []), { run.2 with captured := run.2.captured.tail }) := by
  unfold enclosed
  rw [start_bind]
  change (tryCatch (x >>= _) _ : BindM _).start c { s with captured := [] :: s.captured } = _
  rw [start_tryCatch, start_bind]
  rcases x.start c { s with captured := [] :: s.captured } with ⟨_ | _, s'⟩ <;> rfl

def value [Inhabited α] (x : BindM α) (c : BindContext) (s : BindState) : α :=
  (x.start c s).1.toOption.getD default

theorem value_of_start [Inhabited α] (h : x.start c s = (.ok a, s')) : x.value c s = a := by
  rw [value, h]
  rfl

theorem start_eq_value [Inhabited α] (h : (x.start c s).1.toOption.isSome) :
    x.start c s = (.ok (x.value c s), (x.start c s).2) := by
  unfold value
  rcases hx : x.start c s with ⟨_ | a, s'⟩
  · rw [hx] at h
    cases h
  · rfl

/-- If an action succeeds, its value and the state it leaves are as stated. -/
def Yields (x : BindM α) (c : BindContext) (s : BindState) (Q : α → BindState → Prop) : Prop :=
  ∀ a s', x.start c s = (.ok a, s') → Q a s'

namespace Yields

variable {x : BindM α} {f : α → BindM β} {P Q : α → BindState → Prop} {g : α → β}

theorem mono (h : Yields x c s P) (hQ : ∀ a s', P a s' → Q a s') : Yields x c s Q :=
  fun a s' hx => hQ a s' (h a s' hx)

theorem any : Yields x c s fun _ _ => True :=
  fun _ _ _ => trivial

theorem bind {Q : β → BindState → Prop} (h : Yields x c s P)
    (hf : ∀ a s', P a s' → Yields (f a) c s' Q) : Yields (x >>= f) c s Q := by
  intro b s' hb
  obtain ⟨a, s₁, hx, hb⟩ := exists_of_start_bind hb
  exact hf a s₁ (h a s₁ hx) b s' hb

theorem run (h : Yields x c s Q) : Yields x c s fun a s' => Q a s' ∧ x.start c s = (.ok a, s') :=
  fun a s' hx => ⟨h a s' hx, hx⟩

theorem mapped {γ : Type} {f : β → BindM γ} {Q : γ → BindState → Prop} (h : Yields x c s P)
    (hf : ∀ a s', P a s' → Yields (f (g a)) c s' Q) : Yields (g <$> x >>= f) c s Q := by
  rw [bind_map_left]
  exact h.bind hf

theorem map {Q : β → BindState → Prop} (h : Yields x c s fun a s' => Q (g a) s') :
    Yields (g <$> x) c s Q := by
  rw [map_eq_pure_bind]
  exact h.bind fun a s' ha b s'' hb => by
    cases hb
    exact ha

theorem pure {a : α} (h : Q a s) : Yields (pure a) c s Q := by
  rintro _ _ ⟨⟩
  exact h

theorem throw {e : PlanError} : Yields (throw e : BindM α) c s Q := by
  rintro _ _ ⟨⟩

theorem lift (h : ∀ a, r = .ok a → Q a s) : Yields (liftM r : BindM α) c s Q := by
  intro a s' hr
  rw [start_lift] at hr
  cases hr
  exact h a rfl

theorem read {Q : BindContext → BindState → Prop} (h : Q c s) : Yields read c s Q := by
  rintro _ _ ⟨⟩
  exact h

theorem get {Q : BindState → BindState → Prop} (h : Q s s) : Yields get c s Q := by
  rintro _ _ ⟨⟩
  exact h

theorem effect {g : BindState → α × BindState} (h : Q (g s).1 (g s).2) :
    Yields (modifyGet g : BindM α) c s Q := by
  rintro _ _ ⟨⟩
  exact h

theorem ite [Decidable p] {y : BindM α} (hx : p → Yields x c s Q) (hy : ¬p → Yields y c s Q) :
    Yields (if p then x else y) c s Q := by
  split
  · exact hx ‹_›
  · exact hy ‹_›

theorem check [Decidable p] {y : BindM β} {Q : β → BindState → Prop} (hy : ¬p → Yields y c s Q) :
    Yields (if p then (MonadExcept.throw e : BindM α) >>= f else y) c s Q :=
  .ite (fun _ => .bind .throw fun _ _ h => nomatch (h : False)) hy

theorem attempt {Q : Result α → BindState → Prop} (h : Yields x c s fun a s' => Q (.ok a) s')
    (he : ∀ e s', x.start c s = (.error e, s') → Q (.error e) s') :
    Yields (attempt x) c s Q := by
  intro r s' hr
  rw [start_attempt] at hr
  cases hr
  rcases hx : x.start c s with ⟨e | a, s₁⟩
  · exact he e s₁ hx
  · exact h a s₁ hx

theorem enclosed {Q : α × List Captured → BindState → Prop}
    (h : Yields x c { s with captured := [] :: s.captured } fun a s' =>
      Q (a, s'.captured.headD []) { s' with captured := s'.captured.tail }) :
    Yields (enclosed x) c s Q := by
  intro a s' ha
  rw [start_enclosed] at ha
  obtain ⟨hmap, rfl⟩ := Prod.mk.inj ha
  obtain ⟨a, hx, rfl⟩ := Result.exists_of_map hmap
  exact h a _ (Prod.ext hx rfl)

theorem foldlM (I : β → BindState → Prop) {f : β → α → BindM β} {xs : List α} (hs : I b s)
    (h : ∀ b, ∀ a ∈ xs, ∀ s', I b s' → Yields (f b a) c s' I) : Yields (xs.foldlM f b) c s I := by
  induction xs generalizing b s with
  | nil => exact .pure hs
  | cons a xs ih =>
    rw [List.foldlM_cons]
    refine (h b a (by simp) s hs).bind fun b' s' hb' => ih hb' fun b a ha s' => ?_
    exact h b a (by simp [ha]) s'

end Yields

end BindM

end BatchPlan

namespace BatchPlan.Scope

variable {scope : Scope} {e : Sql.Expr} {value : Scalar}

theorem computed?_eq (scope : Scope) (e : Sql.Expr) :
    scope.computed? e = scope.computed.lookup e.key := by
  unfold computed?
  split
  next h => rw [h, List.lookup_nil]
  next => rfl

theorem mem_of_computed? (h : scope.computed? e = some value) :
    (e.key, value) ∈ scope.computed := by
  rw [computed?_eq, List.lookup_eq_some_iff] at h
  obtain ⟨before, after, heq, -⟩ := h
  simp [heq]

theorem start_bind_computed {c : BindContext} {s : BindState} (h : scope.computed? e = some value) :
    (scope.bind e).start c s = (.ok value, s) := by
  rw [bind.eq_def, orComputed, h, BindM.start_pure]

end BatchPlan.Scope
