import BatchPlan.Proofs.Meaning.Membership

namespace BatchPlan

open BindM

namespace Text

theorem length_lowerFrom (passed passed' cs : List Char) :
    (lowerFrom passed cs).length = (lowerFrom passed' cs).length := by
  induction cs generalizing passed passed' with
  | nil => rfl
  | cons c rest ih =>
    simp only [lowerFrom, List.length_append, ih (c :: passed) (c :: passed')]
    split <;> rfl

theorem length_lowerFrom_append (passed cs ds : List Char) :
    (lowerFrom passed (cs ++ ds)).length = (lowerFrom passed cs).length +
    (lowerFrom [] ds).length := by
  induction cs generalizing passed with
  | nil => simp [lowerFrom, length_lowerFrom passed []]
  | cons c rest ih =>
    by_cases h : c.toNat = 0x3a3 <;> simp [lowerFrom, ih, h] <;> omega

theorem length_lower_append (a b : String) :
    (lower (a ++ b)).length = (lower a).length + (lower b).length := by
  simp [lower, length_lowerFrom_append]

end Text

namespace Sql.ExprOf

variable {Q : Type} [Printed Q]

theorem length_key_nested (e : ExprOf Q) : (key (.nested e)).length = e.key.length + 2 := by
  simp only [key, text, Text.length_lower_append]
  have hopen : (Text.lower "(").length = 1 := by decide
  have hclose : (Text.lower ")").length = 1 := by decide
  omega

theorem length_key_not (e : ExprOf Q) : (key (.unary .not e)).length = e.key.length + 4 := by
  simp only [key, text, Text.length_lower_append]
  have hnot : (Text.lower "NOT ").length = 4 := by decide
  omega

end Sql.ExprOf

theorem Scope.computed?_addComputed (s : Scope) (e : Sql.Expr) (key : String) (value : Scalar) :
    (s.addComputed key value).computed? e = if e.key = key then some value else s.computed? e := by
  by_cases h : e.key = key
  · simp [computed?, addComputed, h]
  · simp only [computed?, addComputed, List.lookup_cons, beq_false_of_ne h, h, if_false]
    cases s.computed <;> rfl

namespace Scope

variable {scope : Scope} {e : Sql.Expr} {c : BindContext} {s s' : BindState} {value : Scalar}

theorem start_bind_nested (h : scope.computed? (.nested e) = none) :
    (scope.bind (.nested e)).start c s = (scope.bind e).start c s := by
  rw [bind.eq_def, orComputed, h]

theorem start_bind_not (h : scope.computed? (.unary .not e) = none)
    (he : (scope.bind e).start c s = (.ok value, s')) :
    (scope.bind (.unary .not e)).start c s = (.ok (.unary .not value), s') := by
  rw [bind.eq_def, orComputed, h]
  exact start_bind_ok he _

theorem bind_of_bindPredicate (h : (scope.bindPredicate e).start c s = (.ok value, s')) :
    (scope.bind e).start c s = (.ok value, s') := by
  unfold bindPredicate bindChecked at h
  obtain ⟨bound, s₁, hbound, h⟩ := exists_of_start_bind h
  obtain ⟨bound', s₂, hbound', hchecked⟩ := exists_of_start_bind hbound
  obtain ⟨-, -, hchecked⟩ := exists_of_start_test_bind hchecked
  rw [start_read_bind] at hchecked
  obtain ⟨-, -, hchecked⟩ := exists_of_start_lift_bind hchecked
  cases hchecked
  obtain ⟨type, -, h⟩ := exists_of_start_lift_bind h
  split at h
  · cases h; exact hbound'
  · cases h; exact hbound'
  · cases h

end Scope

/-- A plan keeps the rows of another one that satisfy `P`, with more values at their ends. -/
def Plan.Keeps (rt : Runtime) (env : Env) (p q : Plan) (P : Row → Prop) : Prop :=
  ∃ source condition, q = .filter source condition ∧ p.Decides rt env source condition P

namespace QueryBinder

variable {k' : Block} {found : Flagged}

abbrev isIn (e : Sql.Expr) (query : Sql.Query) (negated : Bool) :
    Sql.Expr := .inQuery e query negated

def notIsIn (e : Sql.Expr) (query : Sql.Query) :
    Sql.Expr := .unary .not (.nested (isIn e query false))

variable {b : QueryBinder} {e : Sql.Expr} {query : Sql.Query} {k : Block} {c : BindContext}
  {s s' : BindState} {negated : Bool} {plan : Plan} {predicate : Scalar}

theorem exists_of_subquery (hnew : k.scope.computed? (isIn e query negated) = none)
    (h : (b.subquery k (isIn e query negated)).start c s = (.ok k', s')) :
    ∃ plan value, (b.in_ e query negated k).start c s = (.ok (plan, value), s') ∧
      k' = ⟨plan, (k.scope.withSchema plan.schema).addComputed
        (isIn e query negated).key value⟩ := by
  unfold subquery at h
  simp only [hnew, Option.isSome_none, Bool.false_eq_true, if_false] at h
  obtain ⟨lowered, s₁, hlowered, h⟩ := exists_of_start_bind h
  rw [map_eq_pure_bind] at hlowered
  obtain ⟨⟨plan, value⟩, s₂, hin, hlowered⟩ := exists_of_start_bind hlowered
  cases hlowered
  cases h
  exact ⟨plan, value, hin, rfl⟩

theorem exists_of_restrict {condition : Sql.Expr}
    (hone : condition.outermost Sql.ExprOf.isSubquery = [isIn e query negated])
    (hnew : k.scope.computed? (isIn e query negated) = none)
    (h : (b.restrict condition k).start c s = (.ok k', s')) :
    ∃ plan value predicate s₁, (b.in_ e query negated k).start c s = (.ok (plan, value), s₁) ∧
      (((k.scope.withSchema plan.schema).addComputed (isIn e query negated).key value).bind
        condition).start c s₁ = (.ok predicate, s') ∧ k'.plan = .filter plan predicate := by
  unfold restrict at h
  obtain ⟨joined, s₁, hjoined, h⟩ := exists_of_start_bind h
  simp only [subqueries, List.flatMap_cons, List.flatMap_nil, hone, List.append_nil,
    List.foldlM_cons, List.foldlM_nil, bind_pure] at hjoined
  obtain ⟨plan, value, hin, rfl⟩ := exists_of_subquery hnew hjoined
  obtain ⟨predicate, s₂, hpredicate, h⟩ := exists_of_start_bind h
  cases h
  exact ⟨plan, value, predicate, s₁, hin, Scope.bind_of_bindPredicate hpredicate, rfl⟩

theorem exists_of_restrict_isIn (hnew : k.scope.computed? (isIn e query negated) = none)
    (h : (b.restrict (isIn e query negated) k).start c s = (.ok k', s')) :
    ∃ plan predicate, (b.in_ e query negated k).start c s = (.ok (plan, predicate), s') ∧
      k'.plan = .filter plan predicate := by
  obtain ⟨plan, value, predicate, s₁, hin, hbound, hplan⟩ := exists_of_restrict rfl hnew h
  rw [Scope.start_bind_computed (by rw [Scope.computed?_addComputed, if_pos rfl])] at hbound
  cases hbound
  exact ⟨plan, value, hin, hplan⟩

theorem exists_of_restrict_notIsIn (hnew : k.scope.computed? (isIn e query false) = none)
    (hnested : k.scope.computed? (.nested (isIn e query false)) = none)
    (hnot : k.scope.computed? (notIsIn e query) = none)
    (h : (b.restrict (notIsIn e query) k).start c s = (.ok k', s')) :
    ∃ plan predicate, (b.in_ e query false k).start c s = (.ok (plan, predicate), s') ∧
      k'.plan = .filter plan (.unary .not predicate) := by
  obtain ⟨plan, value, predicate, s₁, hin, hbound, hplan⟩ := exists_of_restrict rfl hnew h
  -- a longer text is another key
  have hother {condition : Sql.Expr}
    (hlonger : (isIn e query false).key.length < condition.key.length)
      (hcomputed : k.scope.computed? condition = none) :
      ((k.scope.withSchema plan.schema).addComputed (isIn e query false).key value).computed?
        condition = none := by
    rw [Scope.computed?_addComputed, if_neg fun hkey => by rw [hkey] at hlonger; omega]
    exact hcomputed
  have hfound : (((k.scope.withSchema plan.schema).addComputed (isIn e query false).key value).bind
      (.nested (isIn e query false))).start c s₁ = (.ok value, s₁) := by
    rw [Scope.start_bind_nested, Scope.start_bind_computed]
    · rw [Scope.computed?_addComputed, if_pos rfl]
    · refine hother ?_ hnested
      rw [Sql.ExprOf.length_key_nested]
      omega
  rw [notIsIn, Scope.start_bind_not (hother ?_ hnot) hfound] at hbound
  · cases hbound
    exact ⟨plan, value, hin, hplan⟩
  · rw [Sql.ExprOf.length_key_not, Sql.ExprOf.length_key_nested]
    omega

theorem Flagged.Marks.decides_not {rt : Runtime} {env : Env} {p : Plan} {first last : Nat}
    {more : Schema} {values : Row → Row} {value : Row → Value} {P : Row → Prop}
    (h : found.Marks rt env p first last more values value P)
    (hrows : ∀ row ∈ p.rows rt env, row.length = p.schema.fields.length) :
    p.Decides rt env found.plan (.unary .not found.flag.isNotNull) fun row => ¬ P row := by
  refine ⟨values, h.extended.rows, fun row hrow => ?_⟩
  refine Iff.trans ?_ (h.read_flag (hrows row hrow))
  simp [Scalar.isNotNull, Scalar.eval, Operations.unary]

theorem exprs_le_of_in {s₁ : BindState} {r : Plan × Scalar} (ht : b.IsTame)
    (hfound : (b.flagged e query k).start c s = (.ok found, s₁))
    (h : (b.in_ e query negated k).start c s = (.ok r, s')) : s₁.names.exprs ≤ s'.names.exprs := by
  unfold in_ at h
  obtain ⟨found', s₂, hfound', h⟩ := exists_of_start_bind h
  cases hfound.symm.trans hfound'
  have hrest := (tame_notInWithNulls ht query k found.plan found.column found.flag).of_start c s₁
  split at h
  · cases h; exact Nat.le_refl _
  · split at h
    · cases h; exact Nat.le_refl _
    · exact (hrest _ s' h).1.exprs

/-- The rows that `NOT (x IN (query))` and `x NOT IN (query)` keep, where the rows respect the
schemas and the subquery has the same values when it is bound again. They are the same except for
those where it is unknown whether the value is in the subquery. The former keeps these, the latter
does not. -/
theorem restrict_notIsIn_and_notIn (rt : Runtime) (env : Env) (depth : Nat) (e : Sql.Expr)
    (query : Sql.Query) (k k₁ k₂ : Block) (c : BindContext)
    (s s₁ s₂ s₃ s₄ s₅ : BindState) (x : Scalar) (q : BoundQuery) (found : Flagged) (hk : k.Placed s)
    (hnew : ∀ condition ∈ [notIsIn e query, .nested (isIn e query false), isIn e query false,
      isIn e query true], k.scope.computed? condition = none)
    (hx : (k.scope.bindChecked e).start c s = (.ok x, s₁))
    (hq : ((ofDepth depth).query query k.scope.levels).start c s₁ = (.ok q, s₂))
    (hfound : ((ofDepth depth).flagged e query k).start c s = (.ok found, s₃))
    (hnot : ((ofDepth depth).restrict (notIsIn e query) k).start c s = (.ok k₁, s₄))
    (hnotIn : ((ofDepth depth).restrict (isIn e query true) k).start c s = (.ok k₂, s₅))
    (hnames : k.plan.schema.Free s.names.exprs s₅.names.exprs)
    (houter : ∀ row ∈ k.plan.rows rt env, k.plan.schema.Fits row)
    (hinner : ∀ row ∈ k.plan.rows rt env,
      ∀ r ∈ (InnerQuery.ofBound q).rowsFor rt env k.plan.schema row, q.plan.root.schema.Fits r)
    (hagain : ∀ q' s₆, ((ofDepth depth).query query k.scope.levels).start c s₃ = (.ok q', s₆) →
      ∀ row ∈ k.plan.rows rt env,
        ((InnerQuery.ofBound q').valuesFor rt env k.plan.schema row).Perm
          ((InnerQuery.ofBound q).valuesFor rt env k.plan.schema row)) :
    let value row := x.eval rt.toOperations env k.plan.schema row
    let values row := (InnerQuery.ofBound q).valuesFor rt env k.plan.schema row
    let blurs := (InnerQuery.ofBound q).Blurs k.plan.schema found.column
    k.plan.Keeps rt env k₁.plan (fun row => rt.isIn (value row) (values row) ≠ .true ∨ blurs) ∧
      k.plan.Keeps rt env k₂.plan (fun row => rt.isIn (value row) (values row) = .false ∨
        blurs ∧ (values row = [] ∨ value row ≠ .null ∧ .null ∉ values row)) := by
  intro value values blurs
  simp only [List.forall_mem_cons] at hnew
  obtain ⟨hnewNot, hnewNested, hnewIn, hnewNotIn, -⟩ := hnew
  obtain ⟨plan, predicate, hin, hplan⟩ := exists_of_restrict_notIsIn hnewIn hnewNested hnewNot hnot
  obtain ⟨plan', predicate', hin', hplan'⟩ := exists_of_restrict_isIn hnewNotIn hnotIn
  refine ⟨⟨_, _, hplan, ?_⟩, _, _, hplan', ?_⟩
  · unfold in_ at hin
    obtain ⟨found', s', hfound', hin⟩ := exists_of_start_bind hin
    cases hfound.symm.trans hfound'
    cases hin
    obtain ⟨more, added, hmarks⟩ := marks_flagged rt env (isTame_ofDepth depth)
      (binds_ofDepth Logic.roams_correlation depth) hk
      hx hq hfound (hnames.mono (Nat.le_refl _) (exprs_le_of_in (isTame_ofDepth depth) hfound hin'))
    refine (hmarks.decides_not fun row hrow => (houter row hrow).1).congr fun row _ => ?_
    simp only [value, values, blurs]
    tauto
  · refine (decides_notIn rt env (isTame_ofDepth depth)
      (binds_ofDepth Logic.roams_correlation depth) hk hx hq hfound hin'
      hnames houter hinner hagain).congr fun row _ => ?_
    rw [← Truth.not_eq_true, Operations.not_isIn_eq_true, Certain]
    simp only [value, values, blurs]
    tauto

def uncertain : Block :=
  let plan : Plan := .scan
    { entity := "p", relation := "p", source := .entity, primaryKey := none, rowCount := none,
      columns := [⟨"k", .int32, true, none⟩] }
  ⟨plan, .ofSchema plan.schema []⟩

def uncertainColumn : Sql.Expr := .compound [⟨"p", none⟩, ⟨"k", none⟩]

def uncertainQuery : Sql.Query :=
  match Sql.parseStatement "SELECT n FROM t" with
  | .ok (.query q) => q
  | _ => default

def uncertainTables : Runtime := .ofTables fun entity =>
  if entity = "p" then [[.int32 1], [.int32 2], [.null]]
  else [[.text "a", .null], [.text "b", .int32 2]]

def uncertainContext : BindContext :=
  { catalog :=
    { entities := [(Entity.new "t" "k").withAttribute { name := "n", type := .integer }] },
    options := {} }

theorem uncertain_restricted :
    ∃ (x : Scalar) (q : BoundQuery) (found : Flagged) (k₁ k₂ : Block) (s₁ s₂ s₃ s₄ s₅ : BindState),
      (uncertain.scope.bindChecked uncertainColumn).start uncertainContext { session := .empty } =
        (.ok x, s₁) ∧
      ((ofDepth 1).query uncertainQuery uncertain.scope.levels).start uncertainContext s₁ =
        (.ok q, s₂) ∧
      ((ofDepth 1).flagged uncertainColumn uncertainQuery uncertain).start uncertainContext
        { session := .empty } = (.ok found, s₃) ∧
      ((ofDepth 1).restrict (notIsIn uncertainColumn uncertainQuery) uncertain).start
        uncertainContext { session := .empty } = (.ok k₁, s₄) ∧
      ((ofDepth 1).restrict (isIn uncertainColumn uncertainQuery true) uncertain).start
        uncertainContext { session := .empty } = (.ok k₂, s₅) ∧
      let value row := x.eval uncertainTables.toOperations .empty uncertain.plan.schema row
      let values row := (InnerQuery.ofBound q).valuesFor uncertainTables .empty
        uncertain.plan.schema row
      let blurs := (InnerQuery.ofBound q).Blurs uncertain.plan.schema found.column
      uncertain.plan.Keeps uncertainTables .empty k₁.plan
        (fun row => uncertainTables.isIn (value row) (values row) ≠ .true ∨ blurs) ∧
      uncertain.plan.Keeps uncertainTables .empty k₂.plan
        (fun row => uncertainTables.isIn (value row) (values row) = .false ∨
          blurs ∧ (values row = [] ∨ value row ≠ .null ∧ .null ∉ values row)) := by
  have hx := start_eq_value (x := uncertain.scope.bindChecked uncertainColumn)
    (c := uncertainContext) (s := { session := .empty }) (by decide +kernel)
  have hq := start_eq_value (x := (ofDepth 1).query uncertainQuery uncertain.scope.levels)
    (c := uncertainContext)
    (s := ((uncertain.scope.bindChecked uncertainColumn).start uncertainContext
      { session := .empty }).2)
    (by decide +kernel)
  have hfound := start_eq_value (x := (ofDepth 1).flagged uncertainColumn uncertainQuery uncertain)
    (c := uncertainContext) (s := { session := .empty }) (by decide +kernel)
  have hnot := start_eq_value
    (x := (ofDepth 1).restrict (notIsIn uncertainColumn uncertainQuery) uncertain)
    (c := uncertainContext) (s := { session := .empty }) (by decide +kernel)
  have hnotIn := start_eq_value
    (x := (ofDepth 1).restrict (isIn uncertainColumn uncertainQuery true) uncertain)
    (c := uncertainContext) (s := { session := .empty }) (by decide +kernel)
  refine ⟨_, _, _, _, _, _, _, _, _, _, hx, hq, hfound, hnot, hnotIn,
    restrict_notIsIn_and_notIn uncertainTables .empty 1 _ _ _ _ _ _ _ _ _ _ _ _ _ _ _
      ⟨rfl, by decide⟩
      (by decide +kernel) hx hq hfound hnot hnotIn (by decide +kernel) (by decide +kernel)
      (by decide +kernel) fun q' s₆ hq' => ?_⟩
  rw [← value_of_start hq']
  decide +kernel

/-- The one keeps a row of which it is unknown whether its value is found, the other does not. -/
theorem uncertain_notIsIn_ne_notIn :
    ∃ (k₁ k₂ : Block) (s₁ s₂ : BindState),
      ((ofDepth 1).restrict (notIsIn uncertainColumn uncertainQuery) uncertain).start
        uncertainContext { session := .empty } = (.ok k₁, s₁) ∧
      ((ofDepth 1).restrict (isIn uncertainColumn uncertainQuery true) uncertain).start
        uncertainContext { session := .empty } = (.ok k₂, s₂) ∧
      (k₁.plan.rows uncertainTables .empty).map List.head? = [some (.int32 1), some .null] ∧
      k₂.plan.rows uncertainTables .empty = [] := by
  have hnot := start_eq_value
    (x := (ofDepth 1).restrict (notIsIn uncertainColumn uncertainQuery) uncertain)
    (c := uncertainContext) (s := { session := .empty }) (by decide +kernel)
  have hnotIn := start_eq_value
    (x := (ofDepth 1).restrict (isIn uncertainColumn uncertainQuery true) uncertain)
    (c := uncertainContext) (s := { session := .empty }) (by decide +kernel)
  exact ⟨_, _, _, _, hnot, hnotIn, by decide +kernel, by decide +kernel⟩

end QueryBinder

end BatchPlan
