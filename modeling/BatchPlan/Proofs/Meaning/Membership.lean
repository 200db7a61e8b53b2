import BatchPlan.Proofs.Binding.Tame
import BatchPlan.Proofs.Correlation.Booking
import BatchPlan.Proofs.Meaning.Lookup
import Mathlib.Data.Int.CharZero

namespace BatchPlan

open BindM

/-- The block of a query whose enclosing queries are being bound. Its names are those of its
rows. -/
structure Block.Placed (k : Block) (s : BindState) : Prop where
  schema : k.scope.schema = k.plan.schema
  levels : k.scope.outer.length ≤ s.captured.length

theorem Block.Placed.of_length {k : Block} {s s' : BindState} (h : k.Placed s)
    (hs : s'.captured.length = s.captured.length) : k.Placed s' :=
  ⟨h.schema, hs ▸ h.levels⟩

namespace QueryBinder

variable {b : QueryBinder} {e : Sql.Expr} {query : Sql.Query} {k : Block} {c : BindContext}
  {s s₁ s₂ s' : BindState} {x : Scalar} {q : BoundQuery}

theorem exists_of_flagged {found : Flagged} (hx : (k.scope.bindChecked e).start c s = (.ok x, s₁))
    (hq : (b.query query k.scope.levels).start c s₁ = (.ok q, s₂))
    (h : (b.flagged e query k).start c s = (.ok found, s')) :
    ∃ (column : Column) (place : Nat) (field : Field) (type : DataType) (plan : Plan)
      (s₃ : BindState) (name : String) (s₄ : BindState),
      (InnerQuery.ofBound q).column = some column ∧
      q.plan.root.schema.candidates column = [(place, field)] ∧
      x.dataType k.plan.schema = .ok type ∧
      (k.plan.withColumn x).start c s₂ = (.ok (plan, found.column), s₃) ∧
      freshExpr.start c s₃ = (.ok name, s₄) ∧
      (membership (.ofBound q) plan found.column column [foundFlag name]).start c s₄ =
        (.ok found.plan, s') ∧
      found.flag = .column (.bare name) ∧
      found.mayBeNull = (field.nullable || x.nullable k.plan.schema) := by
  unfold flagged at h
  obtain ⟨x', _, hx', h⟩ := exists_of_start_bind h
  cases hx.symm.trans hx'
  obtain ⟨q', _, hq', h⟩ := exists_of_start_bind h
  cases hq.symm.trans hq'
  obtain ⟨inner, hinner, h⟩ := exists_of_start_lift_bind h
  obtain ⟨column, hcolumn, h⟩ := exists_of_start_lift_bind h
  obtain ⟨type, htype, h⟩ := exists_of_start_test_bind h
  obtain ⟨⟨place, field⟩, hfield, h⟩ := exists_of_start_lift_bind h
  rw [start_read_bind] at h
  obtain ⟨-, -, h⟩ := exists_of_start_lift_bind h
  obtain ⟨⟨plan, outer⟩, s₃, hplan, h⟩ := exists_of_start_bind h
  obtain ⟨name, s₄, hname, h⟩ := exists_of_start_bind h
  obtain ⟨joined, s₅, hjoined, h⟩ := exists_of_start_bind h
  cases h
  obtain ⟨rfl, hone⟩ : inner = .ofBound q ∧ q.plan.columns.length = 1 := by
    unfold InnerQuery.ofSingle at hinner
    split at hinner
    next hone => exact ⟨by cases hinner; rfl, hone⟩
    next => cases hinner
  have hcolumn : (InnerQuery.ofBound q).column = some column := by
    unfold InnerQuery.value at hcolumn
    split at hcolumn
    next hc => cases hcolumn; exact hc
    next => cases hcolumn
  exact ⟨column, place, field, type, plan, s₃, name, s₄, hcolumn,
    Schema.candidates_of_resolve hfield, htype, hplan, hname, hjoined, rfl, rfl⟩

theorem captured_of_binds (hb : Logic.correlation.Binds b) (hk : k.Placed s)
    (h : (b.query query k.scope.levels).start c s = (.ok q, s')) :
    ∀ binding ∈ q.captured.map (·.binding), ¬ k.plan.schema.Lacks binding.column := by
  have hlevels : Account.correlation.Around (k.bookings c s) k.scope.levels :=
    Account.correlation.around_of_sees _ (k.fits_bookings hk.levels c).scope.outer
  obtain ⟨w, -, -, hanswers⟩ := (hb.query query hlevels).of_start c s _ s' (k.bookings_fits c s) h
  have hoffered := (hanswers q rfl).owned
  simp only [List.forall_mem_map]
  intro captured hcaptured
  obtain ⟨l, hl, f, hf, hcolumn, -⟩ := hoffered captured hcaptured
  cases hl
  rw [hcolumn]
  exact Schema.not_lacks_of_mem (hk.schema ▸ hf)

end QueryBinder

/-- The rows of a plan with a flag that is set where `P` holds. -/
structure QueryBinder.Flagged.Marks (found : Flagged) (rt : Runtime) (env : Env) (p : Plan)
    (first last : Nat) (more : Schema) (values : Row → Row) (value : Row → Value) (P : Row → Prop) :
    Prop where
  extended : p.Extends rt env found.plan more values
  generated : more.Generated first last
  column : found.column.Carries p found.plan values value
  flag : ∃ c mark, found.flag = .column c ∧ c.Carries p found.plan values mark ∧
    ∀ row, row.length = p.schema.fields.length → (mark row ≠ .null ↔ P row)

namespace QueryBinder

variable {found : Flagged} {plan : Plan} {predicate flag : Scalar} {row : Row}
    {env : Env} {outer : Column}

section

variable {rt : Runtime} {env : Env} {p : Plan} {found : Flagged} {first last : Nat} {more : Schema}
  {values : Row → Row} {value : Row → Value} {P : Row → Prop}

theorem Flagged.Marks.read_flag (h : found.Marks rt env p first last more values value P)
    (hrow : row.length = p.schema.fields.length) :
    found.flag.eval rt.toOperations env found.plan.schema (row ++ values row) = .null ↔
    ¬ P row := by
  obtain ⟨c, mark, hflag, hcarries, hmark⟩ := h.flag
  rw [hflag, Scalar.eval, hcarries.read row hrow, ← hmark row hrow, not_ne_iff]

theorem Flagged.Marks.decides_isNull (h : found.Marks rt env p first last more values value P)
    (hrows : ∀ row ∈ p.rows rt env, row.length = p.schema.fields.length) :
    p.Decides rt env found.plan found.flag.isNull fun row => ¬ P row := by
  refine ⟨values, h.extended.rows, fun row hrow => ?_⟩
  refine Iff.trans ?_ (h.read_flag (hrows row hrow))
  simp [Scalar.isNull, Scalar.eval, Operations.unary]

end

variable {b : QueryBinder} {e : Sql.Expr} {query : Sql.Query} {k : Block} {c : BindContext}
  {s s₁ s₂ s' : BindState} {x : Scalar} {q : BoundQuery}

theorem captured_of_plain (q : BoundQuery) (h : (InnerQuery.ofBound q).correlated = false) :
    (InnerQuery.ofBound q).captured = [] := by
  simp only [InnerQuery.ofBound, Bool.or_eq_false_iff, Bool.not_eq_false', List.isEmpty_iff] at h
  exact h.1

theorem marks_flagged (rt : Runtime) (env : Env) (ht : b.IsTame) (hb : Logic.correlation.Binds b)
    (hk : k.Placed s) (hx : (k.scope.bindChecked e).start c s = (.ok x, s₁))
    (hq : (b.query query k.scope.levels).start c s₁ = (.ok q, s₂))
    (h : (b.flagged e query k).start c s = (.ok found, s'))
    (hfree : k.plan.schema.Free s.names.exprs s'.names.exprs) :
    ∃ more values, found.Marks rt env k.plan s.names.exprs s'.names.exprs more values
      (fun row => x.eval rt.toOperations env k.plan.schema row)
      fun row => ¬ (InnerQuery.ofBound q).Blurs k.plan.schema found.column ∧
        rt.isIn (x.eval rt.toOperations env k.plan.schema row)
          ((InnerQuery.ofBound q).valuesFor rt env k.plan.schema row) = .true := by
  obtain ⟨inner, place, field, type, plan, s₃, name, s₄, hcolumn, hfield, htype,
    hplan, hname, hjoin, hflag, -⟩ := exists_of_flagged hx hq h
  have hk₁ := hk.of_length
    ((Scope.holds_bindChecked (L := .correlation) (k.fits_bookings hk.levels c).scope
    e).captured_length (k.bookings_fits c s) hx)
  have hs₁ := (k.scope.tame_bindChecked e).exprs_le hx
  have hs₂ := ((ht.query query k.scope.levels).of_start c s₁ _ s₂ hq).1.exprs
  have hs₃ := (Plan.tame_withColumn k.plan x).exprs_le hplan
  have hs' := (tame_membership _ _ _ _ _).exprs_le hjoin
  obtain ⟨rfl, rfl⟩ := start_freshExpr hname
  dsimp only at hs'
  -- the value is a column of the plan
  obtain ⟨more, values, hextends, hmore, houter, hnames⟩ :=
    Plan.extends_withColumn rt env htype hplan (hfree.mono (by omega) (by omega))
  -- the flag is another one
  have hinner : q.plan.root.schema.contains inner := Schema.contains_iff.2 ⟨place, field, hfield⟩
  obtain ⟨mark, hextends', hexprs, hmark⟩ :=
    extends_membership rt env houter.contains hcolumn hinner (captured_of_plain q) hjoin
  have hlast : s'.names.exprs = s₃.names.exprs + 1 := hexprs
  have hgenerated := generated_singleton (d := foundFlag (exprName (s₃.names.exprs + 1))) rfl
    (Nat.lt_succ_self s₃.names.exprs) (Nat.le_of_eq hlast.symm)
  have hfree' : k.plan.schema.Free s₂.names.exprs s'.names.exprs := hfree.mono (by omega) (by omega)
  have hplanfree := hextends.free hfree' hmore hs₃
  have hcarries := hextends'.carries_new
    (hplanfree _ (Nat.le_of_eq hlast.symm) (Nat.lt_succ_self _))
    (Schema.contains_iff.2 ⟨_, _, candidates_singleton _⟩)
    fun row => Schema.read_of_candidates (candidates_singleton _)
  refine ⟨_, _, hextends.trans hextends', ?_, hextends.carries_trans hextends' hplanfree hgenerated
    houter, _, _, hflag, hextends.carries_comp hcarries, fun row hrow => ?_⟩
  · exact (hmore.mono (by omega) (by omega)).merge (hgenerated.mono (by omega) (by omega))
  · have hblurs : (InnerQuery.ofBound q).Blurs _ found.column ↔ _ :=
      InnerQuery.blurs_append hextends.fields hcolumn fun hlacks =>
        hnames _ inner hlacks (Schema.not_lacks_of_contains hinner)
    have hrows := InnerQuery.rowsFor_extends (q := .ofBound q) hextends
      (hfree'.mono (Nat.le_refl _) (by omega)) hmore (captured_of_binds hb hk₁ hq) hrow
    change mark _ ≠ .null ↔ _
    rw [hmark _ (hextends.length_row hrow), houter.read row hrow, hblurs,
      InnerQuery.valuesFor, hrows, InnerQuery.valuesFor]

/-- The value was not found, and there are no rows or no NULL is involved. -/
def notInPredicate (flag : Scalar) (rows known outer : Column) : Scalar :=
  flag.isNull.and (((Scalar.column rows).eq (.int 0)).or
    (((Scalar.column known).eq (.column rows)).and (Scalar.column outer).isNotNull))

theorem eval_notInPredicate {ops : Operations} {schema : Schema} {rows known : Column} {m n : Nat}
    (hrows : schema.read row rows = .int32 n) (hknown : schema.read row known = .int32 m) :
    ((notInPredicate flag rows known outer).eval ops env schema row).truth = .true ↔
      flag.eval ops env schema row = .null ∧ (n = 0 ∨ m = n ∧ schema.read row outer ≠ .null) := by
  simp [notInPredicate, Scalar.and, Scalar.or, Scalar.eq, Scalar.isNull,
    Scalar.isNotNull, Scalar.int,
    Scalar.eval, Operations.binary, Operations.unary, hrows, hknown, Value.strict₂, ops.equal_int]

theorem exists_of_notInWithNulls {p : Plan}
    (h : (b.notInWithNulls query k p outer flag).start c s = (.ok (plan, predicate), s')) :
    ∃ (q : BoundQuery) (s₁ : BindState) (inner : Column) (s₂ : BindState),
      (b.query query k.scope.levels).start c s = (.ok q, s₁) ∧
      (InnerQuery.ofBound q).column = some inner ∧ s₂.names.exprs = s₁.names.exprs + 4 ∧
      ((counted (.ofBound q) inner s₁.names.exprs).joinTo p none
        (countDefinitions s₁.names.exprs)).start c s₂ = (.ok plan, s') ∧
      predicate = notInPredicate flag (.bare (exprName (s₁.names.exprs + 3)))
        (.bare (exprName (s₁.names.exprs + 4))) outer := by
  unfold notInWithNulls at h
  obtain ⟨q, s₁, hq, h⟩ := exists_of_start_bind h
  obtain ⟨inner, hinner, h⟩ := exists_of_start_lift_bind h
  obtain ⟨rows, s₂, hrows, h⟩ := exists_of_start_bind h
  obtain ⟨values, s₃, hvalues, h⟩ := exists_of_start_bind h
  obtain ⟨rowsOut, s₄, hrowsOut, h⟩ := exists_of_start_bind h
  obtain ⟨valuesOut, s₅, hvaluesOut, h⟩ := exists_of_start_bind h
  obtain ⟨joined, s₆, hjoined, h⟩ := exists_of_start_bind h
  cases h
  obtain ⟨rfl, rfl⟩ := start_freshExpr hrows
  obtain ⟨rfl, rfl⟩ := start_freshExpr hvalues
  obtain ⟨rfl, rfl⟩ := start_freshExpr hrowsOut
  obtain ⟨rfl, rfl⟩ := start_freshExpr hvaluesOut
  refine ⟨q, s₁, inner, _, hq, ?_, rfl, hjoined, rfl⟩
  unfold InnerQuery.value at hinner
  split at hinner
  next hc => cases hinner; exact hc
  next => cases hinner

/-- The values of a subquery for a row hold no surprise: there are none, or no NULL is involved. -/
def Certain (v : Value) (values : List Value) : Prop :=
  values = [] ∨ v ≠ .null ∧ .null ∉ values

theorem certain_perm {v : Value} {values values' : List Value} (h : values.Perm values') :
    Certain v values ↔ Certain v values' := by
  rw [Certain, Certain, h.mem_iff, ← List.isEmpty_iff, ← List.isEmpty_iff, h.isEmpty_eq]

theorem certain_of_fits {rt : Runtime} (hx : (k.scope.bindChecked e).start c s = (.ok x, s₁))
    (hq : (b.query query k.scope.levels).start c s₁ = (.ok q, s₂))
    (hfound : (b.flagged e query k).start c s = (.ok found, s')) (hnull : found.mayBeNull = false)
    (houter : k.plan.schema.Fits row)
    (hinner : ∀ r ∈ (InnerQuery.ofBound q).rowsFor rt env k.plan.schema row,
      q.plan.root.schema.Fits r) :
    Certain (x.eval rt.toOperations env k.plan.schema row)
      ((InnerQuery.ofBound q).valuesFor rt env k.plan.schema row) := by
  obtain ⟨inner, place, field, -, -, -, -, -, hcolumn, hfield, -, -, -, -, -, hmay⟩ :=
    exists_of_flagged hx hq hfound
  obtain ⟨hfieldNull, hxNull⟩ := Bool.or_eq_false_iff.1 (hmay.symm.trans hnull)
  refine .inr ⟨x.eval_ne_null houter hxNull, ?_⟩
  simp only [InnerQuery.valuesFor, hcolumn, List.mem_map, not_exists, not_and]
  exact fun r hr => Schema.read_ne_null (hinner r hr)
    (Schema.field?_eq_some.2 ⟨place, hfield⟩) hfieldNull

theorem decides_notInWithNulls (rt : Runtime) (env : Env) (ht : b.IsTame)
    (hb : Logic.correlation.Binds b) (hk : k.Placed s) {first : Nat} {more : Schema}
    {added : Row → Row} {value : Row → Value} {P : Row → Prop}
    (hfound : found.Marks rt env k.plan first s.names.exprs more added value P)
    (hq : (b.query query k.scope.levels).start c s = (.ok q, s₁))
    (h : (b.notInWithNulls query k found.plan found.column found.flag).start c s =
      (.ok (plan, predicate), s')) (hfirst : first ≤ s.names.exprs)
    (hfree : k.plan.schema.Free first s'.names.exprs)
    (hrows : ∀ row ∈ k.plan.rows rt env, row.length = k.plan.schema.fields.length) :
    k.plan.Decides rt env plan predicate fun row =>
      ¬ P row ∧ Certain (value row)
        ((InnerQuery.ofBound q).valuesFor rt env k.plan.schema row) := by
  obtain ⟨q', _, inner, s₂, hq', hinner, hs₂, hjoin, rfl⟩ := exists_of_notInWithNulls h
  cases hq.symm.trans hq'
  have hs₁ := ((ht.query query k.scope.levels).of_start c s _ s₁ hq).1.exprs
  have hs' := (InnerQuery.tame_joinTo _ _ _ _).exprs_le hjoin
  have hfoundfree := hfound.extended.free hfree hfound.generated hfirst
  obtain ⟨more', added', hextends, hmore, -, hcount, hknown⟩ := extends_counts rt env hinner
    (captured_of_plain q) (hfoundfree.mono hs₁ (by omega)) hjoin
  refine ⟨_, (hfound.extended.trans hextends).rows, fun row hmem => ?_⟩
  have hrow := hrows row hmem
  have hkeeps {column : Column} {value : Row → Value}
      (hcolumn : column.Carries k.plan found.plan added value) :=
    (hfound.extended.carries_trans hextends hfoundfree (hmore.mono hs₁ (by omega)) hcolumn).read
      row hrow
  obtain ⟨flag, mark, hflag, hmark, hP⟩ := hfound.flag
  have hvalues : (InnerQuery.ofBound q).valuesFor rt env found.plan.schema (row ++ added row) =
      (InnerQuery.ofBound q).valuesFor rt env k.plan.schema row := by
    rw [InnerQuery.valuesFor, InnerQuery.rowsFor_extends hfound.extended
      (hfree.mono (Nat.le_refl _) (by omega)) hfound.generated (captured_of_binds hb hk hq) hrow,
      InnerQuery.valuesFor]
  rw [eval_notInPredicate ((hfound.extended.carries_comp hcount).read row hrow)
    ((hfound.extended.carries_comp hknown).read row hrow), hkeeps hfound.column, hflag, Scalar.eval,
    hkeeps hmark, hvalues, List.length_eq_zero_iff, List.length_filter_eq_length_iff]
  have hnull : mark row = .null ↔ ¬ P row := by rw [← hP row hrow, not_ne_iff]
  grind [Certain]

theorem decides_notIn (rt : Runtime) (env : Env) (ht : b.IsTame) (hb : Logic.correlation.Binds b)
    (hk : k.Placed s) {s₃ : BindState} (hx : (k.scope.bindChecked e).start c s = (.ok x, s₁))
    (hq : (b.query query k.scope.levels).start c s₁ = (.ok q, s₂))
    (hfound : (b.flagged e query k).start c s = (.ok found, s₃))
    (h : (b.in_ e query true k).start c s = (.ok (plan, predicate), s'))
    (hfree : k.plan.schema.Free s.names.exprs s'.names.exprs)
    (houter : ∀ row ∈ k.plan.rows rt env, k.plan.schema.Fits row)
    (hinner : ∀ row ∈ k.plan.rows rt env,
      ∀ r ∈ (InnerQuery.ofBound q).rowsFor rt env k.plan.schema row, q.plan.root.schema.Fits r)
    (hagain : ∀ q' s₄, (b.query query k.scope.levels).start c s₃ = (.ok q', s₄) →
      ∀ row ∈ k.plan.rows rt env,
        ((InnerQuery.ofBound q').valuesFor rt env k.plan.schema row).Perm
          ((InnerQuery.ofBound q).valuesFor rt env k.plan.schema row)) :
    k.plan.Decides rt env plan predicate fun row =>
      ¬ (¬ (InnerQuery.ofBound q).Blurs k.plan.schema found.column ∧
        rt.isIn (x.eval rt.toOperations env k.plan.schema row)
          ((InnerQuery.ofBound q).valuesFor rt env k.plan.schema row) = .true) ∧
      Certain (x.eval rt.toOperations env k.plan.schema row)
        ((InnerQuery.ofBound q).valuesFor rt env k.plan.schema row) := by
  have hlength : ∀ row ∈ k.plan.rows rt env, row.length = k.plan.schema.fields.length :=
    fun row hrow => (houter row hrow).1
  unfold in_ at h
  obtain ⟨found', _, hfound', h⟩ := exists_of_start_bind h
  cases hfound.symm.trans hfound'
  have hs₃ := ((tame_flagged ht e query k).of_start c s _ s₃ hfound).1.exprs
  cases hnull : found.mayBeNull with
  | false =>
    simp only [hnull] at h
    cases h
    obtain ⟨more, added, hmarks⟩ := marks_flagged rt env ht hb hk hx hq hfound hfree
    refine (hmarks.decides_isNull hlength).congr fun row hrow => ⟨fun hP => ⟨hP, ?_⟩, And.left⟩
    exact certain_of_fits hx hq hfound hnull (houter row hrow) (hinner row hrow)
  | true =>
    replace h : (b.notInWithNulls query k found.plan found.column found.flag).start c s₃ =
      (.ok (plan, predicate), s') := by simpa [hnull] using h
    obtain ⟨q', s₄, -, -, hq', -⟩ := exists_of_notInWithNulls h
    have hs' := ((tame_notInWithNulls ht query k _ _ _).of_start c s₃ _ s' h).1.exprs
    obtain ⟨more, added, hmarks⟩ := marks_flagged rt env ht hb hk hx hq hfound
      (hfree.mono (Nat.le_refl _) hs')
    have hk₃ := hk.of_length
      ((holds_flagged (serves Logic.roams_correlation hb) (k.fits_bookings hk.levels c) e
        trivial).captured_length (k.bookings_fits c s) hfound)
    refine (decides_notInWithNulls rt env ht hb hk₃ hmarks hq' h hs₃ hfree hlength).congr
      fun row hrow => and_congr_right fun _ => ?_
    exact certain_perm (hagain q' s₄ hq' row hrow)

/-- NOT IN as a condition on the rows of a block, where the rows respect the schemas and the
subquery has the same values when it is bound again. Each row stays, and the condition is TRUE where
NOT IN is. It is also TRUE for values that are found, if their columns have names that blur. -/
theorem notIn_holds_iff (rt : Runtime) (env : Env) (depth : Nat) (e : Sql.Expr) (query : Sql.Query)
    (k : Block) (c : BindContext) (s s₁ s₂ s₃ s' : BindState) (x : Scalar) (q : BoundQuery)
    (found : Flagged) (plan : Plan) (predicate : Scalar) (hk : k.Placed s)
    (hx : (k.scope.bindChecked e).start c s = (.ok x, s₁))
    (hq : ((ofDepth depth).query query k.scope.levels).start c s₁ = (.ok q, s₂))
    (hfound : ((ofDepth depth).flagged e query k).start c s = (.ok found, s₃))
    (h : ((ofDepth depth).in_ e query true k).start c s = (.ok (plan, predicate), s'))
    (hnames : k.plan.schema.Free s.names.exprs s'.names.exprs)
    (houter : ∀ row ∈ k.plan.rows rt env, k.plan.schema.Fits row)
    (hinner : ∀ row ∈ k.plan.rows rt env,
      ∀ r ∈ (InnerQuery.ofBound q).rowsFor rt env k.plan.schema row, q.plan.root.schema.Fits r)
    (hagain : ∀ q' s₄, ((ofDepth depth).query query k.scope.levels).start c s₃ = (.ok q', s₄) →
      ∀ row ∈ k.plan.rows rt env,
        ((InnerQuery.ofBound q').valuesFor rt env k.plan.schema row).Perm
          ((InnerQuery.ofBound q).valuesFor rt env k.plan.schema row)) :
    k.plan.Decides rt env plan predicate fun row =>
      let value := x.eval rt.toOperations env k.plan.schema row
      let values := (InnerQuery.ofBound q).valuesFor rt env k.plan.schema row
      (rt.isIn value values).not = .true ∨
        (InnerQuery.ofBound q).Blurs k.plan.schema found.column ∧
          (values = [] ∨ value ≠ .null ∧ .null ∉ values) := by
  refine (decides_notIn rt env (isTame_ofDepth depth)
    (binds_ofDepth Logic.roams_correlation depth) hk hx hq hfound h hnames
    houter hinner hagain).congr fun row _ => ?_
  simp only [Operations.not_isIn_eq_true, Certain]
  tauto

def shadowing : Block :=
  let plan : Plan := .scan
    { entity := "p", relation := "t", source := .entity, primaryKey := none, rowCount := none,
      columns := [⟨"k", .fixedSizeBinary 16, true, none⟩, ⟨"j", .int32, true, none⟩] }
  ⟨plan, .ofSchema plan.schema []⟩

def shadowingColumn : Sql.Expr := .compound [⟨"t", none⟩, ⟨"k", none⟩]

def shadowingQuery : Sql.Query :=
  match Sql.parseStatement "SELECT t.k FROM t WHERE j = 1" with
  | .ok (.query q) => q
  | _ => default

def shadowingTables : Runtime := .ofTables fun entity =>
  if entity = "p" then
    [[.text "a", .int32 1], [.text "b", .int32 1], [.null, .int32 1], [.text "a", .int32 0]]
  else [[.text "a"]]

def shadowingContext : BindContext :=
  { catalog := { entities := [.new "t" "k"] }, options := {} }

theorem shadowing_notIn_holds :
    ∃ (x : Scalar) (q : BoundQuery) (found : Flagged) (plan : Plan) (predicate : Scalar)
      (s₁ s₂ s₃ s' : BindState),
      (shadowing.scope.bindChecked shadowingColumn).start shadowingContext { session := .empty } =
        (.ok x, s₁) ∧
      ((ofDepth 1).query shadowingQuery shadowing.scope.levels).start shadowingContext s₁ =
        (.ok q, s₂) ∧
      ((ofDepth 1).flagged shadowingColumn shadowingQuery shadowing).start shadowingContext
        { session := .empty } = (.ok found, s₃) ∧
      ((ofDepth 1).in_ shadowingColumn shadowingQuery true shadowing).start shadowingContext
        { session := .empty } = (.ok (plan, predicate), s') ∧
      (∃ row ∈ shadowing.plan.rows shadowingTables .empty,
        shadowingTables.isIn (x.eval shadowingTables.toOperations .empty shadowing.plan.schema row)
          ((InnerQuery.ofBound q).valuesFor shadowingTables .empty shadowing.plan.schema row) =
            .true ∧
        (InnerQuery.ofBound q).Blurs shadowing.plan.schema found.column) ∧
      shadowing.plan.Decides shadowingTables .empty plan predicate fun row =>
        let value := x.eval shadowingTables.toOperations .empty shadowing.plan.schema row
        let values := (InnerQuery.ofBound q).valuesFor shadowingTables .empty
          shadowing.plan.schema row
        (shadowingTables.isIn value values).not = .true ∨
          (InnerQuery.ofBound q).Blurs shadowing.plan.schema found.column ∧
            (values = [] ∨ value ≠ .null ∧ .null ∉ values) := by
  have hx := start_eq_value (x := shadowing.scope.bindChecked shadowingColumn)
    (c := shadowingContext) (s := { session := .empty }) (by decide +kernel)
  have hq := start_eq_value (x := (ofDepth 1).query shadowingQuery shadowing.scope.levels)
    (c := shadowingContext)
    (s := ((shadowing.scope.bindChecked shadowingColumn).start shadowingContext
      { session := .empty }).2)
    (by decide +kernel)
  have hfound := start_eq_value (x := (ofDepth 1).flagged shadowingColumn shadowingQuery shadowing)
    (c := shadowingContext) (s := { session := .empty }) (by decide +kernel)
  have h := start_eq_value (x := (ofDepth 1).in_ shadowingColumn shadowingQuery true shadowing)
    (c := shadowingContext) (s := { session := .empty }) (by decide +kernel)
  refine ⟨_, _, _, _, _, _, _, _, _, hx, hq, hfound, h, by decide +kernel,
    notIn_holds_iff shadowingTables .empty 1 _ _ _ _ _ _ _ _ _ _ _ _ _ _
      ⟨rfl, by decide⟩ hx hq hfound h
      (by decide +kernel) (by decide +kernel) (by decide +kernel) fun q' s₄ hq' => ?_⟩
  rw [← value_of_start hq']
  decide +kernel

theorem shadowing_notIn_keeps_found :
    ∃ (q : BoundQuery) (plan : Plan) (predicate : Scalar) (s₁ s₂ : BindState),
      ((ofDepth 1).query shadowingQuery shadowing.scope.levels).start shadowingContext
        { session := .empty } = (.ok q, s₁) ∧
      ((ofDepth 1).in_ shadowingColumn shadowingQuery true shadowing).start shadowingContext
        { session := .empty } = (.ok (plan, predicate), s₂) ∧
      (InnerQuery.ofBound q).valuesFor shadowingTables .empty shadowing.plan.schema
        [.text "a", .int32 1] = [.text "a"] ∧
      ((Plan.filter plan predicate).rows shadowingTables .empty).head?.map (·.take 2) =
        some [.text "a", .int32 1] := by
  have hq := start_eq_value (x := (ofDepth 1).query shadowingQuery shadowing.scope.levels)
    (c := shadowingContext) (s := { session := .empty }) (by decide +kernel)
  have h := start_eq_value (x := (ofDepth 1).in_ shadowingColumn shadowingQuery true shadowing)
    (c := shadowingContext) (s := { session := .empty }) (by decide +kernel)
  exact ⟨_, _, _, _, _, hq, h, by decide +kernel, by decide +kernel⟩

end QueryBinder

end BatchPlan
