import BatchPlan.Proofs.Binding.Run
import BatchPlan.Proofs.Meaning.Rows

namespace BatchPlan

open BindM

variable {c : BindContext}

theorem start_freshExpr {s s' : BindState} {name : String}
    (h : freshExpr.start c s = (.ok name, s')) : name = exprName (s.names.exprs + 1) ∧
      s' = { s with names := { s.names with exprs := s.names.exprs + 1 } } := by
  cases h
  exact ⟨rfl, rfl⟩

theorem generated_singleton {d : Definition} {first last n : Nat} (hname : d.name = exprName n)
    (hfirst : first < n) (hlast : n ≤ last) : (Schema.ofFields [d.field]).Generated first last := by
  intro f hf
  cases List.mem_singleton.1 hf
  exact ⟨rfl, n, hlast, hfirst, hname⟩

theorem candidates_singleton (d : Definition) :
    (Schema.ofFields [d.field]).candidates d.column = [(0, d.field)] := by
  simp [Schema.candidates, Definition.column, Definition.field, Column.bare, Column.text]

theorem Plan.extends_withColumn (rt : Runtime) (env : Env) {p plan : Plan}
    {x : Scalar} {column : Column}
    {type : DataType} {s s' : BindState} (htype : x.dataType p.schema = .ok type)
    (h : (p.withColumn x).start c s = (.ok (plan, column), s'))
    (hfree : p.schema.Free s.names.exprs s'.names.exprs) :
    ∃ more values, p.Extends rt env plan more values ∧
      more.Generated s.names.exprs s'.names.exprs ∧
      column.Carries p plan values (fun row => x.eval rt.toOperations env p.schema row) ∧
      ∀ (t : Schema) (d : Column), t.Lacks column → ¬ t.Lacks d → more.Lacks d := by
  obtain ⟨⟨column', definition⟩, s₁, hcolumn, h⟩ := exists_of_start_bind h
  cases h
  unfold Scalar.asColumn at hcolumn
  split at hcolumn
  next d =>
    cases hcolumn
    have hcontains : p.schema.contains column := by
      rw [Scalar.dataType] at htype
      cases hfield : p.schema.resolve column with
      | error e => simp [hfield, bind, Except.bind] at htype
      | ok found => exact Schema.contains_iff.2 ⟨_, _, Schema.candidates_of_resolve hfield⟩
    refine ⟨.empty, fun _ => [], .refl p, by simp [Schema.Generated, Schema.empty], ?_,
      fun _ _ _ _ => rfl⟩
    exact ⟨hcontains, fun row _ => by simp [Plan.define, Scalar.eval]⟩
  next =>
    obtain ⟨type', -, hcolumn⟩ := exists_of_start_lift_bind hcolumn
    obtain ⟨name, s₂, hname, hcolumn⟩ := exists_of_start_bind hcolumn
    obtain ⟨rfl, rfl⟩ := start_freshExpr hname
    cases hcolumn
    have hgenerated : ∀ d : Definition, d.name = exprName (s.names.exprs + 1) →
        (Schema.ofFields [d.field]).Generated s.names.exprs (s.names.exprs + 1) :=
      fun d hd => generated_singleton hd (Nat.lt_succ_self _) (Nat.le_refl _)
    refine ⟨_, _, .define p [_], hgenerated _ rfl, ?_, ?_⟩
    · refine (Plan.Extends.define p [_]).carries_new (hfree _ (Nat.le_refl _) (Nat.lt_succ_self _))
        (Schema.contains_iff.2 ⟨_, _, candidates_singleton _⟩) fun row => ?_
      exact Schema.read_of_candidates (candidates_singleton _)
    · intro t d ht hd
      rw [Schema.lacks_iff]
      intro g hg
      cases List.mem_singleton.1 hg
      exact t.not_answersTo rfl ht hd

theorem Runtime.lookup_foundFlag (rt : Runtime) (env : Env) (s : Schema) (name : String)
    (matching : List Row) :
    rt.lookup env s [foundFlag name] matching = [if matching = [] then .null else .int32 1] := by
  cases h : rt.pick matching with
  | none =>
    obtain rfl := rt.pick_eq_none h
    simp [lookup, h]
  | some r =>
    simp [lookup, h, List.ne_nil_of_mem (rt.pick_mem h), foundFlag, Scalar.int, Scalar.eval]

def foundJoin (strategy : JoinStrategy) (condition : Option Scalar) (name : String) : JoinSpec :=
  { type := .leftOuter, strategy, output := .left, condition, definitions := [foundFlag name] }

theorem Plan.extends_foundJoin (rt : Runtime) (env : Env) (p right : Plan) (strategy : JoinStrategy)
    (condition : Option Scalar) (name : String) :
    ∃ flag : Row → Value,
      p.Extends rt env (.join p right (foundJoin strategy condition name))
        (.ofFields [(foundFlag name).field]) (fun l => [flag l]) ∧
      ∀ l, flag l ≠ .null ↔ ∃ r ∈ right.rows rt (env.bind p.schema l strategy.bindings),
        (foundJoin strategy condition name).admits rt.toOperations env p.schema
          right.schema l r := by
  have h : p.Extends rt env _ _ _ :=
    .lookup p right (j := foundJoin strategy condition name) rfl
  simp only [foundJoin, Runtime.lookup_foundFlag] at h
  refine ⟨_, h, fun l => ?_⟩
  simp [foundJoin]

namespace InnerQuery

def rowsFor (q : InnerQuery) (rt : Runtime) (env : Env) (s : Schema) (row : Row) : List Row :=
  q.root.rows rt (env.bind s row (q.captured.map (·.binding)))

def valuesFor (q : InnerQuery) (rt : Runtime) (env : Env) (s : Schema) (row : Row) : List Value :=
  (q.rowsFor rt env s row).map fun r => (q.column.map (q.root.schema.read r)).getD .null

/-- Where a subquery runs for each row, the two columns are compared in a row of both sides. Does
one of them have a name there that the other side has too? -/
def Blurs (q : InnerQuery) (s : Schema) (outer : Column) : Prop :=
  q.correlated ∧ (¬ q.root.schema.Lacks outer ∨ ∃ inner ∈ q.column, ¬ s.Lacks inner)

instance (q : InnerQuery) (s : Schema) (outer : Column) : Decidable (q.Blurs s outer) :=
  inferInstanceAs (Decidable (_ ∧ _))

variable {q : InnerQuery} {rt : Runtime} {env : Env} {s : Schema} {row : Row}

theorem rowsFor_of_captured (h : q.captured = []) :
    q.rowsFor rt env s row = q.root.rows rt env := by
  simp [rowsFor, h, Env.bind]

theorem rowsFor_extends {p p' : Plan} {more : Schema} {values : Row → Row} {first last : Nat}
    (h : p.Extends rt env p' more values) (hp : p.schema.Free first last)
    (hmore : more.Generated first last)
    (hcaptured : ∀ binding ∈ q.captured.map (·.binding), ¬ p.schema.Lacks binding.column)
    (hrow : row.length = p.schema.fields.length) :
    q.rowsFor rt env p'.schema (row ++ values row) = q.rowsFor rt env p.schema row := by
  rw [rowsFor, rowsFor, h.bind_eq hp hmore hcaptured hrow]

theorem blurs_append {a b : Schema} {outer inner : Column} (h : s.fields = a.fields ++ b.fields)
    (hcolumn : q.column = some inner) (hb : q.root.schema.Lacks outer → b.Lacks inner) :
    q.Blurs s outer ↔ q.Blurs a outer := by
  simp only [Blurs, hcolumn, Option.mem_some_iff, exists_eq_left', Schema.lacks_append h]
  grind

end InnerQuery

namespace QueryBinder

variable {q : InnerQuery} {p : Plan} {outer inner : Column} {place : Nat} {field : Field}
  {name : String}
variable {c : BindContext} {s s' : BindState} {n : Nat} {plan : Plan}

/-- A condition on a row of both sides compares the columns, unless their names are blurred. -/
theorem admits_iff (ops : Operations) (env : Env) {left right : Schema} {l r : Row}
    (houter : left.contains outer) (hinner : right.contains inner)
    (hl : l.length = left.fields.length) (bindings : List OuterBinding) :
    (foundJoin (.nestedLoop bindings) (some ((Scalar.column outer).eq (.column inner))) name).admits
        ops env left right l r ↔
      ¬ (¬ right.Lacks outer ∨ ¬ left.Lacks inner) ∧
        ops.same (left.read l outer) (right.read r inner) = .true := by
  have hmerge : (left.merge right).fields = left.fields ++ right.fields := rfl
  simp only [foundJoin, JoinSpec.admits, JoinStrategy.agrees, Option.all_some,
    Scalar.eq, Scalar.eval, Bool.true_and, beq_iff_eq]
  rw [← Operations.same]
  by_cases hright : right.Lacks outer
  · by_cases hleft : left.Lacks inner
    · rw [Schema.read_append_left hmerge hl hright, Schema.read_append_right hmerge hl hleft]
      simp [hright, hleft]
    · rw [Schema.read_append_clash hmerge hleft (Schema.not_lacks_of_contains hinner)]
      simp [hleft]
  · rw [Schema.read_append_clash hmerge (Schema.not_lacks_of_contains houter) hright]
    simp [hright]

theorem rows_spooled (rt : Runtime) (h : p.spooled.start c s = (.ok plan, s')) :
    plan.schema.fields = p.schema.fields ∧ (∀ env, plan.rows rt env = p.rows rt env) ∧
      s'.names.exprs = s.names.exprs := by
  unfold Plan.spooled at h
  split at h
  next => cases h; exact ⟨rfl, fun _ => rfl, rfl⟩
  next => cases h; exact ⟨rfl, fun _ => rfl, rfl⟩
  next =>
    obtain ⟨id, s₁, hid, h⟩ := exists_of_start_bind h
    cases hid
    cases h
    exact ⟨by simp [Plan.schema, Plan.spoolSchema], fun _ => by rw [Plan.rows], rfl⟩

/-- A subquery is joined with its own rows, and is given the columns that it reads. -/
theorem exists_of_joinTo (rt : Runtime) {left : Plan} {condition : Option Scalar}
    {definitions : List Definition} (hplain : q.correlated = false → q.captured = [])
    (h : (q.joinTo left condition definitions).start c s = (.ok plan, s')) :
    ∃ right : Plan, right.schema.fields = q.root.schema.fields ∧
      (∀ env, right.rows rt env = q.root.rows rt env) ∧ s'.names.exprs = s.names.exprs ∧
      plan = .join left right
        { type := .leftOuter, strategy := .nestedLoop (q.captured.map (·.binding)),
          output := .left, condition := condition, definitions := definitions } := by
  unfold InnerQuery.joinTo at h
  cases hq : q.correlated with
  | true =>
    simp only [hq, if_true] at h
    cases h
    exact ⟨q.root, rfl, fun _ => rfl, rfl, rfl⟩
  | false =>
    simp only [hq, Bool.false_eq_true, if_false] at h
    obtain ⟨right, s₁, hright, h⟩ := exists_of_start_bind h
    cases h
    obtain ⟨hfields, hrows, hs⟩ := rows_spooled rt hright
    exact ⟨right, hfields, hrows, hs, by rw [hplain hq]; rfl⟩

theorem exists_distinct_iff {rt : Runtime} {env : Env} {v : Value}
    (hinner : p.schema.contains inner) : (∃ r ∈ (Plan.distinct p [inner]).rows rt env,
      rt.same v ((Plan.distinct p [inner]).schema.read r inner) = .true) ↔
    ∃ r ∈ p.rows rt env, rt.same v (p.schema.read r inner) = .true := by
  obtain ⟨i, f, hf⟩ := Schema.contains_iff.1 hinner
  have hfield : p.schema.field? inner = some f := Schema.field?_eq_some.2 ⟨i, hf⟩
  have hanswers := (Schema.mem_candidates.1 (hf ▸ List.mem_singleton_self (i, f))).2
  have hcandidates : (Plan.distinct p [inner]).schema.candidates inner = [(0, f)] := by
    simp [Plan.schema, hfield, Schema.candidates, hanswers]
  have hrows : (Plan.distinct p [inner]).rows rt env =
      rt.distinct ((p.rows rt env).map fun r => [p.schema.read r inner]) := by
    rw [Plan.rows]
    congr 2
    funext r
    simp [Schema.project, hfield]
  simp only [hrows, Schema.read_of_candidates hcandidates]
  constructor
  · rintro ⟨r, hr, hsame⟩
    obtain ⟨r₀, hr₀, rfl⟩ := List.mem_map.1 (rt.distinct_subset _ hr)
    exact ⟨r₀, hr₀, by simpa using hsame⟩
  · rintro ⟨r, hr, hsame⟩
    have hmem : [p.schema.read r inner] ∈ (p.rows rt env).map fun r => [p.schema.read r inner] :=
      List.mem_map_of_mem (f := fun r => [p.schema.read r inner]) hr
    obtain ⟨kept, hkept, halike⟩ := rt.distinct_covers _ _ hmem
    obtain ⟨w, _, hw, -, rfl⟩ := List.forall₂_cons_right_iff.1 halike
    exact ⟨_, hkept, by simpa [hw v] using hsame⟩

theorem extends_membership (rt : Runtime) (env : Env) (houter : p.schema.contains outer)
    (hcolumn : q.column = some inner) (hinner : q.root.schema.contains inner)
    (hplain : q.correlated = false → q.captured = [])
    (h : (membership q p outer inner [foundFlag name]).start c s = (.ok plan, s')) :
    ∃ flag : Row → Value,
      p.Extends rt env plan (.ofFields [(foundFlag name).field]) (fun l => [flag l]) ∧
      s'.names.exprs = s.names.exprs ∧
      ∀ l, l.length = p.schema.fields.length →
        (flag l ≠ .null ↔ ¬ q.Blurs p.schema outer ∧
          rt.isIn (p.schema.read l outer) (q.valuesFor rt env p.schema l) = .true) := by
  unfold membership at h
  simp only [Operations.isIn_eq_true, InnerQuery.valuesFor, hcolumn, List.mem_map,
    exists_exists_and_eq_and, Option.map_some, Option.getD_some]
  cases hq : q.correlated with
  | true =>
    simp only [hq, if_true, InnerQuery.joinTo] at h
    cases h
    obtain ⟨flag, hextends, hflag⟩ := Plan.extends_foundJoin rt env p q.root
      (.nestedLoop (q.captured.map (·.binding)))
      (some ((Scalar.column outer).eq (.column inner))) name
    refine ⟨flag, hextends, rfl, fun l hl => ?_⟩
    rw [hflag]
    simp only [admits_iff rt.toOperations env houter hinner hl, InnerQuery.Blurs, hq, true_and,
      hcolumn, Option.mem_some_iff, exists_eq_left', InnerQuery.rowsFor, JoinStrategy.bindings]
    grind
  | false =>
    simp only [hq, Bool.false_eq_true, if_false] at h
    have hblurs : ¬ q.Blurs p.schema outer := by simp [InnerQuery.Blurs, hq]
    simp only [hblurs, not_false_eq_true, true_and, InnerQuery.rowsFor_of_captured (hplain hq)]
    split at h
    next =>
      cases h
      obtain ⟨flag, hextends, hflag⟩ := Plan.extends_foundJoin rt env (p.ordered [⟨outer, .asc⟩])
        (q.root.ordered [⟨inner, .asc⟩]) (.merge outer inner) none name
      refine ⟨flag, hextends.of_ordered, rfl, fun l _ => ?_⟩
      rw [hflag]
      simp [foundJoin, JoinSpec.admits, JoinStrategy.agrees, JoinStrategy.bindings,
        (Plan.rows_ordered rt env q.root _).mem_iff, Schema.read_congr (p.fields_ordered _),
        Schema.read_congr (q.root.fields_ordered _), Env.bind]
    next =>
      cases h
      obtain ⟨flag, hextends, hflag⟩ := Plan.extends_foundJoin rt env p (.distinct q.root [inner])
        (.hash outer inner) none name
      refine ⟨flag, hextends, rfl, fun l _ => ?_⟩
      rw [hflag, ← exists_distinct_iff hinner]
      simp [foundJoin, JoinSpec.admits, JoinStrategy.agrees, JoinStrategy.bindings, Env.bind]

theorem candidates_pair {s : Schema} {f g : Field} {m : Nat} (hs : s.fields = [f, g])
    (hf : f.name = exprName m) (hg : g.name = exprName n) (hmn : m ≠ n) :
    s.candidates (.bare (exprName m)) = [(0, f)] ∧
    s.candidates (.bare (exprName n)) = [(1, g)] := by
  simp [Schema.candidates, hs, Column.bare, Column.text, hf, hg, lower_exprName_inj,
    hmn, Ne.symm hmn]

theorem rows_summary (rt : Runtime) (env : Env) (p : Plan) (rows values : String)
    (column : Column) : (p.summary [.rowCount rows, .valueCount values column]).rows rt env =
      [[.int32 (p.rows rt env).length,
        .int32 (((p.rows rt env).map (p.schema.read · column)).filter (· != .null)).length]] := by
  simp [Plan.summary, Plan.rows, AggregateValue.rowCount, AggregateValue.valueCount, Runtime.total,
    List.filter_map, Scalar.eval, Function.comp_def]

theorem Runtime.pick_singleton (rt : Runtime) (row : Row) : rt.pick [row] = some row := by
  cases h : rt.pick [row] with
  | none => exact absurd (rt.pick_eq_none h) (by simp)
  | some r => rw [List.mem_singleton.1 (rt.pick_mem h)]

def counted (q : InnerQuery) (column : Column) (n : Nat) : InnerQuery :=
  let counts := [AggregateValue.rowCount (exprName (n + 1)), .valueCount (exprName (n + 2)) column]
  { q with root := q.root.summary counts }

def countDefinitions (n : Nat) : List Definition :=
  [{ name := exprName (n + 3), expr := .column (.bare (exprName (n + 1))), dataType := .int32 },
   { name := exprName (n + 4), expr := .column (.bare (exprName (n + 2))), dataType := .int32 }]

def countJoin (q : InnerQuery) (n : Nat) : JoinSpec :=
  { type := .leftOuter, strategy := .nestedLoop (q.captured.map (·.binding)), output := .left,
    definitions := countDefinitions n }

theorem generated_countDefinitions (n : Nat) :
    (Schema.ofFields ((countDefinitions n).map Definition.field)).Generated n (n + 4) := by
  simp only [countDefinitions, Schema.Generated, Schema.fields_ofFields, List.forall_mem_map,
    List.forall_mem_cons]
  exact ⟨⟨rfl, n + 3, by omega, by omega, rfl⟩, ⟨rfl, n + 4, by omega, by omega, rfl⟩, by simp⟩

theorem lookup_counts (rt : Runtime) (env : Env) {s : Schema}
    (hs : s.fields = (counted q inner n).root.schema.fields) (rows known : Value) :
    rt.lookup env s (countDefinitions n) [[rows, known]] = [rows, known] := by
  obtain ⟨hrows, hknown⟩ := candidates_pair hs rfl rfl (m := n + 1) (n := n + 2) (by omega)
  simp [Runtime.lookup, Runtime.pick_singleton, countDefinitions, Scalar.eval,
    Schema.read_of_candidates hrows, Schema.read_of_candidates hknown]

theorem extends_counts (rt : Runtime) (env : Env) (hcolumn : q.column = some inner)
    (hplain : q.correlated = false → q.captured = []) (hfree : p.schema.Free n (n + 4))
    (h : ((counted q inner n).joinTo p none (countDefinitions n)).start c s = (.ok plan, s')) :
    ∃ more values, p.Extends rt env plan more values ∧ more.Generated n (n + 4) ∧
      s'.names.exprs = s.names.exprs ∧
      (Column.bare (exprName (n + 3))).Carries p plan values
        (fun l => .int32 (q.valuesFor rt env p.schema l).length) ∧
      (Column.bare (exprName (n + 4))).Carries p plan values
        (fun l => .int32 ((q.valuesFor rt env p.schema l).filter (· != .null)).length) := by
  obtain ⟨right, hfields, hrows, hs, rfl⟩ := exists_of_joinTo (q := counted q inner n) rt hplain h
  have hextends : p.Extends rt env _ _ _ := .lookup p right (j := countJoin q n) rfl
  have hvalues (l : Row) : rt.lookup env right.schema (countJoin q n).definitions
      ((right.rows rt (env.bind p.schema l (countJoin q n).strategy.bindings)).filter
        ((countJoin q n).admits rt.toOperations env p.schema right.schema l)) =
      [.int32 (q.valuesFor rt env p.schema l).length,
        .int32 ((q.valuesFor rt env p.schema l).filter (· != .null)).length] := by
    have hall : ∀ r, (countJoin q n).admits rt.toOperations env p.schema right.schema l r :=
      fun _ => rfl
    rw [List.filter_eq_self.2 fun r _ => hall r, hrows, counted, rows_summary, countJoin,
      lookup_counts rt env hfields]
    simp [InnerQuery.valuesFor, InnerQuery.rowsFor, hcolumn, JoinStrategy.bindings]
  obtain ⟨hfirst, hsecond⟩ := candidates_pair (m := n + 3) (n := n + 4)
    (Schema.fields_ofFields ((countDefinitions n).map Definition.field)) rfl rfl (by omega)
  refine ⟨_, _, hextends, generated_countDefinitions n, hs, ?_, ?_⟩
  · refine hextends.carries_new (hfree _ (by omega) (by omega))
      (Schema.contains_iff.2 ⟨_, _, hfirst⟩) fun l => ?_
    exact (Schema.read_of_candidates hfirst).trans (by rw [hvalues]; rfl)
  · refine hextends.carries_new (hfree _ (by omega) (by omega))
      (Schema.contains_iff.2 ⟨_, _, hsecond⟩) fun l => ?_
    exact (Schema.read_of_candidates hsecond).trans (by rw [hvalues]; rfl)

end QueryBinder

end BatchPlan
