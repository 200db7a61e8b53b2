import BatchPlan.Binding.Scalar
import BatchPlan.Proofs.Meaning.Scalar
import Mathlib.Data.List.Forall2

namespace BatchPlan

/-- No value tells the two apart. -/
def Operations.Alike (ops : Operations) (v w : Value) : Prop :=
  ∀ u, ops.same u v = ops.same u w

/-- How plans are run. -/
structure Runtime extends Operations where
  source : Env → Plan → List Row
  sort : List SortKey → Schema → List Row → List Row
  distinct : List Row → List Row
  /-- The row that is taken where one of several will do. -/
  pick : List Row → Option Row
  aggregate : Env → Schema → AggregateValue → List Row → Value
  sort_perm : ∀ keys s rows, (sort keys s rows).Perm rows
  distinct_subset : ∀ rows, distinct rows ⊆ rows
  distinct_covers : ∀ rows, ∀ row ∈ rows, ∃ kept ∈ distinct rows,
    List.Forall₂ toOperations.Alike kept row
  pick_mem : ∀ {rows row}, pick rows = some row → row ∈ rows
  pick_eq_none : ∀ {rows}, pick rows = none → rows = []

/-- A runtime over stored tables in which a value is equal to itself only. It knows no order,
patterns, arithmetic or functions. -/
def Runtime.ofTables (tables : String → List Row) : Runtime where
  equal v w := v == w
  less _ _ := false
  like _ _ := false
  arithmetic _ v _ := v
  negate v := v
  cast _ v := v
  call _ _ := .text ""
  equal_int m n := by simp [BEq.beq]
  arithmetic_ne_null _ _ _ h _ := h
  negate_ne_null _ h := h
  cast_ne_null _ _ h := h
  call_ne_null _ _ _ := by simp
  source _
    | .scan s => tables s.entity
    | _ => []
  sort _ _ rows := rows
  distinct := List.eraseDups
  pick := List.head?
  aggregate _ _ _ _ := .null
  sort_perm _ _ _ := .refl _
  distinct_subset rows row h := by simpa using h
  distinct_covers rows row h := ⟨row, by simpa using h, List.forall₂_same.2 fun _ _ _ => rfl⟩
  pick_mem h := List.mem_of_mem_head? h
  pick_eq_none h := List.head?_eq_none_iff.1 h

def Env.bind (env : Env) (s : Schema) (row : Row) (bindings : List OuterBinding) : Env :=
  { env with param := fun p => match bindings.find? (·.param == p) with
    | some b => s.read row b.column
    | none => env.param p }

/-- Are values of a matching row looked up for each left row? -/
def JoinSpec.isLookup (j : JoinSpec) : Bool :=
  j.type == .leftOuter && j.output == .left && !j.anti

def JoinStrategy.agrees (ops : Operations) (left right : Schema) (l r : Row) : JoinStrategy → Bool
  | .merge leftKey rightKey | .hash leftKey rightKey =>
    ops.same (left.read l leftKey) (right.read r rightKey) == .true
  | .nestedLoop _ => true

def JoinSpec.admits (j : JoinSpec) (ops : Operations) (env : Env) (left right : Schema)
    (l r : Row) : Bool :=
  j.strategy.agrees ops left right l r &&
    j.condition.all fun e => (e.eval ops env (left.merge right) (l ++ r)).truth == .true

namespace Runtime

variable (rt : Runtime)

def total (env : Env) (s : Schema) (rows : List Row) (v : AggregateValue) : Value :=
  match v.function, v.args, v.distinct with
  | .countStar, _, _ => .int32 rows.length
  | .count, [e], false =>
    .int32 (rows.filter fun row => e.eval rt.toOperations env s row != .null).length
  | _, _, _ => rt.aggregate env s v rows

/-- The values that a join adds to a left row, NULL if nothing matches. -/
def lookup (env : Env) (s : Schema) (definitions : List Definition) (matching : List Row) : Row :=
  definitions.map fun d => ((rt.pick matching).map (d.expr.eval rt.toOperations env s)).getD .null

end Runtime

def Schema.project (s : Schema) (columns : List Column) (row : Row) : Row :=
  (columns.filter fun c => (s.field? c).isSome).map (s.read row)

namespace Plan

def rows (rt : Runtime) : Plan → Env → List Row
  | .filter input e, env =>
    (input.rows rt env).filter fun row =>
      (e.eval rt.toOperations env input.schema row).truth == .true
  | .compute input values, env =>
    (input.rows rt env).map fun row =>
      row ++ values.map fun d => d.expr.eval rt.toOperations env input.schema row
  | .sort input keys, env => rt.sort keys input.schema (input.rows rt env)
  | .distinct input columns, env =>
    rt.distinct ((input.rows rt env).map (input.schema.project columns))
  | .spool id input kind mode, env =>
    match mode with
    | .table => input.rows rt env
    | mode => rt.source env (.spool id input kind mode)
  | .aggregate input spec, env =>
    if spec.groupBy.isEmpty then
      [spec.values.map (rt.total env input.schema (input.rows rt env))]
    else rt.source env (.aggregate input spec)
  | .join left right spec, env =>
    if spec.isLookup then
      (left.rows rt env).map fun l =>
        l ++ rt.lookup env right.schema spec.definitions
          ((right.rows rt (env.bind left.schema l spec.strategy.bindings)).filter
            (spec.admits rt.toOperations env left.schema right.schema l))
    else rt.source env (.join left right spec)
  | p, env => rt.source env p

end Plan

@[simp]
theorem Schema.fields_withPrimaryKey (s : Schema) (key : Option Column) :
    (s.withPrimaryKey key).fields = s.fields := rfl

@[simp]
theorem Schema.fields_withSortOrder (s : Schema) (keys : List SortKey) :
    (s.withSortOrder keys).fields = s.fields := rfl

@[simp]
theorem Schema.fields_ofFields (fields : List Field) :
    (Schema.ofFields fields).fields = fields := rfl

theorem Plan.fields_ordered (p : Plan) (keys : List SortKey) :
    (p.ordered keys).schema.fields = p.schema.fields := by
  unfold ordered
  split <;> rfl

theorem Plan.fields_join_both (left right : Plan) {j : JoinSpec} (h : j.output = .both) :
    (Plan.join left right j).schema.fields =
      padded (j.type == .fullOuter) left.schema.fields ++
        padded (j.type == .leftOuter || j.type == .fullOuter) right.schema.fields ++
          j.definitions.map Definition.field := by
  simp [schema, joinSchema, h, Schema.ofFields, Schema.withPrimaryKey, Schema.withSortOrder]

theorem Plan.padded_false (fields : List Field) : padded false fields = fields := by
  simp [padded]

theorem Plan.rows_ordered (rt : Runtime) (env : Env) (p : Plan) (keys : List SortKey) :
    ((p.ordered keys).rows rt env).Perm (p.rows rt env) := by
  unfold ordered
  split
  next => exact .refl _
  next =>
    rw [rows]
    exact rt.sort_perm keys p.schema (p.rows rt env)

/-- A plan has the rows of another one, each once, with more values at the end. -/
structure Plan.Extends (rt : Runtime) (env : Env) (p q : Plan) (more : Schema)
    (values : Row → Row) : Prop where
  fields : q.schema.fields = p.schema.fields ++ more.fields
  rows : (q.rows rt env).Perm ((p.rows rt env).map fun row => row ++ values row)
  length : ∀ row, (values row).length = more.fields.length

namespace Plan.Extends

variable {rt : Runtime} {env : Env} {p q r : Plan} {more more' : Schema}
    {values values' : Row → Row}

theorem refl (p : Plan) : p.Extends rt env p .empty fun _ => [] :=
  ⟨by simp [Schema.empty], by simp, fun _ => rfl⟩

theorem trans (h : p.Extends rt env q more values) (h' : q.Extends rt env r more' values') :
    p.Extends rt env r (more.merge more') fun row => values row ++ values' (row ++ values row) := by
  refine ⟨?_, ?_, fun row => ?_⟩
  · rw [h'.fields, h.fields, List.append_assoc]
    rfl
  · refine h'.rows.trans ((h.rows.map _).trans ?_)
    simp [Function.comp_def]
  · simp [h.length, h'.length, Schema.merge]

theorem define (p : Plan) (ds : List Definition) :
    p.Extends rt env (p.define ds) (.ofFields (ds.map Definition.field))
      fun row => ds.map fun d => d.expr.eval rt.toOperations env p.schema row := by
  unfold Plan.define
  split
  next h =>
    rw [List.isEmpty_iff] at h
    subst h
    exact .refl p
  next =>
    refine ⟨rfl, ?_, by simp⟩
    rw [Plan.rows]

theorem of_ordered {keys : List SortKey} (h : (p.ordered keys).Extends rt env q more values) :
    p.Extends rt env q more values :=
  ⟨h.fields.trans (by rw [fields_ordered]), h.rows.trans ((rows_ordered rt env p keys).map _),
    h.length⟩

theorem lookup (p right : Plan) {j : JoinSpec} (hj : j.isLookup) :
    p.Extends rt env (.join p right j) (.ofFields (j.definitions.map Definition.field))
      fun l => rt.lookup env right.schema j.definitions
        ((right.rows rt (env.bind p.schema l j.strategy.bindings)).filter
          (j.admits rt.toOperations env p.schema right.schema l)) := by
  have houtput : j.output = .left := by
    simp only [JoinSpec.isLookup, Bool.and_eq_true, beq_iff_eq] at hj
    exact hj.1.2
  refine ⟨?_, ?_, fun l => by simp [Runtime.lookup]⟩
  · simp [Plan.schema, Plan.joinSchema, houtput]
  · rw [Plan.rows, if_pos hj]

end Plan.Extends

/-- A column of a plan has a value that is a function of the row that is extended. -/
structure Column.Carries (c : Column) (p q : Plan) (values : Row → Row) (value : Row → Value) :
    Prop where
  contains : q.schema.contains c
  read : ∀ row, row.length = p.schema.fields.length →
    q.schema.read (row ++ values row) c = value row

namespace Plan.Extends

variable {rt : Runtime} {env : Env} {p q r : Plan} {more more' : Schema}
    {values values' : Row → Row}
  {c : Column} {value : Row → Value} {first middle last : Nat} {row : Row}

theorem free (h : p.Extends rt env q more values) (hp : p.schema.Free first last)
    (hmore : more.Generated first middle) (hmiddle : first ≤ middle) : q.schema.Free middle last :=
  (Schema.free_append h.fields).2 ⟨hp.mono hmiddle (Nat.le_refl last), hmore.free⟩

theorem length_row (h : p.Extends rt env q more values)
    (hrow : row.length = p.schema.fields.length) :
    (row ++ values row).length = q.schema.fields.length := by
  rw [List.length_append, h.length, h.fields, List.length_append, hrow]

theorem carries_old (h : p.Extends rt env q more values) (hp : p.schema.Free first last)
    (hmore : more.Generated first last) (hc : p.schema.contains c) :
    c.Carries p q values fun row => p.schema.read row c := by
  have hlacks := hp.lacks hmore (Schema.not_lacks_of_contains hc)
  exact ⟨Schema.contains_append h.fields hc hlacks,
    fun row hrow => Schema.read_append_left h.fields hrow hlacks⟩

theorem carries_new (h : p.Extends rt env q more values) (hp : p.schema.Lacks c)
    (hmore : more.contains c) (hread : ∀ row, more.read (values row) c = value row) :
    c.Carries p q values value :=
  ⟨Schema.contains_append_right h.fields hp hmore,
    fun row hrow => (Schema.read_append_right h.fields hrow hp).trans (hread row)⟩

theorem carries_trans (h : p.Extends rt env q more values) (h' : q.Extends rt env r more' values')
    (hq : q.schema.Free first last) (hmore : more'.Generated first last)
    (hc : c.Carries p q values value) :
    c.Carries p r (fun row => values row ++ values' (row ++ values row)) value := by
  obtain ⟨hcontains, hread⟩ := h'.carries_old hq hmore hc.contains
  refine ⟨hcontains, fun row hrow => ?_⟩
  rw [← List.append_assoc, hread _ (h.length_row hrow), hc.read row hrow]

theorem carries_comp (h : p.Extends rt env q more values) (hc : c.Carries q r values' value) :
    c.Carries p r (fun row => values row ++ values' (row ++ values row))
      fun row => value (row ++ values row) :=
  ⟨hc.contains, fun row hrow => by rw [← List.append_assoc, hc.read _ (h.length_row hrow)]⟩

theorem bind_eq (h : p.Extends rt env q more values) (hp : p.schema.Free first last)
    (hmore : more.Generated first last) {bindings : List OuterBinding}
    (hbindings : ∀ b ∈ bindings, ¬ p.schema.Lacks b.column)
    (hrow : row.length = p.schema.fields.length) :
    env.bind q.schema (row ++ values row) bindings = env.bind p.schema row bindings := by
  unfold Env.bind
  congr 1
  funext param
  cases hfind : bindings.find? (·.param == param) with
  | none => rfl
  | some b =>
    have hlacks := hp.lacks hmore (hbindings b (List.mem_of_find?_eq_some hfind))
    exact Schema.read_append_left h.fields hrow hlacks

end Plan.Extends

/-- A plan has the rows of another one, each once, with more values at the end. A condition on it is
TRUE for those that satisfy `P`. -/
def Plan.Decides (rt : Runtime) (env : Env) (p q : Plan) (condition : Scalar) (P : Row → Prop) :
    Prop :=
  ∃ added : Row → Row, (q.rows rt env).Perm ((p.rows rt env).map fun row => row ++ added row) ∧
    ∀ row ∈ p.rows rt env,
      (condition.eval rt.toOperations env q.schema (row ++ added row)).truth = .true ↔ P row

theorem Plan.Decides.congr {rt : Runtime} {env : Env} {p q : Plan} {condition : Scalar}
    {P Q : Row → Prop} (h : p.Decides rt env q condition P)
    (hPQ : ∀ row ∈ p.rows rt env, (P row ↔ Q row)) : p.Decides rt env q condition Q := by
  obtain ⟨added, hrows, hholds⟩ := h
  exact ⟨added, hrows, fun row hrow => (hholds row hrow).trans (hPQ row hrow)⟩

end BatchPlan
