import BatchPlan.Proofs.Meaning.Unions
import BatchPlan.Proofs.Recursion.Stack

namespace BatchPlan

/-- Whole numbers are ordered, and sums are exact at least within 32 bits. -/
structure Operations.Counting (ops : Operations) : Prop where
  less : ∀ m n, ops.less (.int32 m) (.int32 n) = decide (m < n)
  add : ∀ m n, -2147483648 ≤ m + n → m + n < 2147483648 →
    ops.arithmetic .add (.int32 m) (.int32 n) = .int32 (m + n)

/-- All sums of whole numbers are exact. -/
def Operations.Unbounded (ops : Operations) : Prop :=
  ∀ m n, ops.arithmetic .add (.int32 m) (.int32 n) = .int32 (m + n)

/-- Does a join give the right rows for each left row? -/
def JoinSpec.isApply (j : JoinSpec) : Bool :=
  j.type == .inner && j.output == .right && j.condition.isNone && j.definitions.isEmpty

/-- What an operator makes of what its inputs give, nothing if a check fails. Of joins only those
are known that give the right rows for each left row. -/
def Plan.act (ops : Operations) (env : Env) :
    Plan → List (Env → Option (List Row)) → Option (List Row)
  | .compute input values, [given] =>
    (given env).map fun rows => rows.map fun row =>
      row ++ values.map fun d => d.expr.eval ops env input.schema row
  | .assert input e _, [given] =>
    (given env).filter fun rows =>
      rows.all fun row => (e.eval ops env input.schema row).truth == .true
  | .join left _ spec, [outer, inner] =>
    if spec.isApply then (outer env).bind fun rows =>
      (rows.mapM fun row => inner (env.bind left.schema row spec.strategy.bindings)).map
        List.flatten
    else none
  | _, _ => none

/-- The columns of a query stand for fields of its rows, as many as are asked for. -/
structure QueryPlan.Fills (q : QueryPlan) (width : Nat) : Prop where
  width : q.columns.length = width
  found : ∀ o ∈ q.columns, q.schema.contains o.source

/-- The values that a row of a query has in its columns. -/
def QueryPlan.result (q : QueryPlan) (row : Row) : Row :=
  q.schema.values .null (q.columns.map (·.source)) row

namespace Recursion

/-- How the inputs of a recursion are run: the rows of the anchor, and the rows that the step makes
for the values of a row. -/
structure Inputs where
  anchor : List Row
  step : Row → List Row

section

variable (r : Recursion) (ops : Operations) (m : Inputs) (env : Env)

/-- The rows of the step, for the values that its parameters have. -/
def stepGives (env : Env) : Option (List Row) :=
  r.stepRows.act ops env [fun env => some (m.step (r.columns.map fun c => env.param c.param))]

/-- The rows that a row leads to. -/
def loopGives (row : Row) (env : Env) : Option (List Row) :=
  r.loop.act ops env [fun _ => some [row], r.stepGives ops m]

/-- The same, as far as they pass the check of the level. -/
def recursionGives (row : Row) : Option (List Row) :=
  if r.bound = 0 then r.loopGives ops m row env else r.recursion.act ops env [r.loopGives ops m row]

/-- The rows of the stack at first. -/
def seeds : Option (List Row) :=
  (r.anchorRows.act ops env [fun _ => some m.anchor]).map fun rows =>
    rows.map (ConcatColumn.values .null r.stacked 0 r.anchorRows.schema)

/-- The rows that the stack takes for a row that it gives out. -/
def feed (row : Row) : Option (List Row) :=
  (r.recursionGives ops m env row).map fun rows =>
    rows.map (ConcatColumn.values .null r.stacked 1 r.recursion.schema)

/-- The rows that the stack takes for those of the level before. -/
def fedAt (r : Recursion) (ops : Operations) (m : Inputs) (env : Env) : Nat → Option (List Row)
  | 0 => r.seeds ops m env
  | k + 1 => (r.fedAt ops m env k).bind fun rows =>
    (rows.mapM (r.feed ops m env)).map List.flatten

/-- The rows that the step makes for a row. -/
def children (row : Row) : List Row :=
  (m.step row).map r.step.result

/-- The rows of a level: those of the anchor, and then what the step makes of those before. -/
def rowsAt : Nat → List Row
  | 0 => m.anchor.map r.anchor.result
  | k + 1 => (rowsAt k).flatMap (r.children m)

end

/-- The columns of a row without its level. -/
def rowColumns (r : Recursion) : List ConcatColumn :=
  stackColumns r.columns r.anchor r.step

/-- A row with its level. -/
def tag (k : Nat) (row : Row) : Row :=
  row ++ [.int32 k]

/-- Anchor and step have a column for each column of a row, and each of these has a parameter of its
own, as has the level. -/
structure Formed (r : Recursion) : Prop where
  params : (r.bindings.map (·.param)).Nodup
  anchor : r.anchor.Fills r.columns.length
  step : r.step.Fills r.columns.length

/-- The names of the levels are no names of other columns, and the columns of the stack have
different names. -/
structure Apart (r : Recursion) : Prop where
  names : (r.stacked.map fun c => Text.lower c.name).Nodup
  anchor : r.anchor.schema.Lacks (.bare r.first)
  step : r.step.schema.Lacks (.bare r.next)

/-- All rows have a value for each field. -/
structure Takes (r : Recursion) (m : Inputs) : Prop where
  anchor : ∀ row ∈ m.anchor, row.length = r.anchor.schema.fields.length
  step : ∀ row, ∀ out ∈ m.step row, out.length = r.step.schema.fields.length

/-- A value that is computed is found under its name, and the others where they were. -/
theorem value_compute {p : Plan} {d : Definition} (hd : p.schema.Lacks (.bare d.name)) {row : Row}
    (hrow : row.length = p.schema.fields.length) (v : Value) :
    (∀ c, p.schema.contains c →
      (Plan.compute p [d]).schema.value .null (row ++ [v]) c = p.schema.value .null row c) ∧
    (Plan.compute p [d]).schema.value .null (row ++ [v]) (.bare d.name) = v := by
  have hfields : (Plan.compute p [d]).schema.fields =
      p.schema.fields ++ (Schema.ofFields [d.field]).fields := rfl
  refine ⟨fun c hc => Schema.read_append_left hfields hrow (Schema.lacks_iff.2 ?_), ?_⟩
  · refine List.forall_mem_singleton.2 ?_
    exact Schema.not_answersTo p.schema (g := d.field) rfl hd (Schema.not_lacks_of_contains hc)
  · refine (Schema.read_append_right hfields hrow hd).trans ?_
    have hnames : ([d.field].map fun f => Text.lower f.name).Nodup := List.nodup_singleton _
    have hcandidates : (Schema.ofFields [d.field]).candidates (.bare d.name) = [(0, d.field)] :=
      Schema.candidates_bare hnames (i := 0) (f := d.field) rfl
    rw [Schema.read_of_candidates hcandidates]
    rfl

/-- A binding is found by its parameter. -/
theorem find?_param {bindings : List OuterBinding} (h : (bindings.map (·.param)).Nodup)
    {b : OuterBinding} (hb : b ∈ bindings) : bindings.find? (·.param == b.param) = some b := by
  obtain ⟨found, hfound⟩ : ∃ found, bindings.find? (·.param == b.param) = some found :=
    Option.isSome_iff_exists.1 (List.find?_isSome.2 ⟨b, hb, by simp⟩)
  have hparam : found.param = b.param := by simpa using List.find?_some hfound
  rw [hfound, List.inj_on_of_nodup_map h (List.mem_of_find?_eq_some hfound) hb hparam]

section

variable {r : Recursion} (hr : r.Formed)

/-- The row that goes onto the stack for one of the inputs. -/
theorem values_stacked {i width : Nat} {q : QueryPlan} {d : Definition} (hq : q.Fills width)
    (hd : q.schema.Lacks (.bare d.name)) (hlevel : r.levelColumn.sources[i]? = some (.bare d.name))
    (hsources : r.rowColumns.map (fun c => c.sources[i]?) = q.columns.map fun o => some o.source)
    {row : Row} (hrow : row.length = q.schema.fields.length) (v : Value) :
    ConcatColumn.values .null r.stacked i (Plan.compute q.root [d]).schema (row ++ [v]) =
      q.result row ++ [v] := by
  obtain ⟨hother, hown⟩ := value_compute hd hrow v
  have hrows : ConcatColumn.values .null r.rowColumns i (Plan.compute q.root [d]).schema
      (row ++ [v]) = q.result row := by
    refine (ConcatColumn.values_eq (p := ⟨.compute q.root [d], q.columns⟩) Value.null hsources
      _).trans ?_
    rw [QueryPlan.result, Schema.values, Schema.values, List.map_map, List.map_map]
    exact List.map_congr_left fun o ho => hother o.source (hq.found o ho)
  rw [← hrows, stacked, ConcatColumn.values, List.map_append, List.map_singleton, hlevel,
    Option.map_some, Option.getD_some, hown]
  rfl

include hr

theorem length_rowColumns : r.rowColumns.length = r.columns.length := by
  simp [rowColumns, stackColumns, hr.anchor.width, hr.step.width]

/-- The columns of a row come from those of anchor and step that are in the same place. -/
theorem sources_rowColumns :
    r.rowColumns.map (fun c => c.sources[0]?) = r.anchor.columns.map (fun o => some o.source) ∧
      r.rowColumns.map (fun c => c.sources[1]?) = r.step.columns.map fun o => some o.source := by
  have hwidth := hr.anchor.width.trans hr.step.width.symm
  have hzip : (r.columns.zip (r.anchor.columns.zip r.step.columns)).map Prod.snd =
      r.anchor.columns.zip r.step.columns :=
    List.map_snd_zip (by simp [hr.anchor.width, hr.step.width])
  have hanchor : (r.anchor.columns.zip r.step.columns).map Prod.fst = r.anchor.columns :=
    List.map_fst_zip (by omega)
  have hstep : (r.anchor.columns.zip r.step.columns).map Prod.snd = r.step.columns :=
    List.map_snd_zip (by omega)
  constructor
  · conv_rhs => rw [← hanchor, ← hzip]
    simp [rowColumns, stackColumns]
  · conv_rhs => rw [← hstep, ← hzip]
    simp [rowColumns, stackColumns]

/-- The columns that are bound are those of the stack. -/
theorem columns_bindings : r.bindings.map (·.column) =
    (r.stacked.map ConcatColumn.field).map fun f => Column.bare f.name := by
  have hzip : (r.columns.zip (r.anchor.columns.zip r.step.columns)).map Prod.fst = r.columns :=
    List.map_fst_zip (by simp [hr.anchor.width, hr.step.width])
  rw [bindings]
  conv_lhs => rw [← hzip]
  simp [stacked, stackColumns, levelColumn, ConcatColumn.field]

/-- The values of a row are handed to its parameters. -/
theorem params_bind (hapart : r.Apart) (env : Env) (k : Nat) {row : Row}
    (hrow : row.length = r.columns.length) :
    r.columns.map (fun c => (env.bind r.row.schema (tag k row) r.bindings).param c.param) = row ∧
      (env.bind r.row.schema (tag k row) r.bindings).param r.levelParam = .int32 k := by
  have hlength : (tag k row).length = (r.stacked.map ConcatColumn.field).length := by
    simp [tag, stacked, hrow, ← length_rowColumns hr, rowColumns]
  have hnames : ((r.stacked.map ConcatColumn.field).map fun f => Text.lower f.name).Nodup := by
    rw [List.map_map]
    exact hapart.names
  have hread : r.bindings.map (fun b => r.row.schema.read (tag k row) b.column) = tag k row := by
    have hvalues := Schema.values_bare Value.null hnames hlength
    rw [← columns_bindings hr, Schema.values, List.map_map] at hvalues
    exact hvalues
  have hparams : r.bindings.map
      (fun b => (env.bind r.row.schema (tag k row) r.bindings).param b.param) = tag k row := by
    refine Eq.trans (List.map_congr_left fun b hb => ?_) hread
    simp only [Env.bind, find?_param hr.params hb]
  generalize env.bind r.row.schema (tag k row) r.bindings = bound at hparams ⊢
  rw [bindings, List.map_append, List.map_map] at hparams
  obtain ⟨hcolumns, hlevel⟩ := List.append_inj' hparams rfl
  exact ⟨hcolumns, List.singleton_inj.1 hlevel⟩

variable (hapart : r.Apart) {ops : Operations} {m : Inputs}

include hapart

/-- The rows of the anchor are on level 0. -/
theorem seeds_eq (hm : r.Takes m) (env : Env) :
    r.seeds ops m env = some ((r.rowsAt m 0).map (tag 0)) := by
  have hvalue (row : Row) (hrow : row ∈ m.anchor) :
      ConcatColumn.values .null r.stacked 0 r.anchorRows.schema (row ++ [.int32 0]) =
        tag 0 (r.anchor.result row) :=
    values_stacked (d := r.firstLevel) hr.anchor hapart.anchor rfl (sources_rowColumns hr).1
      (hm.anchor row hrow) _
  have hrows : r.seeds ops m env = some (m.anchor.map fun row =>
      ConcatColumn.values .null r.stacked 0 r.anchorRows.schema (row ++ [.int32 0])) := by
    simp [seeds, Plan.act, anchorRows, firstLevel, Scalar.int, Scalar.eval]
  rw [hrows, List.map_congr_left hvalue, rowsAt, List.map_map]
  rfl

/-- The rows that a row leads to are on the next level. -/
theorem loopGives_eq (env : Env) {k : Nat}
    (hadd : ops.arithmetic .add (.int32 k) (.int32 1) = .int32 (k + 1))
    {row : Row} (hrow : row.length = r.columns.length) :
    r.loopGives ops m (tag k row) env =
      some ((m.step row).map fun out => out ++ [.int32 (k + 1)]) := by
  obtain ⟨hparams, hlevel⟩ := params_bind hr hapart env k hrow
  simp [loopGives, loop, Plan.act, JoinSpec.isApply, JoinStrategy.bindings, stepGives, stepRows,
    nextLevel, Scalar.add, Scalar.int, Scalar.eval, Operations.binary, Value.strict₂, hparams,
    hlevel, hadd]

omit hr in
/-- A row on the next level passes the check up to the bound. -/
theorem check_eq (hops : ops.Counting) (env : Env) (k : Nat) {out : Row}
    (hout : out.length = r.step.schema.fields.length) :
    ((((Scalar.column (.bare r.next)).ltEq (.int r.bound)).eval ops env r.loop.schema
      (out ++ [.int32 (k + 1)])).truth == .true) = decide (k < r.bound) := by
  have hread : r.loop.schema.read (out ++ [.int32 (k + 1)]) (.bare r.next) = .int32 (k + 1) :=
    (Schema.read_congr (List.append_nil _)).trans
      (value_compute (p := r.step.root) (d := r.nextLevel) hapart.step hout _).2
  have hless : (r.bound : Int) < k + 1 ↔ ¬ k < r.bound := by omega
  simp only [Scalar.ltEq, Scalar.int, Scalar.eval, hread, Operations.binary, Value.strict₂,
    hops.less, hless]
  by_cases hk : k < r.bound <;> simp [hk, Truth.ofBool]

/-- The check of the level lets all rows that a row leads to through, or none. -/
theorem recursionGives_eq (hops : ops.Counting) (hm : r.Takes m) (env : Env) {k : Nat}
    (hadd : ops.arithmetic .add (.int32 k) (.int32 1) = .int32 (k + 1)) {row : Row}
    (hrow : row.length = r.columns.length) :
    r.recursionGives ops m env (tag k row) =
      if r.bound = 0 ∨ k < r.bound ∨ m.step row = [] then
        some ((m.step row).map fun out => out ++ [.int32 (k + 1)]) else none := by
  have hloop := loopGives_eq hr hapart (m := m) env hadd hrow
  unfold recursionGives
  by_cases hbound : r.bound = 0
  · rw [if_pos hbound, if_pos (.inl hbound), hloop]
  · have hpasses (out : Row) (hout : out ∈ m.step row) :=
      check_eq hapart hops env k (hm.step row out hout)
    have hall : (((m.step row).map fun out => out ++ [Value.int32 (k + 1)]).all fun out =>
        (((Scalar.column (.bare r.next)).ltEq (.int r.bound)).eval ops env r.loop.schema
          out).truth == .true) = true ↔ k < r.bound ∨ m.step row = [] := by
      rw [List.all_map, List.all_eq_true]
      cases hstep : m.step row with
      | nil => simp
      | cons out rest =>
        rw [hstep] at hpasses
        simp only [List.cons_ne_nil, or_false]
        refine ⟨fun h => ?_, fun hk out hout => ?_⟩
        · simpa [hpasses out List.mem_cons_self] using h out List.mem_cons_self
        · simpa [hpasses out hout] using hk
    rw [if_neg hbound, recursion, Plan.bounded, if_neg hbound, Plan.act, hloop, Option.filter_some]
    simp only [hall, hbound, false_or]

/-- What the stack takes for a row. -/
theorem feed_eq (hops : ops.Counting) (hm : r.Takes m) (env : Env) {k : Nat}
    (hadd : ops.arithmetic .add (.int32 k) (.int32 1) = .int32 (k + 1)) {row : Row}
    (hrow : row.length = r.columns.length) :
    r.feed ops m env (tag k row) = if r.bound = 0 ∨ k < r.bound ∨ r.children m row = [] then
      some ((r.children m row).map (tag (k + 1))) else none := by
  have hfields : r.recursion.schema.fields = r.stepRows.schema.fields := by
    unfold recursion Plan.bounded
    split <;> exact List.append_nil _
  have hvalue (out : Row) (hout : out ∈ m.step row) :
      ConcatColumn.values .null r.stacked 1 r.recursion.schema (out ++ [.int32 (k + 1)]) =
        tag (k + 1) (r.step.result out) := by
    have hcongr (c : ConcatColumn) : (c.sources[1]?.map
        (r.recursion.schema.value .null (out ++ [.int32 (k + 1)]))) =
        (c.sources[1]?.map (r.stepRows.schema.value .null (out ++ [.int32 (k + 1)]))) :=
      congrArg (Option.map · _) (funext fun _ => Schema.read_congr hfields)
    simp only [ConcatColumn.values, hcongr]
    exact values_stacked (d := r.nextLevel) hr.step hapart.step rfl (sources_rowColumns hr).2
      (hm.step row out hout) _
  have hchildren : r.children m row = [] ↔ m.step row = [] := List.map_eq_nil_iff
  rw [feed, recursionGives_eq hr hapart hops hm env hadd hrow]
  simp only [hchildren]
  split
  · rw [Option.map_some, List.map_map, children, List.map_map]
    exact congrArg some (List.map_congr_left hvalue)
  · rfl

omit hapart in
theorem length_of_mem_rowsAt {k : Nat} {row : Row} (h : row ∈ r.rowsAt m k) :
    row.length = r.columns.length := by
  have hresult {q : QueryPlan} {width : Nat} (hq : q.Fills width) (out : Row) :
      (q.result out).length = width := by
    rw [QueryPlan.result, Schema.values, List.length_map, List.length_map, hq.width]
  cases k with
  | zero =>
    obtain ⟨out, -, rfl⟩ := List.mem_map.1 h
    exact hresult hr.anchor out
  | succ k =>
    obtain ⟨parent, -, h⟩ := List.mem_flatMap.1 h
    obtain ⟨out, -, rfl⟩ := List.mem_map.1 h
    exact hresult hr.step out

variable (hops : ops.Counting) (hm : r.Takes m)

include hops hm

/-- The rows of a level are fed back with the next level, unless they are beyond the bound. -/
theorem feedAll_eq (env : Env) {k : Nat}
    (hadd : ops.arithmetic .add (.int32 k) (.int32 1) = .int32 (k + 1)) {rows : List Row}
    (hrows : ∀ row ∈ rows, row.length = r.columns.length) :
    ((rows.map (tag k)).mapM (r.feed ops m env)).map List.flatten =
      if r.bound = 0 ∨ k < r.bound ∨ rows.flatMap (r.children m) = [] then
        some ((rows.flatMap (r.children m)).map (tag (k + 1))) else none := by
  induction rows with
  | nil => simp
  | cons row rows ih =>
    rw [List.forall_mem_cons] at hrows
    have hrow := feed_eq hr hapart hops hm env hadd hrows.1
    have ih := ih hrows.2
    rw [List.map_cons, List.mapM_cons, hrow, List.flatMap_cons]
    by_cases hchildren : r.children m row = []
    · rw [hchildren, if_pos (.inr (.inr rfl)), List.nil_append, ← ih]
      generalize (rows.map (tag k)).mapM (r.feed ops m env) = given
      cases given <;> rfl
    · by_cases hallowed : r.bound = 0 ∨ k < r.bound
      · rw [if_pos (by omega)] at ih
        obtain ⟨more, hmore, hflatten⟩ := Option.map_eq_some_iff.1 ih
        rw [if_pos (by omega), if_pos (by omega), List.map_append, ← hflatten]
        simp [hmore]
      · rw [if_neg (by simp_all), if_neg (by simp_all)]
        rfl

/-- A row that is fed back carries its level. Feeding fails beyond the bound. -/
theorem fedAt_eq (env : Env) {k : Nat} (hbound : r.bound = 0 ∨ k ≤ r.bound + 1)
    (hrange : ops.Unbounded ∨ k < 2 ^ 31) : r.fedAt ops m env k =
      if r.bound = 0 ∨ k ≤ r.bound ∨ r.rowsAt m k = [] then some ((r.rowsAt m k).map (tag k))
        else none := by
  induction k with
  | zero => rw [if_pos (by omega), fedAt, seeds_eq hr hapart hm env]
  | succ k ih =>
    have hadd : ops.arithmetic .add (.int32 k) (.int32 1) = .int32 (k + 1) :=
      hrange.elim (fun h => h k 1) fun h => hops.add k 1 (by omega) (by omega)
    rw [fedAt, ih (by omega) (hrange.imp_right (by omega)), if_pos (by omega), Option.bind_some]
    exact feedAll_eq hr hapart hops hm env hadd fun row hrow => length_of_mem_rowsAt hr hrow

end

end Recursion

end BatchPlan
