import BatchPlan.Proofs.Assembly
import BatchPlan.Proofs.Binding.Logic
import BatchPlan.Proofs.Flow.Clauses
import BatchPlan.Proofs.Recursion.Levels
import BatchPlan.Proofs.Typing.Collations

namespace BatchPlan

open BindM

variable {c : BindContext} {s : BindState}

def paramName (n : Nat) : String :=
  "@" ++ exprName n

theorem paramName_inj {m n : Nat} (h : paramName m = paramName n) : m = n :=
  lower_exprName_inj.1 (congrArg Text.lower ((String.append_right_inj _).1 h))

theorem start_freshParam {s' : BindState} {param : String}
    (h : freshParam.start c s = (.ok param, s')) :
    param = paramName (s.names.exprs + 1) ∧ s'.names.exprs = s.names.exprs + 1 := by
  cases h
  exact ⟨rfl, rfl⟩

theorem Schema.contains_of_resolve {schema : Schema} {column : Column} {found : Nat × Field}
    (h : schema.resolve column = .ok found) : schema.contains column :=
  contains_iff.2 ⟨_, _, candidates_of_resolve h⟩

/-- The columns of the anchor are found, and the parameters are numbered in a row. -/
theorem RecursiveColumn.yields_mapM (relation : String) (schema : Schema)
    (entries : List ((String × OutputColumn) × Nat)) :
    Yields (entries.mapM fun ((name, output), i) => do
      if name.isEmpty then throw (unnamedColumnError relation (i + 1))
      let (_, field) ← schema.resolve output.source
      return RecursiveColumn.mk name field.dataType field.nullable (← freshParam)) c s
      fun columns s' => (∀ entry ∈ entries, schema.contains entry.1.2.source) ∧
        columns.map (·.param) = (List.range' (s.names.exprs + 1) entries.length).map paramName ∧
        s'.names.exprs = s.names.exprs + entries.length := by
  induction entries generalizing s with
  | nil => exact .pure ⟨by simp, rfl, rfl⟩
  | cons entry rest ih =>
    obtain ⟨⟨name, output⟩, i⟩ := entry
    rw [List.mapM_cons]
    refine Yields.bind (P := fun column s' => schema.contains output.source ∧
      column.param = paramName (s.names.exprs + 1) ∧ s'.names.exprs = s.names.exprs + 1) ?_
      fun column s₁ hcolumn => ih.bind fun columns s₂ hcolumns => .pure ?_
    · refine .check fun _ => Yields.bind (P := fun _ s' => schema.contains output.source ∧ s' = s)
        (.lift fun _ h => ⟨Schema.contains_of_resolve h, rfl⟩) ?_
      rintro ⟨_, field⟩ _ ⟨hfound, rfl⟩ column s' h
      obtain ⟨param, s₁, hparam, h⟩ := exists_of_start_bind h
      cases h
      exact ⟨hfound, start_freshParam hparam⟩
    · obtain ⟨hfound, hparam, hcount⟩ := hcolumn
      obtain ⟨hrest, hparams, hlast⟩ := hcolumns
      rw [hcount] at hparams hlast
      refine ⟨List.forall_mem_cons.2 ⟨hfound, hrest⟩, ?_, by simp; omega⟩
      rw [List.map_cons, hparam, hparams, List.length_cons, List.range'_succ, List.map_cons]

theorem CteDefinition.length_columnNames {d : CteDefinition} {anchor : QueryPlan}
    {names : List String} (h : d.columnNames anchor = .ok names) :
    names.length = anchor.columns.length := by
  unfold columnNames at h
  split at h
  · cases h
    exact List.length_map _
  · split at h <;> cases h
    assumption

theorem QueryPlan.fills_of_checkStep {name : String} {columns : List RecursiveColumn}
    {step : QueryPlan} (h : checkStep name columns step = .ok ()) : step.Fills columns.length := by
  obtain ⟨hwidth, h⟩ := Result.of_check h
  have hwidth : step.columns.length = columns.length := by simpa using hwidth
  refine ⟨hwidth, fun o ho => ?_⟩
  rw [← List.map_snd_zip (Nat.le_of_eq hwidth)] at ho
  obtain ⟨entry, hentry, rfl⟩ := List.mem_map.1 ho
  obtain ⟨found, hfound, -⟩ := Result.exists_of_bind (Result.forM_eq_ok.1 h entry hentry)
  exact Schema.contains_of_resolve hfound

theorem QueryPlan.yields_union_fills (plans : List QueryPlan) {width : Nat}
    (h : ∀ p ∈ plans, p.Fills width) :
    Yields (union plans false) c s fun q _ => q.Fills width := by
  unfold union
  split
  · exact .throw
  next first rest =>
    refine .check fun _ => (ConcatColumn.yields_mapM _ _ c s).bind fun columns s' hcolumns =>
      .pure ?_
    have hlength : columns.length = first.columns.length := by
      simpa using congrArg List.length hcolumns.2
    refine ⟨by simp [hlength, (h first (by simp)).width], fun o ho => ?_⟩
    obtain ⟨entry, hentry, rfl⟩ := List.mem_map.1 ho
    obtain ⟨i, hi⟩ := List.mem_iff_getElem?.1 (List.of_mem_zip hentry).2
    have hnames : ((columns.map ConcatColumn.field).map fun f => Text.lower f.name).Nodup := by
      rw [List.map_map]
      exact hcolumns.1.nodup
    exact Schema.contains_iff.2 ⟨i, _, Schema.candidates_bare hnames
      (f := entry.2.field) (by simp [hi])⟩

namespace QueryBinder

variable {b : QueryBinder}

theorem yields_step (reference : RecursiveReference) (steps : List (Sql.SetExpr Sql.Query)) :
    Yields (b.step reference steps) c s fun step _ => step.Fills reference.columns.length := by
  refine Yields.any.bind fun plans s₁ _ => ?_
  have hchecks (s₁ : BindState) : Yields (plans.forM fun plan =>
      (liftM (checkStep reference.name reference.columns plan) : BindM Unit)) c s₁ fun _ _ =>
      ∀ plan ∈ plans, plan.Fills reference.columns.length := by
    induction plans generalizing s₁ with
    | nil => exact .pure (by simp)
    | cons plan rest ih =>
      refine Yields.bind (.lift fun _ h => QueryPlan.fills_of_checkStep h) fun _ s₂ hplan =>
        (ih s₂).mono fun _ _ hrest => List.forall_mem_cons.2 ⟨hplan, hrest⟩
  refine (hchecks s₁).bind fun _ s₂ hplans => ?_
  split
  · exact .pure (hplans _ (by simp))
  · exact QueryPlan.yields_union_fills _ hplans

theorem Recurs.formed {d : CteDefinition} {members : RecursiveMembers} {r : Recursion}
    (h : b.Recurs d c s members r) : r.Formed := by
  obtain ⟨names, s₁, s₂, s₃, s₄, -, hnames, hcolumns, hlevel, hstep⟩ := h.runs
  obtain ⟨hanchor, hparams, hcount⟩ := RecursiveColumn.yields_mapM _ _ _ _ _ hcolumns
  have hstep := yields_step _ _ _ _ hstep
  have hnames := CteDefinition.length_columnNames hnames
  have hentries : (names.zip r.anchor.columns).zipIdx.length = r.columns.length := by
    simpa using (congrArg List.length hparams).symm
  obtain ⟨hparam, -⟩ := start_freshParam hlevel
  rw [hentries] at hparams hcount
  refine ⟨?_, ⟨by simpa [hnames] using hentries, fun o ho => ?_⟩, hstep⟩
  · have hall : r.bindings.map (·.param) =
        (List.range' (s₁.names.exprs + 1) (r.columns.length + 1)).map paramName := by
      rw [List.range'_1_concat, List.map_append, ← hparams]
      simp [Recursion.bindings, hparam, hcount, Nat.add_right_comm]
    rw [hall]
    exact List.Nodup.map (fun _ _ => paramName_inj) List.nodup_range'
  · rw [← List.map_snd_zip (Nat.le_of_eq hnames.symm)] at ho
    obtain ⟨entry, hentry, rfl⟩ := List.mem_map.1 ho
    obtain ⟨i, hi⟩ := List.mem_iff_getElem?.1 hentry
    exact hanchor (entry, i) (List.mem_zipIdx_iff_getElem?.2 hi)

end QueryBinder

def Hints.InRange (h : Hints) : Prop :=
  ∀ n ∈ h.maxRecursion, n ≤ maxRecursionLimit

namespace Sql

variable {hints hints' : Hints} {clauses : List PlacedHints}

theorem inRange_addHint {part : List Token} (h : addHint hints part = .ok hints')
    (hhints : hints.InRange) : hints'.InRange := by
  unfold addHint at h
  dsimp only at h
  repeat' split at h
  all_goals cases h
  case h_2.isFalse.refl hn =>
    rintro _ ⟨⟩
    omega
  case h_2.isTrue.refl => exact hhints

theorem inRange_hintsOf {body : List Token} (h : hintsOf body = .ok hints) : hints.InRange := by
  have hall (parts : List (List Token)) (first : Hints) (hfirst : first.InRange)
      (h : parts.foldlM addHint first = .ok hints) : hints.InRange := by
    induction parts generalizing first with
    | nil =>
      cases h
      exact hfirst
    | cons part rest ih =>
      rw [List.foldlM_cons] at h
      obtain ⟨next, hnext, h⟩ := Result.exists_of_bind h
      exact ih next (inRange_addHint hnext hfirst) h
  exact hall _ {} nofun h

theorem Cut.inRange {placed kept : List Placed} (h : Cut placed kept clauses) :
    ∀ clause ∈ clauses, clause.hints.InRange := by
  induction h with
  | nil => simp
  | keep _ _ ih => exact ih
  | clause _ _ _ hhints _ ih => exact List.forall_mem_cons.2 ⟨inRange_hintsOf hhints, ih⟩

theorem inRange_foldl_merge (hclauses : ∀ clause ∈ clauses, clause.hints.InRange)
    (hhints : hints.InRange) :
    (clauses.foldl (fun hints clause => hints.merge clause.hints) hints).InRange := by
  induction clauses generalizing hints with
  | nil => exact hhints
  | cons clause rest ih =>
    rw [List.forall_mem_cons] at hclauses
    refine ih hclauses.2 fun n hn => ?_
    exact (Option.or_eq_some_iff.1 hn).elim (hclauses.1 n) fun h => hhints n h.2

/-- The hint of a statement is in range, and nothing else has hints. -/
theorem hints_of_parseBatch {text : String} {commands : List Command}
    (h : parseBatch text = .ok commands) {command : Command}
    (hcommand : command ∈ allNested commands) :
    command.hints.InRange ∧ (command.isSql ∨ command.hints = {}) := by
  obtain ⟨placed, kept, clauses, rest, -, hkept, hread⟩ := exists_of_parseBatch h
  have hclauses := (cut_extractHintsWithin Nat.le.refl hkept).inRange
  obtain ⟨runs, hruns⟩ := (Reader.gives_commandsWithin "" "" _ _ _ _ hread).exists_spread
  by_cases hsql : command.isSql
  · have hmem := List.mem_filter.2 ⟨hcommand, hsql⟩
    rw [hruns.statements] at hmem
    obtain ⟨run, -, rfl⟩ := List.mem_map.1 hmem
    exact ⟨inRange_foldl_merge (fun clause h => hclauses clause (List.mem_of_mem_filter h)) nofun,
      .inl hsql⟩
  · have hnone := hruns.others command hcommand hsql
    exact ⟨hnone ▸ nofun, .inr hnone⟩

/-- The settings in which a command is bound. -/
def Command.settings (i : BuildInput) (command : Command) : BindContext where
  catalog := i.catalog
  options := i.options
  recursionHint := command.hints.maxRecursion

def Command.bound (i : BuildInput) (command : Command) : Nat :=
  command.hints.maxRecursion.getD i.options.maxRecursion

end Sql

theorem BuildInput.maxRecursion_le {i : BuildInput} {sql : String} {roots : List Root}
    (h : i.build sql = .ok roots) : i.options.maxRecursion ≤ maxRecursionLimit := by
  unfold build at h
  obtain ⟨_, hstart, -⟩ := Result.exists_of_bind h
  obtain ⟨_, hvalid, -⟩ := Result.exists_of_bind (Result.of_mapError hstart)
  unfold Options.validate at hvalid
  exact Nat.le_of_not_lt (Result.of_check hvalid).1

namespace Recursion

/-- The level is in a hidden column. It is checked above all that a row leads to, unless the number
is 0. -/
structure Checks (r : Recursion) (n : Nat) : Prop where
  hidden : r.stacked = r.rowColumns ++ [r.levelColumn] ∧ r.levelColumn.visible = false
  unlimited : n = 0 → r.recursion = r.loop
  limited : n ≠ 0 → ∃ message,
    r.recursion = .assert r.loop ((Scalar.column (.bare r.next)).ltEq (.int n)) message

theorem Checks.bound_ne_zero {r : Recursion} {n : Nat} (h : r.Checks n) (hn : n ≠ 0) :
    r.bound ≠ 0 := by
  intro hnone
  obtain ⟨message, hassert⟩ := h.limited hn
  rw [recursion, hnone] at hassert
  cases hassert

/-- A row on some level leads to rows on the next one, and the check fails for those beyond the
number. So the rows that are fed back carry their level, and feeding those of the last level that is
allowed fails exactly if there are rows beyond it. -/
structure Counts (r : Recursion) (n : Nat) : Prop where
  each : ∀ {ops : Operations} {m : Inputs} (env : Env) {k : Nat}, ops.Counting → r.Takes m →
    ops.Unbounded ∨ k + 1 < 2 ^ 31 → ∀ row ∈ r.rowsAt m k, r.feed ops m env (tag k row) =
      if n = 0 ∨ k < n ∨ r.children m row = [] then some ((r.children m row).map (tag (k + 1)))
      else none
  fed : ∀ {ops : Operations} {m : Inputs} (env : Env) {k : Nat}, ops.Counting → r.Takes m →
    ops.Unbounded ∨ k < 2 ^ 31 → n = 0 ∨ k ≤ n →
    r.fedAt ops m env k = some ((r.rowsAt m k).map (tag k))
  fails : ∀ {ops : Operations} {m : Inputs} (env : Env), ops.Counting → r.Takes m → n ≠ 0 →
    (r.fedAt ops m env (n + 1) = none ↔ r.rowsAt m (n + 1) ≠ [])

theorem checks_bound (r : Recursion) : r.Checks r.bound :=
  ⟨⟨rfl, rfl⟩, fun h => if_pos h, fun h => ⟨_, if_neg h⟩⟩

theorem counts_bound {r : Recursion} (hr : r.Formed) (hapart : r.Apart)
    (hlimit : r.bound ≤ maxRecursionLimit) : r.Counts r.bound where
  each env k hops hm hrange row hrow := by
    refine feed_eq hr hapart hops hm env ?_ (length_of_mem_rowsAt hr hrow)
    exact hrange.elim (fun h => h k 1) fun h => hops.add k 1 (by omega) (by omega)
  fed env k hops hm hrange hk := by
    rw [fedAt_eq hr hapart hops hm env (by omega) hrange, if_pos (by omega)]
  fails env hops hm hn := by
    have : maxRecursionLimit = 32767 := rfl
    rw [fedAt_eq hr hapart hops hm env (.inr le_rfl) (.inr (by omega))]
    simp [hn]

end Recursion

/-- Whole numbers as they are; everything else as in a runtime without tables. -/
def Operations.whole : Operations :=
  { (Runtime.ofTables fun _ => []).toOperations with
    less := fun v w => match v, w with
      | .int32 m, .int32 n => decide (m < n)
      | _, _ => false
    arithmetic := fun _ v w => match v, w with
      | .int32 m, .int32 n => .int32 (m + n)
      | v, _ => v
    arithmetic_ne_null := fun _ v w h _ => by
      split
      · simp
      · exact h }

theorem Operations.counting_whole : whole.Counting :=
  ⟨fun _ _ => rfl, fun _ _ _ _ => rfl⟩

namespace Recursion

/-- An anchor with one row, and a step that makes one more of each. -/
def endless (r : Recursion) : Inputs where
  anchor := [.replicate r.anchor.schema.fields.length .null]
  step _ := [.replicate r.step.schema.fields.length .null]

theorem takes_endless (r : Recursion) : r.Takes r.endless := by
  constructor <;> simp [endless]

theorem rowsAt_endless (r : Recursion) (k : Nat) : (r.rowsAt r.endless k).length = 1 := by
  induction k with
  | zero => rfl
  | succ k ih =>
    obtain ⟨row, hrow⟩ := List.length_eq_one_iff.1 ih
    rw [rowsAt, hrow, List.flatMap_singleton]
    rfl

/-- The parts of a stack that have to do with the level. -/
def levelParts : Plan → Option (Plan × Definition × Plan × Definition × List ConcatColumn)
  | .spool _ (.concat [.compute anchor [first], .assert (.join _ (.compute step [next]) _) _ _]
      stacked) _ _ => some (anchor, first, step, next, stacked)
  | _ => none

def areApart (q : QueryPlan) : Bool :=
  (levelParts q.root).any fun (anchor, first, step, next, stacked) =>
    (stacked.map fun c => Text.lower c.name).Nodup ∧ anchor.schema.Lacks (.bare first.name) ∧
      step.schema.Lacks (.bare next.name)

theorem levelParts_plan {r : Recursion} (h : r.bound ≠ 0) : levelParts r.plan.root =
    some (r.anchor.root, r.firstLevel, r.step.root, r.nextLevel, r.stacked) := by
  rw [plan, recursion, Plan.bounded, if_neg h]
  rfl

theorem areApart_iff {r : Recursion} (h : r.bound ≠ 0) : areApart r.plan ↔ r.Apart := by
  simp only [areApart, levelParts_plan h, Option.any_some, decide_eq_true_eq]
  exact ⟨fun h => ⟨h.1, h.2.1, h.2.2⟩, fun h => ⟨h.names, h.anchor, h.step⟩⟩

theorem feed_endless {r : Recursion} (hbound : r.bound ≠ 0)
    (hnext : ¬ r.stepRows.schema.contains (.bare r.next)) (env : Env) (row : Row) :
    r.feed .whole r.endless env row = none := by
  have hread (out : Row) : r.loop.schema.read out (.bare r.next) = .null := by
    refine (Schema.read_congr (List.append_nil _)).trans ?_
    rw [Schema.read, Option.not_isSome_iff_eq_none.1 hnext]
    rfl
  obtain ⟨out, hout⟩ : ∃ out, r.loopGives .whole r.endless row env = some [out] := by
    simp [loopGives, loop, Plan.act, JoinSpec.isApply, stepGives,
      stepRows, endless]
  rw [feed, recursionGives, if_neg hbound, recursion, Plan.bounded,
    if_neg hbound, Plan.act, hout]
  simp [Scalar.ltEq, Scalar.eval, hread, Operations.binary, Value.strict₂, Value.truth]

end Recursion

namespace QueryBinder

def countedBatch : String :=
  "WITH t (n) AS (SELECT 1 UNION ALL SELECT n + 1 FROM t WHERE n < 5) SELECT n FROM t"

def recursiveRow (text : String) : CteDefinition where
  name := "t"
  columns := ["n"]
  query := (queryOf? text).getD default
  visible := []

def countedRow : CteDefinition :=
  recursiveRow "SELECT 1 UNION ALL SELECT n + 1 FROM t WHERE n < 5"

/-- Three levels are allowed above the anchor. -/
def threeLevels : BuildInput where
  catalog := {}
  options := { maxRecursion := 3 }

theorem countedRow_apart : (threeLevels.build countedBatch).toOption.isSome ∧
    (((ofDepth 3).recursiveCte countedRow).start
      { catalog := {}, options := { maxRecursion := 3 } }
      { session := .empty }).1.toOption.isSome ∧
    Recursion.areApart (((ofDepth 3).recursiveCte countedRow).value
      { catalog := {}, options := { maxRecursion := 3 } } { session := .empty }) ∧
    (Sql.parseBatch countedBatch).toOption.any fun commands =>
      (Sql.allNested commands).any fun command => command.hints = {} := by
  decide +kernel

/-- A column with the name that the level of the step is going to have. -/
def namedLevel : CteDefinition :=
  recursiveRow "SELECT 1 UNION ALL SELECT n + 1 FROM t JOIN (SELECT 1 AS Expr7) d ON d.Expr7 = n"

end QueryBinder

end BatchPlan
