import BatchPlan.Proofs.Framing.Windows
import BatchPlan.Proofs.Meaning.Unions
import BatchPlan.Proofs.Typing.Ledger
import BatchPlan.Proofs.Correlation.Params

namespace BatchPlan

open BindM

variable {frame : RowsFrame} {sqlFrame : Option Sql.Frame} {w : WindowInput}
    {f : Field} {p q : Position}
  {i : Nat} {s : Schema} {m : Framing} {row : Row}

namespace RowsFrame

variable (frame : RowsFrame)

def first (number : Nat) : Int :=
  match frame.start with
  | none => 1
  | some distance => number + distance

def covers (number other : Nat) : Bool :=
  frame.first number ≤ other && (other : Int) ≤ number + frame.stop

def around (p : Position) : List Row :=
  ((Position.within p.partition).filter fun q => frame.covers p.number q.number).map (·.row)

def HoldsCurrent : Prop :=
  (∀ distance ∈ frame.start, distance ≤ 0) ∧ 0 ≤ frame.stop

/-- The ends of the frames of so many rows are computed exactly. -/
def Exact (m : Framing) (rows : Nat) : Prop :=
  ∀ number : Nat, 1 ≤ number → number ≤ rows → ∀ distance ∈ frame.stop :: frame.start.toList,
    m.arithmetic .add (.int64 number) (.int64 distance) = .int64 (number + distance)

def bounded (p : Position) : Row :=
  p.row ++ [.boolean (p.number == 1), .int64 p.number, .int64 (frame.first p.number),
    .int64 (p.number + frame.stop)]

variable {frame}

theorem forall_around_ne_nil {partitions : List (List Row)} (hne : [] ∉ partitions) :
    (∀ p ∈ Position.all partitions, frame.around p ≠ []) ↔ frame.HoldsCurrent ∨
    partitions = [] := by
  constructor
  · intro h
    refine or_iff_not_imp_right.2 fun hpartitions => ?_
    obtain ⟨partition, rest, rfl⟩ := List.exists_cons_of_ne_nil hpartitions
    have hlength : 0 < partition.length := List.length_pos_iff.2 fun hnil => hne (by simp [hnil])
    -- what is in the frame of the first row and in the frame of the last one
    have hcovered (n : Nat) (hn : n < partition.length) :
        ∃ k, 1 ≤ k ∧ k ≤ partition.length ∧ frame.covers (n + 1) k := by
      obtain ⟨row, hrow⟩ := List.exists_mem_of_ne_nil _
        (h _ (List.mem_append_left _ (Position.mk_mem_within hn)))
      obtain ⟨q, hq, -⟩ := List.mem_map.1 hrow
      obtain ⟨hq, hcovers⟩ := List.mem_filter.1 hq
      obtain ⟨-, -, hfirst, hlast⟩ := Position.mem_within hq
      exact ⟨q.number, hfirst, hlast, hcovers⟩
    obtain ⟨k, hk, -, hstop⟩ := hcovered 0 hlength
    obtain ⟨l, -, hl, hstart⟩ := hcovered (partition.length - 1) (by omega)
    simp only [covers, Bool.and_eq_true, decide_eq_true_eq] at hstop hstart
    refine ⟨fun distance hdistance => ?_, by omega⟩
    have hfirst := hstart.1
    rw [first, Option.mem_def.1 hdistance] at hfirst
    dsimp only at hfirst
    omega
  · rintro (⟨hstart, hstop⟩ | rfl) p hp
    · have hp := (Position.mem_all hp).2
      have hnumber := (Position.mem_within hp).2.2.1
      have hfirst : frame.first p.number ≤ p.number := by
        unfold first
        split
        next => omega
        next distance hdistance =>
          have := hstart distance hdistance
          omega
      have hcovers : frame.covers p.number p.number := by
        rw [covers, decide_eq_true hfirst, Bool.true_and, decide_eq_true_eq]
        omega
      exact List.ne_nil_of_mem (List.mem_map_of_mem (List.mem_filter.2 ⟨hp, hcovers⟩))
    · cases hp

end RowsFrame

theorem Sql.FrameOffset.nonneg_of_rows {o : Sql.FrameOffset} {n : Int} (h : o.rows = .ok n) :
    0 ≤ n ∧ n < 2 ^ 63 := by
  unfold rows at h
  split at h
  · cases h
  · split at h
    next k hk =>
      cases h
      unfold digitsBelow? at hk
      split at hk
      next hbelow =>
        cases hk
        simp only [Bool.and_eq_true, decide_eq_true_eq, Nat.one_shiftLeft] at hbelow
        omega
      next => cases hk
    next => cases h

theorem Sql.FrameBound.le_of_offset {b : Sql.FrameBound} {what : String} {distance : Option Int}
    (h : b.offset what = .ok distance) : ∀ d ∈ distance, -2 ^ 63 ≤ d := by
  unfold offset at h
  split at h
  · cases h
    simp
  · cases h
    simp
  · obtain ⟨n, hn, h⟩ := Result.exists_of_bind h
    cases h
    have hbounds := Sql.FrameOffset.nonneg_of_rows hn
    intro d hd
    cases hd
    omega
  · obtain ⟨n, hn, h⟩ := Result.exists_of_bind h
    cases h
    have hbounds := Sql.FrameOffset.nonneg_of_rows hn
    intro d hd
    cases hd
    omega
  · cases h

theorem Sql.Frame.le_of_stopOffset {f : Sql.Frame} {stop : Int} (h : f.stopOffset = .ok stop) :
    -2 ^ 63 ≤ stop := by
  unfold stopOffset at h
  split at h
  · cases h
  · obtain ⟨distance, hdistance, h⟩ := Result.exists_of_bind h
    have hbound := Sql.FrameBound.le_of_offset hdistance
    cases h
    cases distance with
    | none => simp
    | some d => exact hbound d rfl
  · cases h
    simp

namespace RowsFrame

/-- A frame that is accepted starts no later than it ends, and neither end is too far back. -/
theorem bounds_of_ofSql (h : ofSql sqlFrame = .ok frame) :
    ∀ distance ∈ frame.stop :: frame.start.toList, -2 ^ 63 ≤ distance ∧ distance ≤ frame.stop := by
  unfold ofSql at h
  split at h
  · cases h
  next f =>
    dsimp only at h
    split at h
    · cases h
    obtain ⟨start, hstart, h⟩ := Result.exists_of_bind h
    obtain ⟨stop, hstop, h⟩ := Result.exists_of_bind h
    split at h
    · cases h
    next hend =>
      cases h
      have hlower := Sql.FrameBound.le_of_offset hstart
      have hle : ∀ d ∈ start, d ≤ stop := by
        simpa [Option.any_eq_true] using hend
      intro distance hdistance
      obtain rfl | hdistance := List.mem_cons.1 hdistance
      · exact ⟨Sql.Frame.le_of_stopOffset hstop, le_rfl⟩
      · have hdistance := Option.mem_toList.1 hdistance
        exact ⟨hlower distance hdistance, hle distance hdistance⟩

theorem exact_of_ofSql {rows : Nat} (h : ofSql sqlFrame = .ok frame)
    (hrows : m.Unbounded ∨ rows + frame.stop < 2 ^ 63) : frame.Exact m rows := by
  intro number hfirst hlast distance hdistance
  obtain hunbounded | hrows := hrows
  · exact hunbounded number distance
  · have hbounds := bounds_of_ofSql h distance hdistance
    exact m.add_int64 number distance (by omega) (by omega)

end RowsFrame

structure FrameAggregate where
  input : WindowInput
  function : AggregateFunction
  frame : RowsFrame
  names : NameSupply

def WindowInput.keys (w : WindowInput) : List SortKey :=
  w.partitionBy.map (fun c => ⟨c, .asc⟩) ++ w.orderBy

def frameValues (count : Nat) (args : List Column) : List FrameValue :=
  (args.zipIdx (count + 1)).map fun entry => ⟨exprName entry.2, entry.1⟩

namespace FrameAggregate

variable (a : FrameAggregate)

def mark : String := segmentName (a.names.segments + 1)

def number : String := exprName (a.names.exprs + 1)

def values : List FrameValue := frameValues (a.names.exprs + 3) a.input.args

def name : String := exprName (a.names.exprs + 3 + a.input.args.length + 1)

def firstRow : Definition where
  name := exprName (a.names.exprs + 2)
  expr := match a.frame.start with
    | none => .literal (.int64 1)
    | some n => WindowInput.rowAt (.column (.bare a.number)) n
  dataType := .int64
  nullable := false

def lastRow : Definition where
  name := exprName (a.names.exprs + 3)
  expr := WindowInput.rowAt (.column (.bare a.number)) a.frame.stop
  dataType := .int64
  nullable := false

def marked : Plan :=
  .segment (a.input.plan.ordered a.input.keys) a.input.partitionBy a.mark

def numbered : Plan :=
  .sequence a.marked [⟨a.number, .rowNumber, .bare a.mark, none⟩]

def bounded : Plan :=
  .compute a.numbered [a.firstRow, a.lastRow]

def window : WindowFrame :=
  ⟨some (.bare a.mark), .bare a.number, a.firstRow.column, a.lastRow.column, a.values⟩

def spread : Plan :=
  .spool (a.names.spools + 1) a.bounded .lazy (.window a.window)

def value : AggregateValue where
  name := a.name
  function := a.function
  args := a.values.map fun v => .column (.bare v.name)
  dataType := a.function.resultType a.input.argType

def aggregation : Aggregation where
  strategy := .stream
  groupBy := a.bounded.schema.fields.map Field.column
  values := [a.value]

def plan : Plan :=
  .aggregate a.spread a.aggregation

end FrameAggregate

theorem start_frameValues (args : List Column) (c : BindContext) (s : BindState) :
    (args.mapM fun source => do return FrameValue.mk (← freshExpr) source).start c s =
      (.ok (frameValues s.names.exprs args),
        { s with names := { s.names with exprs := s.names.exprs + args.length } }) := by
  induction args generalizing s with
  | nil => rfl
  | cons source rest ih =>
    have hfirst : (do return FrameValue.mk (← freshExpr) source : BindM FrameValue).start c s =
        (.ok ⟨exprName (s.names.exprs + 1), source⟩,
          { s with names := { s.names with exprs := s.names.exprs + 1 } }) := rfl
    rw [List.mapM_cons, start_bind_ok hfirst, start_bind_ok (ih _), start_pure]
    simp [frameValues, Nat.add_right_comm, Nat.add_assoc]

theorem WindowInput.start_frameAggregate (w : WindowInput) (f : AggregateFunction)
    (frame : RowsFrame) (c : BindContext) (s : BindState) :
    let a : FrameAggregate := ⟨w, f, frame, s.names⟩
    ∃ s', (w.frameAggregate f frame).start c s = (.ok (a.plan, a.name), s') := by
  let s₁ : BindState :=
    { s with
      names := { s.names with segments := s.names.segments + 1, exprs := s.names.exprs + 3 } }
  let s₂ : BindState :=
    { s with names := ⟨s.names.exprs + 3 + w.args.length + 1, s.names.segments + 1,
      s.names.spools + 1⟩ }
  refine ⟨s₂, ?_⟩
  -- only the names of the arguments are given out in a loop
  change (bind (m := BindM) (w.args.mapM fun source => do return FrameValue.mk (← freshExpr) source)
    _).start c s₁ = _
  rw [start_bind_ok (start_frameValues w.args c s₁)]
  rfl

def Schema.Distinct (s : Schema) : Prop :=
  ∀ entry ∈ s.fields.zipIdx, s.candidates entry.1.column = [(entry.2, entry.1)]

instance (s : Schema) : Decidable s.Distinct :=
  inferInstanceAs (Decidable (∀ entry ∈ s.fields.zipIdx, _))

theorem Schema.project_columns {t : Schema} {values more : Row}
    (h : ∀ {i f}, s.fields[i]? = some f → t.candidates f.column = [(i, f)])
    (hvalues : values.length = s.fields.length) :
    t.project (s.fields.map Field.column) (values ++ more) = values := by
  have hknown : ∀ c ∈ s.fields.map Field.column, (t.field? c).isSome := by
    intro c hc
    obtain ⟨f, hf, rfl⟩ := List.mem_map.1 hc
    obtain ⟨i, hi⟩ := List.mem_iff_getElem?.1 hf
    rw [field?_eq_some.2 ⟨i, h hi⟩, Option.isSome_some]
  rw [project, List.filter_eq_self.2 hknown, List.map_map]
  refine List.ext_getElem? fun i => ?_
  rw [List.getElem?_map]
  cases hf : s.fields[i]? with
  | none => rw [List.getElem?_eq_none (hvalues ▸ List.getElem?_eq_none_iff.1 hf), Option.map_none]
  | some f =>
    have hi : i < values.length := hvalues ▸ (List.getElem?_eq_some_iff.1 hf).1
    simp [read_of_candidates (h hf), List.getElem?_append_left hi, hi]

/-- The columns of the input are told apart, from each other and from those that come next. -/
structure WindowInput.Apart (w : WindowInput) (names : NameSupply) : Prop where
  input : w.plan.schema.Distinct
  mark : w.plan.schema.Lacks (.bare (segmentName (names.segments + 1)))
  exprs : w.plan.schema.Free names.exprs (names.exprs + w.args.length + 4)

namespace FrameAggregate

variable (a : FrameAggregate) {c : Column}

def addedNames : List String :=
  a.mark :: (List.range' (a.names.exprs + 1) (3 + a.input.args.length)).map exprName

/-- A schema has the fields of the input, and the first ones of the new columns after them. -/
structure Widens (s : Schema) (more : List Field) : Prop where
  fields : s.fields = a.input.plan.schema.fields ++ more
  relation : ∀ f ∈ more, f.relation = none
  names : more.map (·.name) <+: a.addedNames

variable {a}

theorem nodup_addedNames : (a.addedNames.map Text.lower).Nodup := by
  rw [addedNames, List.map_cons, List.nodup_cons, List.map_map]
  refine ⟨fun h => ?_, List.Nodup.map_on ?_ List.nodup_range'⟩
  · obtain ⟨n, -, hn⟩ := List.mem_map.1 h
    exact lower_exprName_ne_segmentName n _ hn
  · exact fun m _ n _ hmn => lower_exprName_inj.1 hmn

section

variable {s : Schema} {more : List Field} (h : a.Widens s more) (ha : a.input.Apart a.names)

include h ha

theorem Widens.lacks (hf : f ∈ more) : a.input.plan.schema.Lacks (.bare f.name) := by
  obtain hmark | hexpr := List.mem_cons.1 (h.names.subset (List.mem_map_of_mem hf))
  · exact hmark ▸ ha.mark
  · obtain ⟨n, hn, hname⟩ := List.mem_map.1 hexpr
    rw [List.mem_range'_1] at hn
    exact hname ▸ ha.exprs n (by omega) (by omega)

theorem Widens.candidates_input {found : Nat × Field}
    (hc : a.input.plan.schema.candidates c = [found]) : s.candidates c = [found] := by
  have hmore : (Schema.ofFields more).Lacks c := by
    refine Schema.lacks_iff.2 fun g hg => Schema.not_answersTo _ (h.relation g hg)
      (h.lacks ha hg) ?_
    simp [Schema.Lacks, hc]
  rw [Schema.candidates_append h.fields (b := .ofFields more), hc,
    show (Schema.ofFields more).candidates c = [] from hmore]
  rfl

theorem Widens.candidates_added (hf : more[i]? = some f) :
    s.candidates (.bare f.name) = [(i + a.input.plan.schema.fields.length, f)] := by
  have hnodup : (more.map fun f => Text.lower f.name).Nodup := by
    have hsub := h.names.sublist.map Text.lower
    rw [List.map_map] at hsub
    exact nodup_addedNames.sublist hsub
  rw [Schema.candidates_append h.fields (b := .ofFields more),
    show a.input.plan.schema.candidates _ = [] from h.lacks ha (List.mem_of_getElem? hf),
    Schema.candidates_bare hnodup hf]
  rfl

theorem Widens.read_input {values : Row} (hrow : row.length = a.input.plan.schema.fields.length)
    (hc : a.input.plan.schema.contains c) : s.read (row ++ values) c =
      a.input.plan.schema.read row c := by
  obtain ⟨i, f, hf⟩ := Schema.contains_iff.1 hc
  have hi : i < row.length := hrow ▸
    (List.getElem?_eq_some_iff.1 (Schema.getElem?_of_candidates hf)).1
  rw [Schema.read_of_candidates (h.candidates_input ha hf), Schema.read_of_candidates hf,
    List.getElem?_append_left hi]

theorem Widens.read_added (values : Row) {name : String}
    (hrow : row.length = a.input.plan.schema.fields.length)
    (hname : (more.map (·.name))[i]? = some name) :
    s.read (row ++ values) (.bare name) = values[i]?.getD .null := by
  rw [List.getElem?_map, Option.map_eq_some_iff] at hname
  obtain ⟨f, hf, rfl⟩ := hname
  rw [Schema.read_of_candidates (h.candidates_added ha hf), ← hrow,
    List.getElem?_append_right (Nat.le_add_left ..), Nat.add_sub_cancel]

theorem Widens.candidates_column (hf : s.fields[i]? = some f) :
    s.candidates f.column = [(i, f)] := by
  rw [h.fields, List.getElem?_append] at hf
  split at hf
  · exact h.candidates_input ha (ha.input (f, i) (List.mem_zipIdx_iff_getElem?.2 hf))
  next hi =>
    have hbare : f.column = .bare f.name := by
      simp [Field.column, h.relation f (List.mem_of_getElem? hf), Column.bare]
    rw [hbare, h.candidates_added ha hf]
    congr 2
    omega

end

theorem widens_marked (a : FrameAggregate) : a.Widens a.marked.schema [Plan.markField a.mark] := by
  refine ⟨?_, by simp [Plan.markField], ⟨_, rfl⟩⟩
  simp [marked, Plan.schema, Plan.extended, Plan.fields_ordered]

theorem widens_numbered (a : FrameAggregate) :
    a.Widens a.numbered.schema [Plan.markField a.mark, Plan.countField a.number] := by
  refine ⟨?_, by simp [Plan.markField, Plan.countField], ?_⟩
  · simp [numbered, Plan.schema, Plan.extended, a.widens_marked.fields]
  · rw [addedNames, Nat.add_comm 3]
    exact ⟨_, rfl⟩

def boundFields (a : FrameAggregate) : List Field :=
  [Plan.markField a.mark, Plan.countField a.number, a.firstRow.field, a.lastRow.field]

theorem widens_bounded (a : FrameAggregate) : a.Widens a.bounded.schema a.boundFields := by
  refine ⟨?_, by simp [boundFields, Plan.markField, Plan.countField, Definition.field], ?_⟩
  · simp [bounded, Plan.schema, Plan.extended, a.widens_numbered.fields, boundFields]
  · rw [addedNames, Nat.add_comm 3]
    exact ⟨_, rfl⟩

theorem map_source_values (a : FrameAggregate) : a.values.map (·.source) = a.input.args := by
  simp [values, frameValues, Function.comp_def]

theorem map_name_values (a : FrameAggregate) :
    a.values.map (·.name) = (List.range' (a.names.exprs + 4) a.input.args.length).map exprName := by
  rw [← List.zipIdx_map_snd, values, frameValues, List.map_map, List.map_map]
  rfl

theorem isSome_field?_bounded (ha : a.input.Apart a.names) (hc : a.input.plan.schema.contains c) :
    (a.bounded.schema.field? c).isSome := by
  obtain ⟨i, f, hf⟩ := Schema.contains_iff.1 hc
  rw [Schema.field?_eq_some.2 ⟨i, a.widens_bounded.candidates_input ha hf⟩, Option.isSome_some]

theorem exists_widens_spread (ha : a.input.Apart a.names)
    (hargs : ∀ c ∈ a.input.args, a.input.plan.schema.contains c) :
    ∃ fields, a.Widens a.spread.schema (a.boundFields ++ fields) ∧
      fields.map (·.name) = a.values.map (·.name) := by
  let fieldOf (v : FrameValue) : Option Field := (a.bounded.schema.field? v.source).map fun f =>
    { name := v.name, dataType := f.dataType, calculated := true, visible := false }
  have hfield {v : FrameValue} {f : Field} (h : fieldOf v = some f) :
      f.name = v.name ∧ f.relation = none := by
    obtain ⟨g, -, rfl⟩ := Option.map_eq_some_iff.1 h
    exact ⟨rfl, rfl⟩
  have hnames : (a.values.filterMap fieldOf).map (·.name) = a.values.map (·.name) := by
    rw [List.map_filterMap, ← List.filterMap_eq_map]
    refine List.filterMap_congr fun v hv => ?_
    have hsource : v.source ∈ a.input.args := a.map_source_values ▸ List.mem_map_of_mem hv
    obtain ⟨f, hf⟩ := Option.isSome_iff_exists.1 (isSome_field?_bounded ha (hargs _ hsource))
    simp [fieldOf, hf]
  refine ⟨a.values.filterMap fieldOf, ⟨?_, ?_, ?_⟩, hnames⟩
  · simp [spread, Plan.schema, Plan.spoolSchema, a.widens_bounded.fields, window, fieldOf]
  · intro f hf
    obtain hf | hf := List.mem_append.1 hf
    · exact a.widens_bounded.relation f hf
    · obtain ⟨v, -, hv⟩ := List.mem_filterMap.1 hf
      exact (hfield hv).2
  · rw [List.map_append, hnames, map_name_values, addedNames, Nat.add_comm 3]
    exact List.prefix_refl _

end FrameAggregate

def WindowInput.same (w : WindowInput) (m : Framing) : Row → Row → Bool :=
  m.agree w.plan.schema w.partitionBy

/-- Rows that come in partition by partition. -/
structure WindowInput.Feeds (w : WindowInput) (m : Framing) (env : Env) (rows : List Row) :
    Prop where
  framed : (w.plan.ordered w.keys).framed m env = rows
  width : ∀ row ∈ rows, row.length = w.plan.schema.fields.length
  clustered : Clustered (w.same m) rows

theorem WindowInput.Feeds.position {env : Env} {rows : List Row} (h : w.Feeds m env rows)
    (hp : p ∈ Position.all (rows.splitBy (w.same m))) :
    p.row.length = w.plan.schema.fields.length ∧ 1 ≤ p.number ∧ p.number ≤ rows.length := by
  obtain ⟨hpartition, hp⟩ := Position.mem_all hp
  obtain ⟨-, hrow, hfirst, hlast⟩ := Position.mem_within hp
  have hsub := List.sublist_flatten_of_mem hpartition
  rw [List.flatten_splitBy] at hsub
  exact ⟨h.width _ (hsub.subset hrow), hfirst, hlast.trans hsub.length_le⟩

namespace FrameAggregate

abbrev positions (a : FrameAggregate) (m : Framing) (rows : List Row) : List Position :=
  Position.all (rows.splitBy (a.input.same m))

/-- What is known of the rows that an aggregate is computed from. -/
structure Given (a : FrameAggregate) (m : Framing) (env : Env) (rows : List Row) : Prop where
  apart : a.input.Apart a.names
  feeds : a.input.Feeds m env rows
  ends : a.frame.Exact m rows.length
  args : ∀ c ∈ a.input.args, a.input.plan.schema.contains c

variable {a : FrameAggregate} {m : Framing} {env : Env} {rows : List Row}

theorem Given.framed_marked (h : a.Given m env rows) :
    a.marked.framed m env = (a.positions m rows).map fun p =>
      p.row ++ [.boolean (p.number == 1)] := by
  have hsame : m.agree (a.input.plan.ordered a.input.keys).schema a.input.partitionBy =
      a.input.same m := by
    funext row other
    simp only [WindowInput.same, Framing.agree, Schema.read_congr (Plan.fields_ordered _ _)]
  have hmarked : BatchPlan.marked (a.input.same m) none
      (rows.splitBy (a.input.same m)).flatten = _ :=
    marked_flatten (partitioned_splitBy (a.input.same m) rows) (by simp)
  rw [List.flatten_splitBy] at hmarked
  rw [marked, Plan.framed, hsame, h.feeds.framed, hmarked]

theorem Given.framed_numbered (h : a.Given m env rows) :
    a.numbered.framed m env = (a.positions m rows).map fun p =>
      p.row ++ [.boolean (p.number == 1), .int64 p.number] := by
  simp only [numbered, Plan.framed, h.framed_marked]
  rw [numbered_all]
  · simp
  · intro partition hpartition row hrow n
    have hsub := List.sublist_flatten_of_mem hpartition
    rw [List.flatten_splitBy] at hsub
    have hread : a.marked.schema.read (row ++ [.boolean (n == 1)]) (.bare a.mark) =
        .boolean (n == 1) :=
      a.widens_marked.read_added h.apart [.boolean (n == 1)] (i := 0)
        (h.feeds.width row (hsub.subset hrow)) rfl
    rw [hread]
    cases hn : n == 1 <;> simp

theorem eval_rowAt {e : Scalar} {number distance : Int}
    (he : e.eval m.toOperations env s row = .int64 number)
    (hadd : m.arithmetic .add (.int64 number) (.int64 distance) = .int64 (number + distance)) :
    (WindowInput.rowAt e distance).eval m.toOperations env s row = .int64 (number + distance) := by
  unfold WindowInput.rowAt
  split
  next hzero => rw [he, hzero, Int.add_zero]
  next =>
    rw [Scalar.add, Scalar.eval, he, Scalar.eval]
    simpa [Operations.binary, Value.strict₂] using hadd

theorem Given.framed_bounded (h : a.Given m env rows) :
    a.bounded.framed m env =
      (a.positions m rows).map a.frame.bounded := by
  rw [bounded, Plan.framed, h.framed_numbered, List.map_map]
  refine List.map_congr_left fun p hp => ?_
  obtain ⟨hwidth, hfirst, hlast⟩ := h.feeds.position hp
  have hnumber : (Scalar.column (.bare a.number)).eval m.toOperations env a.numbered.schema
      (p.row ++ [.boolean (p.number == 1), .int64 p.number]) = .int64 p.number :=
    a.widens_numbered.read_added h.apart [.boolean (p.number == 1), .int64 p.number]
      (i := 1) hwidth rfl
  have hstart : a.firstRow.expr.eval m.toOperations env a.numbered.schema
      (p.row ++ [.boolean (p.number == 1), .int64 p.number]) = .int64 (a.frame.first p.number) := by
    unfold firstRow RowsFrame.first
    cases hframe : a.frame.start with
    | none => rfl
    | some distance =>
      exact eval_rowAt hnumber (h.ends p.number hfirst hlast distance (by simp [hframe]))
  have hstop : a.lastRow.expr.eval m.toOperations env a.numbered.schema
      (p.row ++ [.boolean (p.number == 1), .int64 p.number]) = .int64 (p.number + a.frame.stop) :=
    eval_rowAt hnumber (h.ends p.number hfirst hlast a.frame.stop (by simp))
  simp [RowsFrame.bounded, hstart, hstop]

theorem Given.covers_bounded (h : a.Given m env rows) (hp : p ∈ a.positions m rows)
    (hq : q ∈ a.positions m rows) :
    a.window.covers m.toOperations a.bounded.schema (a.frame.bounded p) (a.frame.bounded q) =
      a.frame.covers p.number q.number := by
  obtain ⟨hp, -⟩ := h.feeds.position hp
  obtain ⟨hq, -⟩ := h.feeds.position hq
  have hfirst : a.bounded.schema.read (a.frame.bounded p) a.window.first =
      .int64 (a.frame.first p.number) := a.widens_bounded.read_added h.apart _ (i := 2) hp rfl
  have hlast : a.bounded.schema.read (a.frame.bounded p) a.window.last =
      .int64 (p.number + a.frame.stop) := a.widens_bounded.read_added h.apart _ (i := 3) hp rfl
  have hnumber : a.bounded.schema.read (a.frame.bounded q) a.window.rowNumber = .int64 q.number :=
    a.widens_bounded.read_added h.apart _ (i := 1) hq rfl
  have hle (x y : Int) : ((m.binary .ltEq (.int64 x) (.int64 y)).truth == .true) =
      decide (x ≤ y) := by
    rw [Bool.eq_iff_iff]
    simp [Operations.binary, Value.strict₂, m.less_int64]
  rw [WindowFrame.covers, hfirst, hlast, hnumber, hle, hle, RowsFrame.covers]

theorem Given.project_bounded (h : a.Given m env rows)
    (hp : p.row.length = a.input.plan.schema.fields.length) :
    a.bounded.schema.project (a.window.values.map (·.source)) (a.frame.bounded p) =
      a.input.args.map (a.input.plan.schema.read p.row) := by
  rw [Schema.project, window, map_source_values,
    List.filter_eq_self.2 fun c hc => isSome_field?_bounded h.apart (h.args c hc)]
  exact List.map_congr_left fun c hc => a.widens_bounded.read_input h.apart hp (h.args c hc)

theorem Given.framed_spread (h : a.Given m env rows) :
    a.spread.framed m env = (a.positions m rows).flatMap fun p =>
      (a.frame.around p).map fun row =>
        a.frame.bounded p ++ a.input.args.map (a.input.plan.schema.read row) := by
  have hsegments : a.window.segments a.bounded.schema (a.bounded.framed m env) =
      (rows.splitBy (a.input.same m)).map fun partition =>
        (Position.within partition).map a.frame.bounded := by
    rw [h.framed_bounded]
    refine splitBy_all (List.nil_notMem_splitBy _ _) fun p hp => ?_
    have hmark : a.bounded.schema.read (a.frame.bounded p) (.bare a.mark) =
        .boolean (p.number == 1) :=
      a.widens_bounded.read_added h.apart _ (i := 0) (h.feeds.position hp).1 rfl
    rw [hmark]
    cases hn : p.number == 1 <;> simp
  simp only [spread, Plan.framed]
  rw [hsegments, List.flatMap_map, positions, Position.all, List.flatMap_assoc]
  refine List.flatMap_congr fun partition hpartition => ?_
  rw [WindowFrame.spread, List.flatMap_map]
  refine List.flatMap_congr fun p hp => ?_
  have hmem {q : Position} (hq : q ∈ Position.within partition) :
      q ∈ a.positions m rows := List.mem_flatMap.2 ⟨partition, hpartition, hq⟩
  have hframe : (Position.within partition).filter
      (a.window.covers m.toOperations a.bounded.schema (a.frame.bounded p) ∘ a.frame.bounded) =
      (Position.within partition).filter fun q => a.frame.covers p.number q.number :=
    List.filter_congr fun q hq => h.covers_bounded (hmem hp) (hmem hq)
  rw [List.filter_map, hframe, RowsFrame.around, (Position.mem_within hp).1,
    List.map_map, List.map_map]
  refine List.map_congr_left fun q hq => ?_
  rw [Function.comp_apply, Function.comp_apply, h.project_bounded
    (h.feeds.position (hmem (List.mem_of_mem_filter hq))).1]

end FrameAggregate

namespace Framing

variable {m : Framing} {row other third : Row} {columns : List Column}

theorem agree_symm (h : m.agree s columns row other) : m.agree s columns other row := by
  rw [agree, List.all_eq_true] at h ⊢
  exact fun c hc => m.alike_symm (h c hc)

theorem agree_trans (h : m.agree s columns row other) (h' : m.agree s columns other third) :
    m.agree s columns row third := by
  rw [agree, List.all_eq_true] at h h' ⊢
  exact fun c hc => m.alike_trans (h c hc) (h' c hc)

theorem agree_of_alikeRows (s : Schema) (columns : List Column)
    (hlength : row.length = other.length)
    (h : m.alikeRows row other) : m.agree s columns row other := by
  rw [alikeRows, List.all_eq_true] at h
  rw [agree, List.all_eq_true]
  intro c _
  rw [Schema.read, Schema.read]
  cases s.index? c with
  | none => exact m.alike_refl _
  | some i =>
    rw [Option.bind_some, Option.bind_some]
    by_cases hi : i < row.length
    · have hi' : i < other.length := hlength ▸ hi
      rw [List.getElem?_eq_getElem hi, List.getElem?_eq_getElem hi']
      exact h (row[i], other[i]) (List.mem_of_getElem? (List.getElem?_zip_eq_some.2
        ⟨List.getElem?_eq_getElem hi, List.getElem?_eq_getElem hi'⟩))
    · rw [List.getElem?_eq_none (by omega), List.getElem?_eq_none (by omega)]
      exact m.alike_refl _

end Framing

theorem RowsFrame.alike_bounded (hlength : p.row.length = q.row.length)
    (h : m.alikeRows (frame.bounded p) (frame.bounded q)) :
    m.alikeRows p.row q.row ∧ p.number = q.number := by
  rw [Framing.alikeRows, bounded, bounded, List.zip_append hlength, List.all_append,
    Bool.and_eq_true] at h
  simp only [List.zip_cons_cons, List.all_cons, Bool.and_eq_true] at h
  exact ⟨h.1, Int.ofNat.inj (m.alike_int64 h.2.2.1)⟩

namespace FrameAggregate

variable {a : FrameAggregate} {m : Framing} {env : Env} {rows : List Row} {fields : List Field}

theorem Given.pairwise_bounded (h : a.Given m env rows) :
    (a.positions m rows).Pairwise fun p q =>
      m.alikeRows (a.frame.bounded p) (a.frame.bounded q) = false := by
  have hpartitions : (rows.splitBy (a.input.same m)).Pairwise fun left right =>
      ∀ row ∈ left, ∀ other ∈ right, a.input.same m row other = false :=
    (partitioned_splitBy _ rows).pairwise Framing.agree_symm (fun _ _ _ => Framing.agree_trans)
      (by rw [List.flatten_splitBy]; exact h.feeds.clustered)
  have hwidth {partition : List Row} (hpartition : partition ∈ rows.splitBy (a.input.same m))
      {p : Position} (hp : p ∈ Position.within partition) :
      p.row.length = a.input.plan.schema.fields.length :=
    (h.feeds.position (List.mem_flatMap.2 ⟨partition, hpartition, hp⟩)).1
  rw [positions, Position.all, List.pairwise_flatMap]
  constructor
  · intro partition hpartition
    refine (Position.pairwise_within partition).imp_of_mem fun {p q} hp hq hnumber => ?_
    rw [← Bool.not_eq_true]
    intro halike
    have hlength := (hwidth hpartition hp).trans (hwidth hpartition hq).symm
    exact Nat.ne_of_lt hnumber (RowsFrame.alike_bounded hlength halike).2
  · refine List.Pairwise.imp_of_mem (fun {left right} hleft hright hapart p hp q hq => ?_)
      hpartitions
    rw [← Bool.not_eq_true]
    intro halike
    have hlength := (hwidth hleft hp).trans (hwidth hright hq).symm
    have hagree := Framing.agree_of_alikeRows a.input.plan.schema a.input.partitionBy hlength
      (RowsFrame.alike_bounded hlength halike).1
    have hother := hapart p.row (Position.mem_within hp).2.1 q.row (Position.mem_within hq).2.1
    exact Bool.false_ne_true (hother.symm.trans hagree)

theorem Given.candidates_bounded (h : a.Given m env rows)
    (hspread : a.Widens a.spread.schema (a.boundFields ++ fields))
    (hf : a.bounded.schema.fields[i]? = some f) :
    a.spread.schema.candidates f.column = [(i, f)] := by
  refine hspread.candidates_column h.apart ?_
  rw [hspread.fields, ← List.append_assoc, ← a.widens_bounded.fields,
    List.getElem?_append_left (List.getElem?_eq_some_iff.1 hf).1, hf]

theorem Given.eval_values (h : a.Given m env rows)
    (hspread : a.Widens a.spread.schema (a.boundFields ++ fields))
    (hnames : fields.map (·.name) = a.values.map (·.name))
    (hp : p.row.length = a.input.plan.schema.fields.length) {args : Row}
    (hargs : args.length = a.values.length) :
    (a.values.map fun v => Scalar.column (.bare v.name)).map
      (Scalar.eval m.toOperations env a.spread.schema (a.frame.bounded p ++ args)) = args := by
  rw [List.map_map]
  refine List.ext_getElem? fun i => ?_
  rw [List.getElem?_map]
  cases hv : a.values[i]? with
  | none => rw [List.getElem?_eq_none (hargs ▸ List.getElem?_eq_none_iff.1 hv), Option.map_none]
  | some v =>
    have hname : ((a.boundFields ++ fields).map (·.name))[i + 4]? = some v.name := by
      rw [List.map_append, hnames]
      simp [boundFields, hv]
    have hi : i < args.length := hargs ▸ (List.getElem?_eq_some_iff.1 hv).1
    have hread := hspread.read_added h.apart ([.boolean (p.number == 1), .int64 p.number,
      .int64 (a.frame.first p.number), .int64 (p.number + a.frame.stop)] ++ args) hp hname
    rw [Option.map_some, Function.comp_apply, Scalar.eval, RowsFrame.bounded,
      List.append_assoc, hread]
    simp [hi]

theorem Given.framed_plan (h : a.Given m env rows) :
    a.plan.framed m env =
      ((a.positions m rows).filter fun p => !(a.frame.around p).isEmpty).map
        fun p => a.frame.bounded p ++ [m.total a.function false
          ((a.frame.around p).map fun row => a.input.args.map (a.input.plan.schema.read row))] := by
  obtain ⟨fields, hspread, hnames⟩ := exists_widens_spread h.apart h.args
  have hplain : a.aggregation.isPlain := by
    simp [Aggregation.isPlain, aggregation, value, a.widens_bounded.fields, boundFields]
  let args (row : Row) : Row := a.input.args.map (a.input.plan.schema.read row)
  let entry (p : Position) : Row × List Row :=
    (a.frame.bounded p, (a.frame.around p).map fun row => a.frame.bounded p ++ args row)
  have hrows : a.spread.framed m env =
      ((a.positions m rows).map entry).flatMap (·.2) := by
    rw [h.framed_spread, List.flatMap_map]
  have hkey : ∀ e ∈ (a.positions m rows).map entry, ∀ row ∈ e.2,
      a.spread.schema.project a.aggregation.groupBy row = e.1 := by
    intro e he row hrow
    obtain ⟨p, hp, rfl⟩ := List.mem_map.1 he
    obtain ⟨other, -, rfl⟩ := List.mem_map.1 hrow
    refine Schema.project_columns (h.candidates_bounded hspread) ?_
    simp [RowsFrame.bounded, (h.feeds.position hp).1, a.widens_bounded.fields, boundFields]
  rw [plan, Plan.framed, if_pos hplain, hrows,
    m.groups_flatMap env _ _ hkey (List.pairwise_map.2 (h.pairwise_bounded)), List.filter_map,
    List.map_map]
  have hempty : (fun e : Row × List Row => !e.2.isEmpty) ∘ entry =
      fun p => !(a.frame.around p).isEmpty := by
    funext p
    simp [entry]
  rw [hempty]
  refine List.map_congr_left fun p hp => ?_
  have hp := (h.feeds.position (List.mem_of_mem_filter hp)).1
  have hvalues : (entry p).2.map
    (fun row => (a.values.map fun v => Scalar.column (.bare v.name)).map
      (Scalar.eval m.toOperations env a.spread.schema row)) = (a.frame.around p).map args := by
    rw [List.map_map]
    refine List.map_congr_left fun row _ => ?_
    exact h.eval_values hspread hnames hp (by simp [args, values, frameValues])
  exact congrArg (fun rows => a.frame.bounded p ++ [m.total a.function false rows]) hvalues

theorem Given.length_framed_plan (h : a.Given m env rows) :
    (a.plan.framed m env).length = rows.length ↔ a.frame.HoldsCurrent ∨ rows = [] := by
  have hpositions := Position.length_all (rows.splitBy (a.input.same m))
  rw [List.flatten_splitBy] at hpositions
  rw [h.framed_plan, List.length_map, ← hpositions, List.length_filter_eq_length_iff,
    ← List.splitBy_eq_nil (r := a.input.same m),
    ← RowsFrame.forall_around_ne_nil (List.nil_notMem_splitBy _ rows)]
  simp

theorem Given.fields_plan (h : a.Given m env rows) :
    a.plan.schema.fields =
      a.input.plan.schema.fields ++ a.boundFields ++ [Plan.AggregateValue.field a.value] := by
  obtain ⟨fields, hspread, -⟩ := exists_widens_spread h.apart h.args
  have hgroup : a.aggregation.groupBy.filterMap a.spread.schema.field? =
      a.bounded.schema.fields := by
    rw [aggregation, List.filterMap_map]
    refine (List.filterMap_congr fun f hf => ?_).trans (List.filterMap_some ..)
    obtain ⟨i, hi⟩ := List.mem_iff_getElem?.1 hf
    exact Schema.field?_eq_some.2 ⟨i, h.candidates_bounded hspread hi⟩
  rw [← a.widens_bounded.fields, ← hgroup]
  rfl

end FrameAggregate

theorem WindowInput.exists_argType (hargs : ∀ c ∈ w.args, w.plan.schema.contains c)
    (c : BindContext) (s : BindState) :
    ∃ argType, (w.args.head?.mapM fun c => do
      return (← liftM (w.plan.schema.resolve c)).2.dataType :
        BindM _).start c s = (.ok argType, s) := by
  cases hhead : w.args.head? with
  | none => exact ⟨none, rfl⟩
  | some arg =>
    obtain ⟨i, f, hf⟩ := Schema.contains_iff.1 (hargs arg (List.mem_of_mem_head? hhead))
    have hresolve : w.plan.schema.resolve arg = .ok (i, f) := by
      rw [Schema.resolve, Schema.find?, hf]
      rfl
    refine ⟨some f.dataType, ?_⟩
    rw [Option.mapM_some, hresolve]
    rfl

theorem WindowInput.exists_start_bindAggregate {f : AggregateFunction} (name : String)
    (hframe : RowsFrame.ofSql sqlFrame = .ok frame) (horder : w.orderBy ≠ [])
    (hcount : w.args.length = if f = .countStar then 0 else 1)
    (hargs : ∀ c ∈ w.args, w.plan.schema.contains c) (c : BindContext) (s : BindState) :
    ∃ argType, (w.bindAggregate f name sqlFrame).start c s =
      (({ w with argType } : WindowInput).frameAggregate f frame).start c s := by
  obtain ⟨argType, htype⟩ := exists_argType hargs c s
  refine ⟨argType, ?_⟩
  rw [bindAggregate, if_neg (by simpa using hcount)]
  dsimp only
  rw [start_bind_ok htype, if_neg (by simpa using horder), hframe]
  rfl

/-- An aggregate over a frame of rows extends each row whose frame is not empty by its mark, its
number, the ends of its frame and the aggregate over the rows of its frame. It has a row for each
row of its input exactly if rows are in their own frames. -/
theorem WindowInput.bindAggregate_rows (w : WindowInput) (f : AggregateFunction) (name : String)
    {sqlFrame : Option Sql.Frame} {frame : RowsFrame}
    (hframe : RowsFrame.ofSql sqlFrame = .ok frame)
    (horder : w.orderBy ≠ []) (hcount : w.args.length = if f = .countStar then 0 else 1)
    (hargs : ∀ c ∈ w.args, w.plan.schema.contains c) (c : BindContext) (s : BindState)
    (hapart : w.Apart s.names) {m : Framing} {env : Env} {rows : List Row}
    (hrows : w.Feeds m env rows) (hrange : m.Unbounded ∨ rows.length + frame.stop < 2 ^ 63) :
    ∃ plan column s', (w.bindAggregate f name sqlFrame).start c s = (.ok (plan, column), s') ∧
      (∃ hidden value, plan.schema.fields = w.plan.schema.fields ++ hidden ++ [value] ∧
        hidden.length = 4 ∧ value.name = column) ∧
      plan.framed m env =
        ((Position.all (rows.splitBy (w.same m))).filter fun p => !(frame.around p).isEmpty).map
          (fun p => frame.bounded p ++ [m.total f false
            ((frame.around p).map fun row => w.args.map (w.plan.schema.read row))]) ∧
      ((plan.framed m env).length = rows.length ↔ frame.HoldsCurrent ∨ rows = []) := by
  obtain ⟨argType, hrun⟩ := exists_start_bindAggregate name hframe horder hcount hargs c s
  let a : FrameAggregate := ⟨{ w with argType }, f, frame, s.names⟩
  obtain ⟨s', hplan⟩ := a.input.start_frameAggregate f frame c s
  have ha : a.input.Apart a.names := ⟨hapart.input, hapart.mark, hapart.exprs⟩
  have hfeeds : a.input.Feeds m env rows := ⟨hrows.framed, hrows.width, hrows.clustered⟩
  have hexact : frame.Exact m rows.length := RowsFrame.exact_of_ofSql hframe hrange
  have h : a.Given m env rows := ⟨ha, hfeeds, hexact, hargs⟩
  exact ⟨a.plan, a.name, s', hrun.trans hplan,
    ⟨a.boundFields, Plan.AggregateValue.field a.value, h.fields_plan, rfl, rfl⟩, h.framed_plan,
    h.length_framed_plan⟩

/-- A runtime over some rows in which a value is alike to itself only. It adds and compares numbers
of rows, and its only aggregate is a count. -/
def Framing.counting (rows : List Row) : Framing where
  equal v w := v == w
  less v w := match v, w with
    | .int64 m, .int64 n => m < n
    | _, _ => false
  like _ _ := false
  arithmetic _ v w := match v, w with
    | .int64 m, .int64 n => .int64 (m + n)
    | v, _ => v
  negate v := v
  cast _ v := v
  call _ _ := .text ""
  equal_int := (Runtime.ofTables fun _ => rows).equal_int
  arithmetic_ne_null _ v w hv _ := by
    cases v <;> cases w <;> simp_all
  negate_ne_null _ h := h
  cast_ne_null _ _ h := h
  call_ne_null := (Runtime.ofTables fun _ => rows).call_ne_null
  source _ _ := rows
  alike v w := v == w
  total _ _ rows := .int32 rows.length
  alike_refl v := by simp
  alike_symm h := by simpa using (beq_iff_eq.1 h).symm
  alike_trans h h' := by simpa using (beq_iff_eq.1 h).trans (beq_iff_eq.1 h')
  alike_int64 h := by simpa using h
  less_int64 m n := rfl
  add_int64 m n _ _ := rfl

def staff : WindowInput where
  plan := .scan { entity := "staff", relation := "staff", source := .entity,
                  columns := [⟨"name", .utf8, false, none⟩, ⟨"team", .int32, false, none⟩],
                  primaryKey := none, rowCount := none }
  partitionBy := [.qualified "staff" "team"]
  orderBy := [⟨.qualified "staff" "name", .asc⟩]
  args := [.qualified "staff" "name"]

def staffRows : List Row :=
  [[.text "Ada", .int32 1], [.text "Ada", .int32 1], [.text "Ben", .int32 2]]

def rowsAway (digits : String) : Option Sql.FrameOffset :=
  some ⟨default, some digits⟩

def neighbours : Option Sql.Frame :=
  some ⟨.rows, .preceding (rowsAway "1"), some (.following (rowsAway "1"))⟩

def predecessors : Option Sql.Frame :=
  some ⟨.rows, .preceding (rowsAway "2"), some (.preceding (rowsAway "1"))⟩

theorem staff_feeds : staff.Feeds (.counting staffRows) .empty staffRows := by
  refine ⟨rfl, by decide +kernel, fun hsub hsame => ?_⟩
  obtain ⟨rfl, rfl, rfl⟩ : _ ∧ _ ∧ _ := by simpa [staffRows] using hsub.eq_of_length rfl
  decide +kernel

theorem staff_apart : staff.Apart {} :=
  ⟨by decide +kernel, by decide +kernel, by decide +kernel⟩

theorem staff_neighbours :
    ∃ plan column s', (staff.bindAggregate .count "COUNT" neighbours).start QueryBinder.accounts
        { session := .empty } = (.ok (plan, column), s') ∧
      plan.framed (.counting staffRows) .empty =
        [[.text "Ada", .int32 1, .boolean true, .int64 1, .int64 0, .int64 2, .int32 2],
          [.text "Ada", .int32 1, .boolean false, .int64 2, .int64 1, .int64 3, .int32 2],
          [.text "Ben", .int32 2, .boolean true, .int64 1, .int64 0, .int64 2, .int32 1]] := by
  have hframe : RowsFrame.ofSql neighbours = .ok ⟨some (-1), 1⟩ := rfl
  obtain ⟨plan, column, s', hrun, -, hframed, -⟩ := staff.bindAggregate_rows .count "COUNT" hframe
    (by decide) rfl (by decide +kernel) QueryBinder.accounts { session := .empty }
      staff_apart staff_feeds
    (.inl fun _ _ => rfl)
  exact ⟨plan, column, s', hrun, hframed.trans (by decide +kernel)⟩

theorem staff_predecessors :
    staff.Feeds (.counting staffRows) .empty staffRows ∧ staff.Apart {} ∧
      RowsFrame.ofSql predecessors = .ok ⟨some (-2), -1⟩ ∧
      ∃ plan column s', (staff.bindAggregate .count "COUNT" predecessors).start QueryBinder.accounts
          { session := .empty } = (.ok (plan, column), s') ∧
        staffRows.length = 3 ∧ (plan.framed (.counting staffRows) .empty).length = 1 := by
  refine ⟨staff_feeds, staff_apart, rfl, _, _, _, start_eq_value rfl, rfl, ?_⟩
  decide +kernel

end BatchPlan
