import BatchPlan.Proofs.Framing.Ranking
import Mathlib.Logic.Function.Basic

namespace BatchPlan

open BindM

variable {partition : List Row}

/-- How plans over partitions are run. -/
structure Totaling extends Operations where
  order : ValueOrder
  source : Plan → List Row
  /-- An aggregate, of distinct arguments or of all, over rows that are given by their arguments. -/
  total : AggregateFunction → Bool → List Row → Value

def JoinOutput.row (left right : Row) : JoinOutput → Row
  | .both => left ++ right
  | .left => left
  | .right => right

/-- Is each right row joined to each left row that it goes with? -/
def JoinSpec.isLoop (j : JoinSpec) : Bool :=
  match j.strategy with
  | .nestedLoop _ => j.type == .inner && j.definitions.isEmpty
  | _ => false

/-- The rows of a plan, each with the rows that the spools hold at that time. A spool by segments
has one row for each segment, whose rows it holds meanwhile. -/
def Plan.replayed (m : Totaling) : Plan → Env → (Nat → List Row) → List (Row × (Nat → List Row))
  | .spool id input kind mode, _, held =>
    match mode with
    | .segment (some mark) =>
      ((input.ranked m.order m.source).splitBy fun _ next =>
        !input.schema.marks mark next).filterMap
        fun segment => segment.head?.map (·, Function.update held id segment)
    | mode => (m.source (.spool id input kind mode)).map (·, held)
  | .consumer id _, _, held => (held id).map (·, held)
  | .aggregate input spec, env, held =>
    if spec.groupBy.isEmpty then
      [(spec.values.map fun v => m.total v.function v.distinct
        ((input.replayed m env held).map fun entry =>
        v.args.map (Scalar.eval m.toOperations env input.schema entry.1)), held)]
    else (m.source (.aggregate input spec)).map (·, held)
  | .join left right spec, env, held =>
    if spec.isLoop then
      (left.replayed m env held).flatMap fun l =>
        ((right.replayed m (env.bind left.schema l.1 spec.strategy.bindings) l.2).filter fun r =>
          spec.admits m.toOperations env left.schema right.schema l.1 r.1).map fun r =>
            (spec.output.row l.1 r.1, held)
    else (m.source (.join left right spec)).map (·, held)
  | p, _, held => (p.ranked m.order m.source).map (·, held)

theorem Position.map_row_within (partition : List Row) :
    (within partition).map (·.row) = partition := by
  simp [within, Function.comp_def]

theorem Position.map_row_all (partitions : List (List Row)) :
    (all partitions).map (·.row) = partitions.flatten := by
  simp only [all, List.map_flatMap, map_row_within, List.flatMap_id']

theorem filter_of_mem_partition {same : Row → Row → Bool} {partitions : List (List Row)}
    (hsymm : ∀ {row other}, same row other → same other row)
    (hsame : ∀ partition ∈ partitions, ∀ row ∈ partition, ∀ other ∈ partition, same row other)
    (hapart : partitions.Pairwise fun left right => ∀ row ∈ left, ∀ other ∈ right,
      same row other = false)
    (hpartition : partition ∈ partitions) {row : Row} (hrow : row ∈ partition) :
    partitions.flatten.filter (same row) = partition := by
  induction partitions with
  | nil => cases hpartition
  | cons first rest ih =>
    obtain ⟨hfirst, hrest⟩ := List.pairwise_cons.1 hapart
    rw [List.flatten_cons, List.filter_append]
    obtain rfl | hpartition := List.mem_cons.1 hpartition
    · have hothers : rest.flatten.filter (same row) = [] := by
        refine List.filter_eq_nil_iff.2 fun other hother => ?_
        obtain ⟨right, hright, hother⟩ := List.mem_flatten.1 hother
        simp [hfirst right hright row hrow other hother]
      rw [hothers, List.append_nil, List.filter_eq_self.2 (hsame partition (by simp) row hrow)]
    · have hothers : first.filter (same row) = [] := by
        refine List.filter_eq_nil_iff.2 fun other hother hsame => ?_
        exact Bool.false_ne_true ((hfirst partition hpartition other hother row hrow).symm.trans
          (hsymm hsame))
      rw [hothers, List.nil_append]
      exact ih (fun p hp => hsame p (List.mem_cons_of_mem _ hp)) hrest hpartition

namespace WindowInput

variable {w : WindowInput} {o : ValueOrder} {rows : List Row} {p : Position}

theorem peers_symm {row other : Row} (h : w.peers o row other) : w.peers o other row :=
  ValueOrder.agree_symm.trans h

theorem Sorted.clustered (h : w.Sorted o rows) : Clustered (w.peers o) rows := by
  intro first middle last hsub hpeers
  have hpairs := h.partition.sublist hsub
  simp only [List.pairwise_cons, List.mem_cons, List.not_mem_nil, or_false,
    forall_eq_or_imp, forall_eq] at hpairs
  rw [peers, ← columns_asc w.partitionBy] at hpeers
  have hmiddle := ValueOrder.agree_of_between hpairs.1.1 hpairs.2.1 hpeers
  rw [columns_asc] at hmiddle hpeers
  exact ValueOrder.agree_trans hpeers (peers_symm hmiddle)

/-- Sorted rows are split into those that agree in the columns of the partition. -/
theorem Sorted.filter_partition (h : w.Sorted o rows)
    (hpartition : partition ∈ rows.splitBy (w.peers o))
    {row : Row} (hrow : row ∈ partition) : rows.filter (w.peers o row) = partition := by
  have hsplit := partitioned_splitBy (w.peers o) rows
  have hrefl (row : Row) : w.peers o row row := by
    simp [peers, ValueOrder.agree, or_self_iff.1 (o.total ..)]
  have htrans (row other third : Row) : w.peers o row other → w.peers o other third →
      w.peers o row third :=
    ValueOrder.agree_trans
  have hlast {partition : List Row} (hpartition : partition ∈ rows.splitBy (w.peers o)) {row : Row}
      (hrow : row ∈ partition) : w.peers o row (partition.getLast (List.ne_nil_of_mem hrow)) := by
    obtain heq | hsame := eq_or_same_getLast htrans (hsplit.chain partition hpartition)
      (List.ne_nil_of_mem hrow) hrow
    · rw [← heq]
      exact hrefl row
    · exact hsame
  have hfilter : (rows.splitBy (w.peers o)).flatten.filter (w.peers o row) = partition :=
    filter_of_mem_partition peers_symm (fun partition hpartition row hrow other hother =>
      htrans _ _ _ (hlast hpartition hrow) (peers_symm (hlast hpartition hother)))
    (hsplit.pairwise peers_symm htrans (by rw [List.flatten_splitBy]; exact h.clustered))
      hpartition hrow
  rwa [List.flatten_splitBy] at hfilter

/-- The spool that keeps a partition. -/
def kept (w : WindowInput) (mark : String) (id : Nat) : Plan :=
  .spool id (.segment (w.plan.ordered w.keys) w.partitionBy mark) .lazy
    (.segment (some (.bare mark)))

def totalValue (w : WindowInput) (f : AggregateFunction) (name : String) : AggregateValue :=
  { name, function := f, args := w.args.map .column, dataType := f.resultType w.argType }

/-- The plan that sums up a partition and hands it on. -/
def totals (w : WindowInput) (f : AggregateFunction) (mark name : String) (id : Nat) : Plan :=
  let rows := Plan.consumer id (w.kept mark id).schema
  .join (w.kept mark id) ((rows.summary [w.totalValue f name]).loop rows .inner [])
    { type := .inner, strategy := .nestedLoop [], output := .right }

variable {m : Totaling} {mark name : String} {id : Nat} {f : AggregateFunction}

/-- Where the partition of a position begins is marked after its row. -/
def begun (p : Position) : Row :=
  p.row ++ [.boolean (p.number == 1)]

variable (w m) in
/-- What the window finds in its input. -/
structure Found (mark : String) : Prop where
  args : ∀ c ∈ w.args, w.plan.schema.contains c
  lacks : w.plan.schema.Lacks (.bare mark)
  rows : w.plan.schema.InOrder m.order (w.plan.ranked m.order m.source)

variable (w m) in
def partitions : List (List Row) :=
  ((w.plan.ordered w.keys).ranked m.order m.source).splitBy (w.peers m.order)

theorem partitioned : Partitioned (w.peers m.order) (w.partitions m) :=
  partitioned_splitBy ..

theorem fields_segment : (Plan.segment (w.plan.ordered w.keys) w.partitionBy mark).schema.fields =
    w.plan.schema.fields ++ [Plan.markField mark] := by
  rw [← Plan.fields_ordered w.plan w.keys]
  rfl

theorem fields_kept : (w.kept mark id).schema.fields = w.plan.schema.fields ++
    [Plan.markField mark] :=
  (List.append_nil _).trans fields_segment

theorem Found.length (h : w.Found m mark) (hp : p ∈ Position.all (w.partitions m)) :
    p.row.length = w.plan.schema.fields.length := by
  have hmem : p.row ∈ (w.partitions m).flatten :=
    List.mem_flatten.2 ⟨p.partition, (Position.mem_all hp).1,
      (Position.mem_within (Position.mem_all hp).2).2.1⟩
  rw [partitions, List.flatten_splitBy] at hmem
  exact h.rows.width _ (perm_ordered.mem_iff.1 hmem)

theorem ranked_segment :
    (Plan.segment (w.plan.ordered w.keys) w.partitionBy mark).ranked m.order m.source =
      (Position.all (w.partitions m)).map begun := by
  have hpeers : m.order.agree (w.plan.ordered w.keys).schema w.partitionBy = w.peers m.order := by
    funext row other
    simp only [peers, ValueOrder.agree, Schema.read_congr (Plan.fields_ordered w.plan w.keys)]
  rw [Plan.ranked, hpeers, ← List.flatten_splitBy (w.peers m.order)
    ((w.plan.ordered w.keys).ranked _ _)]
  exact marked_flatten partitioned (by simp)

/-- The spool keeps the partitions, one by one. -/
theorem Found.replayed_kept (h : w.Found m mark) (env : Env) (held : Nat → List Row) :
    (w.kept mark id).replayed m env held = (w.partitions m).filterMap fun partition =>
      ((Position.within partition).map begun).head?.map
        (·, Function.update held id ((Position.within partition).map begun)) := by
  rw [kept, Plan.replayed, ranked_segment, splitBy_all partitioned.nonempty, List.filterMap_map]
  · rfl
  · intro p hp
    have hread : (Plan.segment (w.plan.ordered w.keys) w.partitionBy mark).schema.read (begun p)
      (.bare mark) =
      .boolean (p.number == 1) := Schema.read_new fields_segment h.lacks (h.length hp) _
    rw [Schema.marks, hread]
    cases p.number == 1 <;> rfl

theorem replayed_loop (left right : Plan) (output : JoinOutput) (env : Env)
    (held : Nat → List Row) :
    (Plan.join left right { type := .inner, strategy := .nestedLoop [], output }).replayed
      m env held = (left.replayed m env held).flatMap fun l =>
        (right.replayed m env l.2).map fun r => (output.row l.1 r.1, held) := by
  simp [Plan.replayed, JoinSpec.isLoop, JoinSpec.admits, JoinStrategy.agrees,
    JoinStrategy.bindings, Env.bind]

theorem replayed_summary (v : AggregateValue) (s : Schema) (env : Env) (held : Nat → List Row) :
    ((Plan.consumer id s).summary [v]).replayed m env held =
      [([m.total v.function v.distinct ((held id).map fun row =>
        v.args.map (Scalar.eval m.toOperations env s row))], held)] := by
  simp [Plan.summary, Plan.replayed, Plan.schema, Function.comp_def]

theorem Found.eval_args (h : w.Found m mark) (hp : p ∈ Position.all (w.partitions m)) (env : Env) :
    (w.args.map Scalar.column).map
      (Scalar.eval m.toOperations env (w.kept mark id).schema (begun p)) =
        w.args.map (w.plan.schema.read p.row) := by
  rw [List.map_map]
  refine List.map_congr_left fun c hc => ?_
  have hother : (Schema.ofFields [Plan.markField mark]).Lacks c := Schema.lacks_iff.2 (by
    simpa [Schema.ofFields] using
      w.plan.schema.not_answersTo (g := Plan.markField mark) rfl h.lacks
        (Schema.not_lacks_of_contains (h.args c hc)))
  exact Schema.read_append_left fields_kept (h.length hp) hother

/-- Each partition is handed on with its total. -/
theorem Found.replayed_totals (h : w.Found m mark) (env : Env) (held : Nat → List Row) :
    (w.totals f mark name id).replayed m env held = (Position.all (w.partitions m)).map fun p =>
      (m.total f false (p.partition.map fun row => w.args.map (w.plan.schema.read row)) ::
        begun p, held) := by
  rw [totals, replayed_loop, h.replayed_kept, List.filterMap_eq_flatMap_toList, List.flatMap_assoc,
    Position.all, List.map_flatMap]
  refine List.flatMap_congr fun partition hpartition => ?_
  have hargs : ((Position.within partition).map begun).map
    (fun row => (w.args.map Scalar.column).map
      (Scalar.eval m.toOperations env (w.kept mark id).schema row)) =
        partition.map fun row => w.args.map (w.plan.schema.read row) := by
    conv => rhs; rw [← Position.map_row_within partition]
    rw [List.map_map, List.map_map]
    exact List.map_congr_left fun p hp => h.eval_args
      (List.mem_flatMap.2 ⟨partition, hpartition, hp⟩) env
  obtain ⟨first, hfirst⟩ : ∃ first, ((Position.within partition).map begun).head? = some first := by
    cases partition with
    | nil => exact absurd hpartition partitioned.nonempty
    | cons row rest => exact ⟨_, rfl⟩
  rw [hfirst, Option.map_some, Option.toList_some, List.flatMap_singleton, Plan.loop, replayed_loop,
    replayed_summary, List.flatMap_singleton]
  simp only [Plan.replayed, Function.update_self, List.map_map, totalValue]
  refine List.map_congr_left fun p hp => ?_
  rw [(Position.mem_within hp).1, ← hargs]
  simp [JoinOutput.row]

theorem fields_totals : (w.totals f mark name id).schema.fields =
    Plan.AggregateValue.field (w.totalValue f name) :: w.plan.schema.fields ++
      [Plan.markField mark] := by
  have hloop : (((Plan.consumer id (w.kept mark id).schema).summary [w.totalValue f name]).loop
      (.consumer id (w.kept mark id).schema) .inner []).schema.fields =
        Plan.AggregateValue.field (w.totalValue f name) :: (w.kept mark id).schema.fields := by
    rw [Plan.loop, Plan.fields_join_both _ _ rfl, List.map_nil, List.append_nil]
    exact congrArg₂ _ (Plan.padded_false _) (Plan.padded_false _)
  rw [fields_kept] at hloop
  exact (List.append_nil _).trans hloop

theorem exists_start_partitionAggregate (horder : w.orderBy = []) (c : BindContext)
    (s : BindState) : ∃ s' id, (w.partitionAggregate f).start c s =
      (.ok (w.totals f (segmentName (s.names.segments + 1)) (exprName (s.names.exprs + 1)) id,
        exprName (s.names.exprs + 1)), s') := by
  have hkeys : w.keys = w.partitionBy.map (SortKey.mk · .asc) ++ [] := by rw [keys, horder]
  simp only [totals, kept, hkeys]
  exact ⟨_, _, rfl⟩

/-- An aggregate over whole partitions keeps all rows, and adds to each of them the aggregate over
the rows of its partition. -/
theorem bindAggregate_totals (w : WindowInput) (f : AggregateFunction) (name : String)
    (horder : w.orderBy = []) (hcount : w.args.length = if f = .countStar then 0 else 1)
    (c : BindContext)
    (s : BindState) (h : w.Found m (segmentName (s.names.segments + 1))) (env : Env)
    (held : Nat → List Row) :
    ∃ plan column s' rows, (w.bindAggregate f name none).start c s = (.ok (plan, column), s') ∧
      rows.Perm (w.plan.ranked m.order m.source) ∧
      (∃ value hidden, plan.schema.fields = value :: w.plan.schema.fields ++ [hidden] ∧
        value.name = column) ∧
      List.Forall₂ (fun row out => ∃ mark, out.1 = m.total f false
        ((rows.filter (w.peers m.order row)).map fun other =>
          w.args.map (w.plan.schema.read other)) ::
          row ++ [mark]) rows (plan.replayed m env held) := by
  obtain ⟨argType, htype⟩ := exists_argType h.args c s
  let v : WindowInput := { w with argType }
  have hv : v.Found m (segmentName (s.names.segments + 1)) := ⟨h.args, h.lacks, h.rows⟩
  have hrun : (w.bindAggregate f name none).start c s = (v.partitionAggregate f).start c s := by
    rw [bindAggregate, if_neg (by simpa using hcount)]
    dsimp only
    rw [start_bind_ok htype, if_pos (by simp [horder])]
    rfl
  obtain ⟨s', id, hplan⟩ := v.exists_start_partitionAggregate (f := f) horder c s
  have hflatten : (v.partitions m).flatten = (w.plan.ordered w.keys).ranked m.order m.source :=
    List.flatten_splitBy ..
  refine ⟨_, _, s', (v.partitions m).flatten, hrun.trans hplan, hflatten ▸ perm_ordered,
    ⟨_, _, fields_totals, rfl⟩, ?_⟩
  rw [hv.replayed_totals, ← Position.map_row_all, List.forall₂_map_left_iff,
    List.forall₂_map_right_iff, List.forall₂_same]
  intro p hp
  obtain ⟨hpartition, hwithin⟩ := Position.mem_all hp
  have hfilter := (sorted_ordered h.rows).filter_partition hpartition
    (Position.mem_within hwithin).2.1
  rw [Position.map_row_all, hflatten, hfilter]
  exact ⟨_, rfl⟩

def teams (column : String) : WindowInput :=
  { players column with orderBy := [] }

end WindowInput

/-- A runtime over some rows whose only aggregate is a count. -/
def Totaling.counting (rows : List Row) : Totaling :=
  { (Framing.counting rows).toOperations with
    order := .numeric, source := fun _ => rows, total := fun _ _ rows => .int32 rows.length }

namespace WindowInput

theorem teams_counted :
    (teams "points").Found (.counting playerRows) (segmentName 1) ∧
      ∃ plan column s' rows, ((teams "points").bindAggregate .countStar "COUNT" none).start
          QueryBinder.accounts { session := .empty } = (.ok (plan, column), s') ∧
        List.Perm rows playerRows ∧
        (plan.replayed (.counting playerRows) .empty fun _ => []).map (fun out => out.1.take 3) =
          [[.int32 3, .int32 7, .int32 1], [.int32 3, .int32 9, .int32 1],
            [.int32 3, .int32 9, .int32 1], [.int32 1, .int32 9, .int32 2]] := by
  have hfound : (teams "points").Found (.counting playerRows) (segmentName 1) :=
    ⟨by decide +kernel, by decide +kernel, by decide +kernel, by decide +kernel⟩
  obtain ⟨plan, column, s', rows, hrun, hperm, -⟩ :=
    (teams "points").bindAggregate_totals .countStar
    "COUNT" rfl rfl QueryBinder.accounts { session := .empty } hfound .empty fun _ => []
  refine ⟨hfound, plan, column, s', rows, hrun, hperm, ?_⟩
  cases hrun.symm.trans (start_eq_value rfl)
  decide +kernel

/-- A column with the name of the mark hides where partitions begin: the only row of the second team
is counted together with the others. -/
theorem teams_not_separated :
    let w := teams "Segment1"
    w.plan.schema.InOrder .numeric playerRows ∧
      (playerRows.filter (w.peers .numeric [.int32 9, .int32 2])).length = 1 ∧
      ∃ plan column s', (w.bindAggregate .countStar "COUNT" none).start QueryBinder.accounts
          { session := .empty } = (.ok (plan, column), s') ∧
        [.int32 4, .int32 9, .int32 2, .boolean true] ∈
          (plan.replayed (.counting playerRows) .empty fun _ => []).map (·.1) := by
  refine ⟨⟨by decide +kernel, by decide +kernel⟩, by
    decide +kernel, _, _, _, start_eq_value rfl, ?_⟩
  decide +kernel

end WindowInput

end BatchPlan
