import BatchPlan.Proofs.Addressing.LetterCase
import BatchPlan.Proofs.Addressing.Sources
import BatchPlan.Proofs.Binding.Gives
import BatchPlan.Proofs.Meaning.Rows

namespace BatchPlan

variable {tables : List String} {fields : List Field}

namespace Schema

def shown (s : Schema) (tables : List String) : List Field :=
  s.fields.filter fun f => f.visible && f.relation.any fun r => tables.any (Text.sameAscii r ·)

/-- The visible fields of some tables, each of which is found by its column. -/
structure Exposes (s : Schema) (tables : List String) (fields : List Field) : Prop where
  shown : s.shown tables = fields
  found : ∀ f ∈ fields, s.contains f.column

variable {s t u : Schema} {tables : List String} {fields : List Field} {f : Field}

theorem shown_eq (s : Schema) (tables : List String) : s.shown tables =
    s.sources.filter fun f => f.visible && f.relation.any fun r =>
      tables.any (Text.sameAscii r ·) := by
  rw [shown, sources, List.filter_filter]
  refine List.filter_congr fun f _ => ?_
  cases f.relation <;> simp

theorem visibleFields_eq {table : String} (h : table ∈ tables) : s.visibleFields (some table) =
    (s.shown tables).filter fun f => f.relation.any (Text.sameAscii · table) := by
  rw [visibleFields, shown, List.filter_filter]
  refine List.filter_congr fun f _ => ?_
  cases f.relation with
  | none => simp
  | some r =>
    have hany : Text.sameAscii r table → tables.any (Text.sameAscii r ·) :=
      fun hr => List.any_eq_true.2 ⟨table, h, hr⟩
    cases hr : Text.sameAscii r table with
    | false => simp [hr]
    | true => simp [hr, hany hr]

namespace Exposes

theorem mem_sources (h : s.Exposes tables fields) (hf : f ∈ fields) : f ∈ s.sources := by
  rw [← h.shown, shown_eq] at hf
  exact List.mem_of_mem_filter hf

theorem relation_isSome (h : s.Exposes tables fields) (hf : f ∈ fields) :
    f.column.relation.isSome :=
  (Schema.mem_sources.1 (h.mem_sources hf)).2

theorem field?_column (h : s.Exposes tables fields) (hf : f ∈ fields) :
    s.field? f.column = some f :=
  Schema.field?_column (Schema.mem_sources.1 (h.mem_sources hf)).1 (h.found f hf)

theorem congr (h : s.Exposes tables fields) (hsources : t.sources = s.sources) :
    t.Exposes tables fields := by
  refine ⟨by rw [← h.shown, shown_eq, shown_eq, hsources], fun f hf => ?_⟩
  rw [contains_congr hsources (h.relation_isSome hf)]
  exact h.found f hf

theorem widen (h : s.Exposes tables fields) (hst : s.Widens t) : t.Exposes tables fields :=
  h.congr hst.sources

end Exposes

theorem filterMap_field?_columns (h : ∀ f ∈ s.fields, f ∈ u.fields) :
    (s.fields.map Field.column).filterMap u.field? = s.fields.filter fun f =>
      u.contains f.column := by
  rw [List.filterMap_map, ← List.filterMap_eq_filter]
  refine List.filterMap_congr fun f hf => ?_
  rw [Function.comp_apply, Option.guard]
  split
  next hcontains => exact field?_column (h f hf) hcontains
  next hcontains =>
    refine Option.eq_none_iff_forall_ne_some.2 fun g hg => hcontains ?_
    exact contains_iff_field?.2 ⟨g, hg⟩

theorem Exposes.grouped (h : s.Exposes tables fields) (hfields : ∀ f ∈ s.fields, f ∈ u.fields)
    (hsources : u.sources = s.sources) {more : List Field} (hmore : ∀ f ∈ more, f.relation = none) :
    (ofFields ((s.fields.map Field.column).filterMap u.field? ++ more)).Exposes tables fields := by
  have hkept : (ofFields ((s.fields.map Field.column).filterMap u.field? ++ more)).sources =
      s.sources.filter fun f => u.contains f.column := by
    rw [sources_append_unnamed _ hmore, filterMap_field?_columns hfields, sources, sources]
    exact List.filter_comm ..
  have hfound (f : Field) (hf : f ∈ fields) : u.contains f.column := by
    rw [contains_congr hsources (h.relation_isSome hf)]
    exact h.found f hf
  refine ⟨?_, fun f hf => ?_⟩
  · rw [shown_eq, hkept, List.filter_comm, ← shown_eq, h.shown]
    exact List.filter_eq_self.2 hfound
  · refine contains_iff_field?.2 ⟨f, ?_⟩
    rw [field?_eq_some_iff (h.relation_isSome hf), hkept, List.filter_comm,
      (field?_eq_some_iff (h.relation_isSome hf)).1 (h.field?_column hf)]
    simp [hfound f hf]

end Schema

namespace Plan

variable (left right : Plan) {j : JoinSpec}

theorem fields_join_right (h : j.output = .right) : (Plan.join left right j).schema.fields =
    right.schema.fields ++ j.definitions.map Definition.field := by
  simp [schema, joinSchema, h, Schema.ofFields, Schema.withPrimaryKey, Schema.withSortOrder]

theorem fields_loop_inner (outer : List OuterBinding) :
    (left.loop right .inner outer).schema.fields = left.schema.fields ++ right.schema.fields := by
  rw [loop, fields_join_both left right rfl]
  simp [padded_false, show (JoinType.inner == .fullOuter) = false from rfl,
    show (JoinType.inner == .leftOuter) = false from rfl]

end Plan

namespace WindowInput

variable {w : WindowInput} {tables : List String} {fields : List Field}

theorem gives_widens_segmented (w : WindowInput) (order : List SortKey) :
    Gives (w.segmented order) fun r => w.plan.schema.Widens r.1.schema :=
  .after fun _ => .pure ((w.plan.widens_ordered _).trans (Plan.widens_segment _ _ _))

theorem gives_widens_ranking (w : WindowInput) (f : AggregateFunction) :
    Gives (w.ranking f) fun r => w.plan.schema.Widens r.1.schema ∧
      Plan.countField r.2 ∈ r.1.schema.fields := by
  refine (w.gives_widens_segmented w.orderBy).bind fun (plan, segment) hplan => ?_
  have hnumbered {ranked : Plan} (hranked : w.plan.schema.Widens ranked.schema)
    (mark : Option Column) : Gives (BindM.freshExpr >>= fun name =>
        pure (Plan.sequence ranked [⟨name, f, segment, mark⟩], name))
        fun r => w.plan.schema.Widens r.1.schema ∧ Plan.countField r.2 ∈ r.1.schema.fields :=
    .after fun _ => .pure ⟨hranked.trans (Plan.widens_sequence _ _),
      List.mem_append_right _ List.mem_cons_self⟩
  refine .ite (fun _ => ?_) fun _ => .after fun mark => ?_
  · rw [pure_bind]
    exact hnumbered hplan none
  · rw [pure_bind]
    exact hnumbered (hplan.trans (plan.widens_segment _ _)) _

theorem gives_exposes_partitionAggregate (hw : w.plan.schema.Exposes tables fields)
    (f : AggregateFunction) :
    Gives (w.partitionAggregate f) fun r => r.1.schema.Exposes tables fields := by
  refine (w.gives_widens_segmented []).bind fun (plan, segment) hplan => .after fun id =>
    .after fun name => .pure ?_
  have hspool := hplan.trans (plan.widens_spool id .lazy (.segment (some segment)))
  apply hw.congr
  rw [← hspool.sources, Schema.sources, Plan.fields_join_right _ _ rfl, Plan.fields_loop_inner]
  -- the total has no source
  simp [Schema.sources, Plan.summary, Plan.schema, Plan.aggregateSchema, Plan.AggregateValue.field,
    Schema.ofFields, Schema.withPrimaryKey]

theorem gives_exposes_frameAggregate (hw : w.plan.schema.Exposes tables fields)
    (f : AggregateFunction) (frame : RowsFrame) :
    Gives (w.frameAggregate f frame) fun r => r.1.schema.Exposes tables fields := by
  refine (w.gives_widens_segmented w.orderBy).bind fun (plan, segment) hplan => .after fun number =>
    .after fun first => .after fun last => .after fun values => .after fun id => .after fun name =>
    .pure ?_
  have hbounded {numbered : Plan} (hnumbered : plan.schema.Widens numbered.schema)
      (definitions : List Definition) :
      (Plan.compute numbered definitions).schema.Exposes tables fields :=
    hw.widen ((hplan.trans hnumbered).trans (numbered.widens_compute definitions))
  have hspool (bounded : Plan) (mode : SpoolMode) (g : Field) (hg : g ∈ bounded.schema.fields) :
      g ∈ (Plan.spool id bounded .lazy mode).schema.fields :=
    List.mem_append_left _ hg
  refine ((hbounded (plan.widens_sequence _) _).grouped (hspool _ _)
    (Plan.widens_spool _ id .lazy _).sources ?_).congr rfl
  rw [List.forall_mem_map]
  exact fun _ _ => rfl

theorem gives_exposes_bindAggregate (hw : w.plan.schema.Exposes tables fields)
    (f : AggregateFunction) (name : String) (frame : Option Sql.Frame) :
    Gives (w.bindAggregate f name frame) fun r => r.1.schema.Exposes tables fields := by
  have hw' (argType : Option DataType) :
      ({ w with argType } : WindowInput).plan.schema.Exposes tables fields := hw
  exact .check fun _ => .after fun argType =>
    .ite (fun _ => .check fun _ => gives_exposes_partitionAggregate (hw' argType) f)
      fun _ => .after fun rows => gives_exposes_frameAggregate (hw' argType) f rows

end WindowInput

theorem Block.gives_widens_windowInput (k : Block) (call : Sql.Call Sql.Expr)
    (partitionBy : List Sql.Expr) (orderBy : List (Sql.OrderItem Sql.Expr)) :
    Gives (k.windowInput call partitionBy orderBy) fun w => k.plan.schema.Widens w.plan.schema :=
  .after fun _ => .after fun _ => .after fun _ => .pure (k.plan.widens_define _)

theorem Block.gives_exposes_bindWindow {k : Block} (hk : k.plan.schema.Exposes tables fields)
    (call : Sql.Call Sql.Expr) : Gives (k.bindWindow call) fun r =>
      r.1.schema.Exposes tables fields := by
  unfold bindWindow
  split
  · refine .after fun f => .check fun _ => .check fun _ => ?_
    refine (k.gives_widens_windowInput call _ _).bind fun w hw => .ite (fun _ => ?_) fun _ => ?_
    · exact .check fun _ => .check fun _ => (w.gives_widens_ranking f).mono
        fun _ h => (hk.widen hw).widen h.1
    · exact WindowInput.gives_exposes_bindAggregate (hk.widen hw) f _ _
  · exact .throw

/-- A block in whose rows the visible fields of its tables are these. -/
structure Block.Exposes (k : Block) (tables : List String) (fields : List Field) : Prop where
  rows : k.plan.schema.Exposes tables fields
  tables : k.scope.tables = tables
  preAggregate : k.scope.preAggregate = none
  names : k.scope.schema = k.plan.schema

namespace Block

variable {k k' : Block} {tables : List String} {fields : List Field}

theorem Exposes.widen (hk : k.Exposes tables fields) (h : k.Widens k') : k'.Exposes tables fields :=
  ⟨hk.rows.widen h.rows, h.tables.trans hk.tables, h.preAggregate.trans hk.preAggregate,
    h.names hk.names⟩

theorem gives_exposes_windows (hk : k.Exposes tables fields) (es : List Sql.Expr) :
    Gives (k.windows es) (·.Exposes tables fields) :=
  .foldlM hk fun _ hk call _ => (gives_exposes_bindWindow hk.rows call).bind fun _ hplan =>
    .pure ⟨hplan, hk.tables, hk.preAggregate, rfl⟩

theorem gives_widens_orderBy (k : Block) (items : List (Sql.OrderItem Sql.Expr))
    (outputs : List OutputColumn) (distinct : Bool) :
    Gives (k.orderBy items outputs distinct) k.Widens :=
  .after fun _ => .pure (.withPlan k ((k.plan.widens_define _).trans (Plan.widens_ordered _ _)))

theorem gives_widens_limitRows (k : Block) (s : Sql.Select Sql.Query) (tail : QueryTail) :
    Gives (s.limitRows tail k) k.Widens := by
  unfold Sql.Select.limitRows
  split
  · refine Gives.bind (P := fun plan => plan.schema = k.plan.schema) ?_ fun plan hplan =>
      .pure (.withPlan k (hplan ▸ .refl _))
    exact .check fun _ => .check fun _ => .after fun _ => .pure rfl
  · refine .check fun _ => Gives.bind (P := fun plan => plan.schema = k.plan.schema) ?_
      fun plan hplan => .pure (.withPlan k (hplan ▸ .refl _))
    refine .ite (fun _ => .pure rfl) fun _ => ?_
    split
    · exact .throw
    · exact .after fun _ => .after fun _ => .pure rfl

end Block

theorem Progress.gives_widens_extend {clause : Block → BindM Block} {p : Progress}
    (hp : p.block.Exposes tables fields)
    (hclause : Gives (clause p.block) (·.Exposes tables fields)) :
    Gives (p.extend clause) (·.block.Exposes tables fields) :=
  gives_extend hp hclause fun k hk => hk.widen (.withPlan k (.refl _))

end BatchPlan
