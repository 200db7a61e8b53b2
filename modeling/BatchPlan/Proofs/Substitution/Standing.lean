import BatchPlan.Proofs.Addressing.Visible
import BatchPlan.Proofs.Substitution.Blocks
import BatchPlan.Proofs.Typing.Inference

namespace BatchPlan

open BindM

variable {s : Schema} {v : Scalar} {p : Plan}

namespace Plan

/-- Somewhere in a plan the rows have two fields that answer to a column. -/
def Muddles (p : Plan) (column : Column) : Prop :=
  ∃ q : Plan, q.Inside p ∧ ¬ q.schema.Lacks column ∧ q.schema.contains column = false

/-- A field is found in the rows of a plan, or somewhere in it another one has the same name. -/
def Retains (p : Plan) (f : Field) : Prop :=
  p.schema.field? f.column = some f ∨ p.Muddles f.column

variable {p q : Plan} {f : Field} {keys : List Column} {within : List SortKey}
    {values : List AggregateValue}

theorem Muddles.mono {column : Column} (h : p.Muddles column) (hpq : p.Inside q) :
    q.Muddles column := by
  obtain ⟨r, hr, hlacks, hcontains⟩ := h
  exact ⟨r, hr.trans hpq, hlacks, hcontains⟩

theorem retains_of_mem (hf : f ∈ p.schema.fields) : p.Retains f := by
  by_cases h : p.schema.contains f.column
  · exact .inl (Schema.field?_column hf h)
  · exact .inr ⟨p, .refl p, Schema.not_lacks_of_mem hf, by simpa using h⟩

theorem retains_aggregate {spec : Aggregation} (hf : f ∈ p.schema.fields)
    (hcolumn : f.column ∈ spec.groupBy) : (Plan.aggregate p spec).Retains f := by
  obtain hfield | hmuddles := retains_of_mem hf
  · exact retains_of_mem (List.mem_append_left _ (List.mem_filterMap.2 ⟨f.column, hcolumn, hfield⟩))
  · exact .inr (hmuddles.mono ((Inside.refl p).above rfl))

theorem retains_grouped (hf : f ∈ p.schema.fields) (hcolumn : f.column ∈ keys) :
    (p.grouped keys within values).Retains f := by
  unfold grouped
  dsimp only
  split
  · exact retains_aggregate hf hcolumn
  · exact retains_aggregate ((p.widens_ordered _).fields hf) hcolumn

theorem mem_fields_grouped {v : AggregateValue} (hv : v ∈ values) :
    AggregateValue.field v ∈ (p.grouped keys within values).schema.fields := by
  unfold grouped
  dsimp only
  split <;> exact List.mem_append_right _ (List.mem_map_of_mem hv)

theorem mem_fields_define {definitions : List Definition} {d : Definition} (hd : d ∈ definitions) :
    d.field ∈ (p.define definitions).schema.fields := by
  rw [define, if_neg (by simp [List.ne_nil_of_mem hd])]
  exact List.mem_append_right _ (List.mem_map_of_mem hd)

end Plan

/-- A value has a type and passes the check of collations. -/
structure Schema.Admits (s : Schema) (v : Scalar) : Prop where
  backed : v.Backed s
  type : ∃ t, v.dataType s = .ok t
  collations : ∀ base, v.checkCollations s base = pure ()

/-- A value can be read from the rows of a plan, unless one of its columns is the name of two
fields. -/
def Scalar.Stands (v : Scalar) (p : Plan) : Prop :=
  p.schema.Admits v ∨ ∃ column ∈ v.columns, p.Muddles column

theorem Schema.dataType_column {f : Field} (h : s.field? f.column = some f) :
    (Scalar.column f.column).dataType s = .ok f.dataType := by
  obtain ⟨i, hi⟩ := exists_resolve_of_field? h
  rw [Scalar.dataType, hi]
  rfl

theorem Scalar.dataType_binary {left right : Scalar} {op : BinaryOp} {l r : DataType}
    (hl : left.dataType s = .ok l) (hr : right.dataType s = .ok r) :
    (Scalar.binary left op right).dataType s = binaryType op l r := by
  rw [dataType, hl, hr]
  rfl

theorem Scalar.Backed.stands (h : v.Backed s) (hretains : ∀ f ∈ s.fields, p.Retains f) :
    v.Stands p := by
  cases h with
  | @column f hf =>
    refine (hretains f hf).imp (fun hfield => ?_) fun h => ⟨_, by simp [columns, parts, column?], h⟩
    exact ⟨.column (Schema.mem_of_field? hfield), ⟨_, Schema.dataType_column hfield⟩, fun _ => rfl⟩
  | @test f hf negated =>
    refine (hretains f hf).imp (fun hfield =>
      ⟨.test (Schema.mem_of_field? hfield) negated, ⟨.boolean, ?_⟩,
      fun base => ?_⟩) fun h => ⟨f.column, ?_, h⟩
    · cases negated <;> rfl
    · cases negated <;> rfl
    · cases negated <;> simp [columns, parts, column?, isNull, isNotNull]
  | @absent flag rows values hflag hrows hvalues hcount hknown outer =>
    by_cases hclash : ∃ f ∈ [flag, rows, values], p.Muddles f.column
    · obtain ⟨f, hf, h⟩ := hclash
      refine .inr ⟨f.column, ?_, h⟩
      simp only [List.mem_cons, List.not_mem_nil, or_false] at hf
      obtain rfl | rfl | rfl := hf <;>
        simp [columns, parts, column?, isNull, isNotNull, Scalar.and, Scalar.or,
          Scalar.eq, Scalar.int]
    · have hfield (f : Field) (hf : f ∈ [flag, rows, values]) (hs : f ∈ s.fields) :
          p.schema.field? f.column = some f :=
        (hretains f hs).resolve_right fun h => hclash ⟨f, hf, h⟩
      have hflag := hfield flag (by simp) hflag
      have hrows := hfield rows (by simp) hrows
      have hvalues := hfield values (by simp) hvalues
      have hcounts := hcount ▸ Schema.dataType_column hrows
      have hknowns := hknown ▸ Schema.dataType_column hvalues
      refine .inl ⟨.absent (Schema.mem_of_field? hflag) (Schema.mem_of_field? hrows)
        (Schema.mem_of_field? hvalues) hcount hknown outer, ⟨.boolean, ?_⟩, fun base => ?_⟩
      · have hnone : ((Scalar.column rows.column).eq (.int 0)).dataType p.schema = .ok .boolean :=
          dataType_binary (r := .int32) hcounts rfl
        have hsame : ((Scalar.column values.column).eq (.column rows.column)).dataType p.schema =
            .ok .boolean := dataType_binary hknowns hcounts
        have hknown : (((Scalar.column values.column).eq (.column rows.column)).and
            (Scalar.column outer).isNotNull).dataType p.schema = .ok .boolean :=
              dataType_binary hsame rfl
        exact dataType_binary (l := .boolean) rfl (dataType_binary (l := .boolean) hnone hknown)
      -- the comparisons are between numbers
      · have hzero : (Scalar.literal (.int32 0)).dataType p.schema = .ok .int32 := rfl
        simp [checkCollations, parts, Scalar.and, Scalar.or, Scalar.eq, isNull, isNotNull,
          Scalar.int, hzero,
          hcounts, hknowns, BinaryOp.isComparison, DataType.isString, DataType.family]

theorem Scalar.Stands.carry {q : Plan} (h : v.Stands p) (hpq : p.Inside q)
    (hretains : ∀ f ∈ p.schema.fields, q.Retains f) : v.Stands q := by
  obtain ⟨hbacked, -, -⟩ | ⟨column, hcolumn, hmuddles⟩ := h
  · exact hbacked.stands hretains
  · exact .inr ⟨column, hcolumn, hmuddles.mono hpq⟩

/-- The fields of some rows are kept, and there is one for a value. -/
def Plan.HandsOn (p : Plan) (r : Plan × String) : Prop :=
  (∀ f ∈ p.schema.fields, r.1.Retains f) ∧ ∃ total ∈ r.1.schema.fields, total.column = .bare r.2

namespace WindowInput

theorem gives_handsOn_partitionAggregate (w : WindowInput) (f : AggregateFunction) :
    Gives (w.partitionAggregate f) w.plan.HandsOn := by
  refine (w.gives_widens_segmented []).bind fun r hplan => .after fun id =>
    .after fun name => .pure ?_
  have hspool := hplan.trans (r.1.widens_spool id .lazy (.segment (some r.2)))
  refine ⟨fun g hg => Plan.retains_of_mem ?_, ?_⟩
  · rw [Plan.fields_join_right _ _ rfl, Plan.fields_loop_inner]
    exact List.mem_append_left _ (List.mem_append_right _ (hspool.fields hg))
  · rw [Plan.fields_join_right _ _ rfl, Plan.fields_loop_inner]
    exact ⟨_, List.mem_append_left _ (List.mem_append_left _ List.mem_cons_self), rfl⟩

theorem gives_handsOn_frameAggregate (w : WindowInput) (f : AggregateFunction) (frame : RowsFrame) :
    Gives (w.frameAggregate f frame) w.plan.HandsOn := by
  refine (w.gives_widens_segmented w.orderBy).bind fun r hplan =>
    .after fun number => .after fun first =>
    .after fun last => .after fun values => .after fun id => .after fun name =>
      .pure ⟨fun g hg => ?_, _, List.mem_append_right _ List.mem_cons_self, rfl⟩
  have hbounded (numbers : List SequenceValue) (bounds : List Definition) :
      g ∈ (Plan.compute (r.1.sequence numbers) bounds).schema.fields :=
    ((hplan.trans (r.1.widens_sequence numbers)).trans (Plan.widens_compute _ bounds)).fields hg
  exact Plan.retains_aggregate (List.mem_append_left _ (hbounded _ _))
    (List.mem_map_of_mem (hbounded _ _))

theorem gives_handsOn_bindAggregate (w : WindowInput) (f : AggregateFunction) (name : String)
    (frame : Option Sql.Frame) : Gives (w.bindAggregate f name frame) w.plan.HandsOn :=
  .check fun _ => .after fun _ =>
    .ite (fun _ => .check fun _ => gives_handsOn_partitionAggregate _ f)
    fun _ => .after fun rows => gives_handsOn_frameAggregate _ f rows

end WindowInput

/-- The names of a block are those of its rows, and so are its values, apart from some old ones. -/
structure Block.Stands (k : Block) (old : List (String × Scalar)) : Prop where
  names : k.scope.schema = k.plan.schema
  computed : ∀ entry ∈ k.scope.computed, entry ∈ old ∨ entry.2.Stands k.plan

namespace Block

variable {k k' : Block} {old : List (String × Scalar)}

theorem Stands.widen (hk : k.Stands old) (h : k.Widens k') (hplan : k.plan.Inside k'.plan) :
    k'.Stands old := by
  refine ⟨h.names hk.names, fun entry hentry => ?_⟩
  obtain hentry | hbacked := h.computed entry hentry
  · refine (hk.computed entry hentry).imp_right (·.carry hplan fun f hf => ?_)
    exact Plan.retains_of_mem (h.rows.fields hf)
  · exact .inr (hbacked.stands fun _ => Plan.retains_of_mem)

theorem Stands.renewed (hk : k.Stands old) : (k.withPlan k.plan).Stands old :=
  hk.widen (.withPlan k (.refl _)) (.refl _)

theorem gives_handsOn_bindWindow (k : Block) (call : Sql.Call Sql.Expr) :
    Gives (k.bindWindow call) k.plan.HandsOn := by
  unfold bindWindow
  split
  · refine .after fun f => .check fun _ => .check fun _ =>
      (k.gives_widens_windowInput call _ _).bind
      fun w hw => .ite (fun _ => .check fun _ => .check fun _ => ?_) fun _ => ?_
    · refine (w.gives_widens_ranking f).mono fun r h => ⟨fun g hg => ?_, _, h.2, rfl⟩
      exact Plan.retains_of_mem (h.1.fields (hw.fields hg))
    · exact (w.gives_handsOn_bindAggregate f _ _).mono fun r h =>
        ⟨fun g hg => h.1 g (hw.fields hg), h.2⟩
  · exact .throw

theorem gives_stands_windows (hk : k.Stands old) (es : List Sql.Expr) :
    Gives (k.windows es) (·.Stands old) := by
  refine .foldlM hk fun k hk call _ =>
    .bind (P := fun r => k.plan.Inside r.1 ∧ k.plan.HandsOn r) ?_ ?_
  · exact fun c s r s' h => ⟨(k.yields_bindWindow call r s' h).1,
      k.gives_handsOn_bindWindow call c s r s' h⟩
  · rintro ⟨plan, name⟩ ⟨hplan, hretains, total, htotal, hname⟩
    refine .pure ⟨rfl, List.forall_mem_cons.2 ⟨.inr ?_, fun entry hentry => ?_⟩⟩
    · exact hname ▸ (Scalar.Backed.column htotal).stands fun _ => Plan.retains_of_mem
    · exact (hk.computed entry hentry).imp_right (·.carry hplan hretains)

theorem gives_stands_group (k : Block) (groupBy : List Sql.Expr)
    (calls : List (Sql.Call Sql.Expr)) :
    Gives (k.group groupBy calls) (·.Stands k.scope.computed) := by
  intro c s
  have hcalls (call : Sql.Call Sql.Expr) (h : call ∈ calls) :
      Sql.ExprOf.call call ∈ calls.map .call :=
    List.mem_map_of_mem h
  refine .bind (.foldlM (fun g s' => g.Defined c k.scope groupBy s s') ⟨.nil (Nat.le_refl _), nofun⟩
    fun g e he s' => GroupKeys.yields_add he _) fun keys s₁ hkeys => ?_
  refine (GroupInput.yields_aggregates hcalls (by simp [GroupInput.Ordered])).bind
    fun r s₂ ⟨hhoisted, _⟩ => .pure ⟨rfl, ?_⟩
  have hscope := Scope.foldl_addComputed
    (keys.computed ++ r.1.map fun x => (x.1, Scalar.column (.bare x.2.name))) k.scope
  have hcomputed := congrArg (fun scope : Scope => scope.computed) hscope
  intro entry hentry
  replace hentry := (congrArg (entry ∈ ·) hcomputed).mp hentry
  simp only [List.mem_append, List.mem_reverse, List.mem_map] at hentry
  obtain (hentry | ⟨x, hx, rfl⟩) | hentry := hentry
  · obtain ⟨-, -, -, d, hd, hv, hcolumn, -⟩ := hkeys.bound entry hentry
    rw [hv]
    have hbacked : (Scalar.column (.bare d.name)).Backed (.ofFields [d.field]) :=
      .column (f := d.field) (by simp)
    refine .inr (hbacked.stands (List.forall_mem_singleton.2 ?_))
    exact Plan.retains_grouped (Plan.mem_fields_define (hhoisted hd)) hcolumn
  · refine .inr (Scalar.Backed.stands (.column (f := Plan.AggregateValue.field x.2) ?_)
      fun _ => Plan.retains_of_mem)
    exact Plan.mem_fields_grouped (List.mem_map_of_mem hx)
  · exact .inl hentry

/-- What an expression was computed to can still be read: binding the expression gives the value,
which has a type. This leaves out old values, and values with a column that is the name of two
fields. -/
def Resolves (k : Block) (old : List (String × Scalar)) : Prop :=
  ∀ e v, k.scope.computed? e = some v → (e.key, v) ∈ old ∨
    (∃ column ∈ v.columns, k.plan.Muddles column) ∨
    v.Backed k.scope.schema ∧ (∃ t, v.dataType k.scope.schema = .ok t) ∧
      ∀ c st, (k.scope.bindChecked e).start c st = (.ok v, st)

theorem Stands.resolves (hk : k.Stands old) : k.Resolves old := by
  intro e v hv
  obtain hold | ⟨hbacked, ⟨t, ht⟩, hcollations⟩ | hmuddles :=
    hk.computed _ (Scope.mem_of_computed? hv)
  · exact .inl hold
  · rw [← hk.names] at hbacked ht hcollations
    refine .inr (.inr ⟨hbacked, ⟨t, ht⟩, fun c st => ?_⟩)
    rw [Scope.bindChecked, start_bind, Scope.start_bind_computed hv]
    simp only [ht, hcollations]
    rfl
  · exact .inr (.inl hmuddles)

end Block

theorem Progress.gives_stands_extend {clause : Block → BindM Block} {p : Progress}
    {old : List (String × Scalar)} (hp : p.block.Stands old)
    (hclause : Gives (clause p.block) (·.Stands old)) :
    Gives (p.extend clause) (·.block.Stands old) :=
  gives_extend hp hclause fun _ h => h.renewed

def Sql.Select.outdated (s : Sql.Select Sql.Query) (tail : QueryTail) (k : Block) :
    List (String × Scalar) :=
  match s.groups tail.exprs with
  | .ok true => k.scope.computed
  | _ => []

namespace QueryBinder

section

variable {b : QueryBinder} (hb : b.IsTame) {k : Block} {p : Progress} {old : List (String × Scalar)}

include hb

theorem gives_stands_subqueries (hk : k.Stands old) (es : List Sql.Expr) :
    Gives (b.subqueries es k) (·.Stands old) := by
  intro c s k' s' h
  have hparts (e : Sql.Expr) (he : e ∈ es) : e.subqueryParts ⊆ es.flatMap (·.subqueryParts) :=
    fun part hpart => List.mem_flatMap.2 ⟨e, he, hpart⟩
  obtain ⟨hgrows, -⟩ := grows_subqueries hb es hparts k k' s' h
  exact hk.widen (b.gives_widens_subqueries es k c s k' s' h) hgrows.plan

theorem gives_stands_restrict (hk : k.Stands old) (condition : Sql.Expr) :
    Gives (b.restrict condition k) (·.Stands old) :=
  (gives_stands_subqueries hb hk [condition]).bind fun k' hk' => .after fun _ =>
    .pure (hk'.widen (.withPlan k' (.refl _)) ((Plan.Inside.refl _).above rfl))

theorem gives_stands_filtering (hp : p.block.Stands old) (s : Sql.Select Sql.Query) :
    Gives (b.filtering s p) (·.block.Stands old) := by
  unfold filtering
  split
  · exact Progress.gives_stands_extend hp (.check fun _ => gives_stands_restrict hb hp _)
  · exact .pure hp

theorem gives_stands_grouping (hp : p.block.Stands []) (s : Sql.Select Sql.Query)
    (tail : QueryTail) :
    Gives (b.grouping s tail p) (·.block.Stands (s.outdated tail p.block)) := by
  refine (Gives.result _).bind fun groups hgroups => ?_
  rw [Sql.Select.outdated, hgroups]
  cases groups with
  | false => exact .pure hp
  | true =>
    refine (p.block.gives_stands_group _ _).attempt.bind fun r hr => ?_
    cases r with
    | error e => exact Progress.gives_abandon _ s tail
    | ok k =>
      have hk := (hr k rfl).renewed
      dsimp only
      split
      · exact Progress.gives_stands_extend hk (gives_stands_restrict hb hk _)
      · exact .pure hk

end

/-- After each clause, what stands for parts of expressions can be read, if it was computed after
rows were grouped or if they are not grouped at all. -/
theorem values_resolve (depth : Nat) (s : Sql.Select Sql.Query) (tail : QueryTail)
    (outer : List Level) : Gives ((ofDepth depth).start s outer) fun k =>
    Gives ((ofDepth depth).filtering s { block := k }) fun p => p.block.Resolves [] ∧
      Gives (p.block.group s.groupBy (s.aggregates tail.exprs))
        (·.Resolves p.block.scope.computed) ∧
      Gives ((ofDepth depth).grouping s tail p) fun p₁ =>
        p₁.block.Resolves (s.outdated tail p.block) ∧
        Gives (p₁.extend ((ofDepth depth).subqueries (s.exprs ++ tail.exprs))) fun p₂ =>
          p₂.block.Resolves (s.outdated tail p.block) ∧
          Gives (p₂.extend fun k => k.windows (s.exprs ++ tail.exprs)) fun p₃ =>
            p₃.block.Resolves (s.outdated tail p.block) := by
  have hb := isTame_ofDepth depth
  have hstart : Gives ((ofDepth depth).start s outer) (·.Stands []) :=
    .after fun _ => .pure ⟨rfl, nofun⟩
  refine hstart.mono fun k hk => (gives_stands_filtering hb hk s).mono fun p hp => ⟨hp.resolves,
    (p.block.gives_stands_group _ _).mono fun _ h => h.resolves,
    (gives_stands_grouping hb hp s tail).mono fun p₁ hp₁ => ⟨hp₁.resolves, ?_⟩⟩
  refine (Progress.gives_stands_extend hp₁ (gives_stands_subqueries hb hp₁ _)).mono
    fun p₂ hp₂ => ⟨hp₂.resolves, ?_⟩
  exact (Progress.gives_stands_extend hp₂ (Block.gives_stands_windows hp₂ _)).mono
    fun _ h => h.resolves

def groupedBlock? (block : Sql.Select Sql.Query × QueryTail) : Option Block :=
  let clauses : BindM Block := do
    let first ← (ofDepth 2).start block.1 []
    let filtered ← (ofDepth 2).filtering block.1 { block := first }
    return (← (ofDepth 2).grouping block.1 block.2 filtered).block
  (clauses.start accounts { session := .empty }).1.toOption

def repeatedSubquery : String :=
  "SELECT COUNT(*), (SELECT MAX(name) FROM account) FROM account WHERE (SELECT MAX(name) " ++
  "FROM account) = 'a' GROUP BY name"

/-- What stands for the subquery has no type above the groups, and so the block has no plan. -/
theorem repeatedSubquery_lost : ((blockOf? repeatedSubquery).bind groupedBlock?).map (fun k =>
      k.scope.computed.map fun entry =>
        (entry.1, entry.2.text, (entry.2.dataType k.scope.schema).toOption)) =
    some [("count(*)", "Expr3", some .int32), ("(select max(name) from account)", "Expr2", none)] ∧
    ((blockOf? repeatedSubquery).bind accountPlan?).isNone := by
  decide +kernel

end QueryBinder

end BatchPlan
