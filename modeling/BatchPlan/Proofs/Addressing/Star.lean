import BatchPlan.Proofs.Addressing.Visible
import BatchPlan.Proofs.Substitution.Blocks

namespace BatchPlan

open BindM

variable {rest : List (Sql.SelectItem Sql.Query)} {s : Sql.Select Sql.Query} {f : Field}
  {tables : List String} {outer : List Level} {c : BindContext} {q : QueryPlan} {k : Block}

def Field.output (f : Field) : OutputColumn := ⟨f.name, f.column⟩

/-- The columns of a star, table by table. -/
def starFields (tables : List String) (fields : List Field) : List Field :=
  tables.flatMap fun table => fields.filter fun f => f.relation.any (Text.sameAscii · table)

theorem Schema.candidates_congr {s : Schema} {c d : Column}
    (hrelation : c.relation.isSome = d.relation.isSome)
    (htext : Text.lower c.text = Text.lower d.text) : s.candidates c = s.candidates d := by
  rw [candidates, candidates, hrelation, htext]

namespace Scope

variable (s : Scope)

/-- A column that is looked up is the column of a field, or stands for a parameter. -/
theorem gives_resolve (c : Column) : Gives (s.resolve c) fun e => ∀ d, e = .column d →
    ∃ i f, s.schema.candidates c = [(i, f)] ∧ d = f.column := by
  refine (Gives.result _).bind fun found hfound => ?_
  split
  next i f =>
    exact .pure fun d hd => ⟨i, f, Schema.find?_eq_some.1 hfound, by cases hd; rfl⟩
  · refine .after fun owner => ?_
    split
    · exact (BindM.gives_capture _ _ _).mono fun e he d hd => absurd hd (he d)
    · exact .throw

theorem gives_bindStarColumn {table : String} (hf : f ∈ s.schema.fields)
    (htable : f.relation.any (Text.sameAscii · table)) :
    Gives (s.bindStarColumn table f) fun o => o = f.output ∧ s.schema.contains f.column := by
  obtain ⟨r, hr, hsame⟩ := (Option.any_eq_true ..).1 htable
  have hcandidates : s.schema.candidates f.column =
      s.schema.candidates (.qualified table f.name) := by
    apply Schema.candidates_congr
    · simp [Field.column, hr, Column.qualified]
    · have htexts := Text.lower_eq_of_sameAscii
        (Text.sameAscii_append hsame (Text.sameAscii_refl ("." ++ f.name)))
      simpa [Field.column, hr, Column.qualified, Column.text, String.append_assoc] using htexts
  refine (s.gives_resolve _).bind fun e he => ?_
  split
  next source =>
    obtain ⟨i, g, hg, rfl⟩ := he source rfl
    have hcontains : s.schema.contains f.column :=
      Schema.contains_iff.2 ⟨i, g, hcandidates.trans hg⟩
    have hfg := Schema.field?_column hf hcontains
    rw [Schema.field?, hcandidates, hg] at hfg
    cases hfg
    exact .pure ⟨rfl, hcontains⟩
  · exact .throw
  · exact .throw

/-- A star that can be bound has the visible fields of a table, and each of them is found. -/
theorem gives_bindStar_fields (hs : s.preAggregate = none) (table : String) :
    Gives (s.bindStar table) fun outputs =>
      outputs = (s.schema.visibleFields (some table)).map Field.output ∧
        ∀ f ∈ s.schema.visibleFields (some table), s.schema.contains f.column := by
  have hschema : s.starSchema = s.schema := by simp [Level.starSchema, hs]
  unfold bindStar
  rw [hschema]
  refine (Gives.mapM (S := fun f o => o = f.output ∧ s.schema.contains f.column)
    fun f hf => ?_).mono fun outputs houtputs => ?_
  · obtain ⟨hmem, hvisible⟩ := List.mem_filter.1 hf
    rw [Bool.and_eq_true] at hvisible
    exact s.gives_bindStarColumn hmem hvisible.2
  · generalize s.schema.visibleFields (some table) = fields at houtputs
    induction houtputs with
    | nil => simp
    | cons hf _ ih =>
      rw [hf.1, ih.1]
      exact ⟨rfl, List.forall_mem_cons.2 ⟨hf.2, ih.2⟩⟩

theorem gives_bindItem_star (hs : s.preAggregate = none) :
    Gives (s.bindItem .star) fun r =>
      r.2 = (s.tables.flatMap fun table => s.schema.visibleFields (some table)).map Field.output ∧
        ∀ table ∈ s.tables, ∀ f ∈ s.schema.visibleFields (some table),
          s.schema.contains f.column := by
  refine .check fun _ => (Gives.mapM fun table _ => s.gives_bindStar_fields hs table).bind
    fun outputs houtputs => .pure ?_
  generalize s.tables = tables at houtputs
  induction houtputs with
  | nil => simp
  | cons htable _ ih =>
    refine ⟨?_, List.forall_mem_cons.2 ⟨htable.2, ih.2⟩⟩
    rw [List.flatMap_cons, List.map_append, ← ih.1, ← htable.1]
    rfl

theorem gives_bindItems_star (hs : s.preAggregate = none) (rest : List (Sql.SelectItem Sql.Query)) :
    Gives (s.bindItems (.star :: rest)) fun r =>
      (∃ others : List (List OutputColumn), others.length = rest.length ∧ r.2 =
        (s.tables.flatMap fun table => s.schema.visibleFields (some table)).map Field.output ++
          others.flatten) ∧
        ∀ table ∈ s.tables, ∀ f ∈ s.schema.visibleFields (some table),
          s.schema.contains f.column := by
  unfold bindItems
  rw [List.mapM_cons, bind_assoc]
  refine (s.gives_bindItem_star hs).bind fun first hfirst => ?_
  obtain ⟨houtputs, hfound⟩ := hfirst
  rw [bind_assoc]
  refine (Gives.mapM fun item _ => Gives.any (x := s.bindItem item)).bind fun bound hbound => ?_
  rw [pure_bind]
  refine .pure ⟨⟨bound.map (·.2), ?_, ?_⟩, hfound⟩
  · rw [List.length_map, hbound.length_eq]
  · rw [← houtputs, ← List.flatMap_def]
    rfl

end Scope

def Block.star (k : Block) : List Field :=
  k.scope.tables.flatMap fun table => k.plan.schema.visibleFields (some table)

theorem Block.star_eq (k : Block) :
    k.star = starFields k.scope.tables (k.plan.schema.shown k.scope.tables) := by
  rw [star, starFields, List.flatMap_def, List.flatMap_def]
  exact congrArg List.flatten (List.map_congr_left fun table ht => Schema.visibleFields_eq ht)

namespace QueryBinder

variable (b : QueryBinder) {s : Sql.Select Sql.Query} {tail : QueryTail} {p : Progress}
  {tables : List String} {fields : List Field}

theorem gives_project_star (hs : s.items = .star :: rest) (hp : p.block.Exposes tables fields)
    (tail : QueryTail) :
    Gives (project p s tail) fun r => r.1.block.Exposes tables fields ∧
      ∃ others : List (List OutputColumn), others.length = rest.length ∧
        r.2 = (starFields tables fields).map Field.output ++ others.flatten := by
  unfold project
  rw [hs]
  refine (p.block.scope.gives_bindItems_star hp.preAggregate rest).attempt.bind
    fun bound hbound => ?_
  split
  next values outputs =>
    obtain ⟨⟨others, hlength, houtputs⟩, -⟩ := hbound (values, outputs) rfl
    refine .pure ⟨hp.widen (.withPlan _ (p.block.plan.widens_define values)), others, hlength, ?_⟩
    have hstar := p.block.star_eq
    rw [hp.tables, hp.rows.shown] at hstar
    rw [houtputs, hp.names, ← hstar]
    rfl
  · exact .after fun _ => Progress.gives_abandon _ s tail

theorem gives_project_found (hs : s.items = [.star]) (hp : p.block.scope.preAggregate = none)
    (tail : QueryTail) :
    Gives (project p s tail) fun _ => ∀ table ∈ p.block.scope.tables,
      ∀ f ∈ p.block.scope.schema.visibleFields (some table),
        p.block.scope.schema.contains f.column := by
  unfold project
  rw [hs]
  refine (p.block.scope.gives_bindItems_star hp []).attempt.bind fun bound hbound => ?_
  split
  next values outputs => exact .pure (hbound (values, outputs) rfl).2
  · exact .after fun _ => Progress.gives_abandon _ s tail

theorem gives_exposes_filtering (hp : p.block.Exposes tables fields) :
    Gives (b.filtering s p) (·.block.Exposes tables fields) := by
  unfold filtering
  split
  · exact Progress.gives_widens_extend hp (.check fun _ =>
      (b.gives_widens_restrict _ p.block).mono fun _ h => hp.widen h)
  · exact .pure hp

theorem gives_grouping_of_not (hgroups : s.groups tail.exprs = .ok false) (p : Progress) :
    Gives (b.grouping s tail p) (· = p) := by
  unfold grouping
  rw [hgroups]
  refine (Gives.result (.ok false)).bind fun groups h => ?_
  cases h
  exact .pure rfl

theorem gives_exposes_ordering (hp : p.block.Exposes tables fields) (tail : QueryTail)
    (outputs : List OutputColumn) (distinct : Bool) :
    Gives (ordering p tail outputs distinct) (·.block.Exposes tables fields) :=
  .ite (fun _ => .pure hp) fun _ => Progress.gives_widens_extend hp
    ((p.block.gives_widens_orderBy _ _ _).mono fun _ h => hp.widen h)

/-- What the clauses of a block put on top of its sources leaves the star as it is. -/
theorem yields_block_star (hitems : s.items = .star :: rest)
    (hgroups : s.groups tail.exprs = .ok false)
    (hdistinct : s.distinct.any Sql.Distinct.isRows = false) {st st' : BindState}
    (hstart : (b.start s outer).start c st = (.ok k, st')) (hk : k.Exposes tables fields) :
    Yields (b.block s tail outer) c st fun q _ => q.root.schema.Exposes tables fields ∧
      ∃ others : List (List OutputColumn), others.length = rest.length ∧
        q.columns = (starFields tables fields).map Field.output ++ others.flatten := by
  refine Yields.bind (P := fun k' _ => k' = k) (fun k' st₁ h => ?_) fun k' st₁ hk' => ?_
  · rw [hstart] at h
    cases h
    rfl
  subst hk'
  refine Gives.bind (b.gives_exposes_filtering hk) (fun p hp => ?_) c st₁
  refine (b.gives_grouping_of_not hgroups p).bind fun p' hp' => ?_
  subst hp'
  refine (Progress.gives_widens_extend hp
    ((b.gives_widens_subqueries _ _).mono fun _ h => hp.widen h)).bind fun p₁ hp₁ => ?_
  refine (Progress.gives_widens_extend hp₁ (Block.gives_exposes_windows hp₁ _)).bind
    fun p₂ hp₂ => ?_
  refine (gives_project_star hitems hp₂ tail).bind fun r hr => ?_
  obtain ⟨p₃, outputs⟩ := r
  obtain ⟨hp₃, houtputs⟩ := hr
  dsimp only
  rw [hdistinct]
  refine (gives_exposes_ordering hp₃ tail outputs false).bind fun p₄ hp₄ => ?_
  refine (Progress.gives_widens_extend hp₄
    ((Block.gives_widens_limitRows _ s tail).mono fun _ h => hp₄.widen h)).bind fun p₅ hp₅ => ?_
  exact .after fun _ => .pure ⟨hp₅.rows, houtputs⟩

end QueryBinder

def Sql.Select.everything (sources : List (Sql.Source Sql.Query)) : Sql.Select Sql.Query where
  distinct := none
  top := none
  items := [.star]
  into := none
  sources := sources
  lateralViews := []
  condition := none
  groupByAll := false
  groupBy := []
  clusterBy := []
  distributeBy := []
  sortBy := []
  having := none
  windows := []
  qualify := none
  windowsFirst := false
  hierarchy := none

theorem Schema.exists_of_mem_shown {s : Schema} (hf : f ∈ s.shown tables) :
    ∃ table ∈ tables, f ∈ s.visibleFields (some table) := by
  obtain ⟨hmem, hshown⟩ := List.mem_filter.1 hf
  rw [Bool.and_eq_true] at hshown
  obtain ⟨r, hr, htables⟩ := (Option.any_eq_true ..).1 hshown.2
  obtain ⟨table, htable, hsame⟩ := List.any_eq_true.1 htables
  refine ⟨table, htable, List.mem_filter.2 ⟨hmem, ?_⟩⟩
  simp [hshown.1, hr, hsame]

namespace QueryBinder

variable (b : QueryBinder) {outer : List Level} {c : BindContext} {st st' : BindState} {k : Block}

theorem yields_block_everything {sources : List (Sql.Source Sql.Query)}
    (hstart : (b.start (.everything sources) outer).start c st = (.ok k, st'))
    (hnames : k.scope.schema = k.plan.schema) (hgrouped : k.scope.preAggregate = none) :
    Yields (b.block (.everything sources) {} outer) c st fun _ _ =>
      k.Exposes k.scope.tables (k.plan.schema.shown k.scope.tables) := by
  refine Yields.bind (P := fun k' _ => k' = k) (fun k' st₁ h => ?_) fun k' st₁ hk' => ?_
  · rw [hstart] at h
    cases h
    rfl
  subst hk'
  refine (?_ : Gives _ _) c st₁
  have hfresh (k₁ : Block) (h : k'.Widens k₁) : k'.Widens (k₁.withPlan k₁.plan) :=
    h.trans (.withPlan k₁ (.refl _))
  refine Gives.bind (P := (·.block = k')) (.pure rfl) fun p hp => ?_
  refine (b.gives_grouping_of_not rfl p).bind fun p' hp' => ?_
  subst hp'
  refine (Progress.gives_extend (P := k'.Widens) (hp ▸ .refl _)
    (hp ▸ b.gives_widens_subqueries _ _) hfresh).bind fun p₁ hp₁ => ?_
  refine (Progress.gives_extend hp₁ (.pure hp₁) hfresh).bind fun p₂ hp₂ => ?_
  refine (gives_project_found rfl (hp₂.preAggregate.trans hgrouped) {}).bind fun r hfound => ?_
  refine Gives.any.mono fun _ _ => ⟨⟨rfl, fun f hf => ?_⟩, rfl, hgrouped, hnames⟩
  -- the rows that the star is bound in have the sources of the first ones
  have hsources := hp₂.rows.sources
  rw [hp₂.names hnames, hp₂.tables] at hfound
  have hqualified : f.column.relation.isSome := by
    rw [Schema.shown_eq] at hf
    exact (Schema.mem_sources.1 (List.mem_of_mem_filter hf)).2
  rw [Schema.shown_eq, ← hsources, ← Schema.shown_eq] at hf
  obtain ⟨table, htable, hvisible⟩ := Schema.exists_of_mem_shown hf
  rw [← Schema.contains_congr hsources hqualified]
  exact hfound table htable f hvisible

end QueryBinder

/-- The visible fields of a source are those of its tables. -/
def Plan.Lists (p : Plan) (tables : List String) : Prop :=
  ∀ f ∈ p.schema.fields, f.visible → ∃ table ∈ tables, f.relation = some table

namespace Plan.Lists

variable {p left right : Plan} {tables tables' : List String}

theorem mono (h : p.Lists tables) (hsubset : tables ⊆ tables') : p.Lists tables' := by
  intro f hf hvisible
  obtain ⟨table, htable, hrelation⟩ := h f hf hvisible
  exact ⟨table, hsubset htable, hrelation⟩

theorem define (h : p.Lists tables) (values : List Definition) :
    (p.define values).Lists tables := by
  unfold Plan.define
  split
  · exact h
  · intro f hf hvisible
    obtain hf | hf := List.mem_append.1 hf
    · exact h f hf hvisible
    · obtain ⟨d, -, rfl⟩ := List.mem_map.1 hf
      cases hvisible

theorem ordered (h : p.Lists tables) (keys : List SortKey) : (p.ordered keys).Lists tables := by
  unfold Plan.ordered
  split <;> exact h

theorem kept {q : Plan} (h : p.Lists tables) (hq : p.Kept q) : q.Lists tables := by
  obtain rfl | ⟨id, rfl⟩ := hq
  · exact h
  · intro f hf
    have hmem : f ∈ p.schema.fields := by
      simpa [schema, spoolSchema, Schema.ofFields, Schema.withPrimaryKey] using hf
    exact h f hmem

theorem join (hleft : left.Lists tables) (hright : right.Lists tables') {j : JoinSpec}
    (hj : j.output = .both) : (Plan.join left right j).Lists (tables ++ tables') := by
  intro f hf hvisible
  rw [fields_join_both left right hj, List.append_assoc, List.mem_append, List.mem_append] at hf
  rcases hf with hf | hf | hf
  · obtain ⟨g, hg, rfl⟩ := List.mem_map.1 hf
    obtain ⟨table, htable, hrelation⟩ := hleft g hg hvisible
    exact ⟨table, List.mem_append_left _ htable, hrelation⟩
  · obtain ⟨g, hg, rfl⟩ := List.mem_map.1 hf
    obtain ⟨table, htable, hrelation⟩ := hright g hg hvisible
    exact ⟨table, List.mem_append_right _ htable, hrelation⟩
  · obtain ⟨d, -, rfl⟩ := List.mem_map.1 hf
    cases hvisible

theorem keyJoin (hleft : left.Lists tables) (hright : right.Lists tables')
    (leftKey rightKey : Column) (type : JoinType) (residue : List Scalar) :
    (left.keyJoin right leftKey rightKey type residue).Lists (tables ++ tables') := by
  unfold Plan.keyJoin
  dsimp only
  generalize (left.schema.isPrimaryKey leftKey || right.schema.isPrimaryKey rightKey) = isMerge
  have hl : (if isMerge then left.ordered [⟨leftKey, .asc⟩] else left).Lists tables := by
    split
    · exact hleft.ordered _
    · exact hleft
  have hr : (if isMerge then right.ordered [⟨rightKey, .asc⟩] else right).Lists tables' := by
    split
    · exact hright.ordered _
    · exact hright
  split
  · split
    · exact hl.join hr rfl
    · exact hl.join hr rfl
  · exact hl.join hr rfl

theorem gives_withColumn (h : p.Lists tables) (e : Scalar) :
    Gives (p.withColumn e) (·.1.Lists tables) :=
  .after fun r => .pure (h.define r.2.toList)

theorem gives_joined (hleft : left.Lists tables) (hright : right.Lists tables') (type : JoinType)
    (condition : Option Scalar) :
    Gives (left.joined right type condition) (·.Lists (tables ++ tables')) := by
  unfold joined
  dsimp only
  split
  · exact .check fun _ => right.gives_spooled.bind fun _ hkept =>
      .pure (hleft.join (hright.kept hkept) rfl)
  · refine .after fun _ => .after fun _ => (hleft.gives_withColumn _).bind fun _ hl =>
      (hright.gives_withColumn _).bind fun _ hr => .pure ?_
    exact hl.keyJoin hr _ _ _ _

end Plan.Lists

def Relation.Lists (r : Relation) : Prop :=
  r.plan.Lists r.tables

namespace Relation.Lists

theorem named {relation : String} {names : List String} {r : Relation}
    (h : q.named relation names = .ok r) : r.Lists := by
  obtain ⟨-, h⟩ := Result.of_check h
  obtain ⟨columns, -, h⟩ := Result.exists_of_bind h
  cases h
  intro f hf _
  refine ⟨relation, List.mem_singleton_self _, ?_⟩
  obtain ⟨entry, -, rfl⟩ := List.mem_map.1 hf
  rfl

theorem gives_namedTable (b : QueryBinder) (name : Sql.ObjectName)
    (tableAlias : Option Sql.TableAlias) : Gives (b.namedTable name tableAlias) Relation.Lists := by
  refine .after fun found => ?_
  split
  · exact .lift fun r hr => named hr
  · refine .check fun _ => Gives.bind (P := fun scan => scan.relation =
      (tableAlias.map (·.name.value)).getD name.base) ?_ fun scan hscan => .pure fun f hf _ => ?_
    · refine .ite (fun _ => .after fun _ => .pure rfl) fun _ => ?_
      split
      · exact .throw
      · exact .after fun _ => .after fun _ => .after fun _ => .pure rfl
    · obtain ⟨column, -, rfl⟩ := List.mem_map.1 hf
      exact ⟨_, List.mem_singleton_self _, congrArg some hscan⟩

theorem gives_bindTableCall (name : Sql.ObjectName) (args : List (Sql.Argument Sql.Expr))
    (tableAlias : Option Sql.TableAlias) (levels : List Level) :
    Gives (bindTableCall name args tableAlias levels) Relation.Lists := by
  unfold bindTableCall
  dsimp only
  split
  · exact .throw
  · refine .after fun _ => .after fun _ => .after fun _ => .after fun _ => .pure fun f hf _ => ?_
    obtain ⟨column, -, rfl⟩ := List.mem_map.1 hf
    exact ⟨_, List.mem_singleton_self _, rfl⟩

variable {left right : Relation} (hleft : left.Lists) (hright : right.Lists)

include hleft hright

theorem gives_cross : Gives (left.cross right) Relation.Lists :=
  right.plan.gives_spooled.bind fun _ hkept => .pure (hleft.join (hright.kept hkept) rfl)

theorem gives_apply (type : JoinType) (captured : List Captured) :
    Gives (left.apply right type captured) Relation.Lists := by
  refine .ite (fun _ => ?_) fun _ => .pure (hleft.join hright rfl)
  exact right.plan.gives_spooled.bind fun _ hkept => .pure (hleft.join (hright.kept hkept) rfl)

theorem gives_joinOn (type : JoinType) (condition : Option Sql.Expr) (levels : List Level) :
    Gives (left.joinOn right type condition levels) Relation.Lists := by
  unfold joinOn
  dsimp only
  refine .after fun predicate => ?_
  split
  -- a right outer join has its sides the other way round
  · refine (Plan.Lists.gives_joined hright hleft _ predicate).bind fun plan hplan => .pure ?_
    exact hplan.mono (List.append_subset.2
      ⟨List.subset_append_right _ _, List.subset_append_left _ _⟩)
  · exact (Plan.Lists.gives_joined hleft hright _ predicate).bind fun plan hplan => .pure hplan

end Relation.Lists

namespace QueryBinder

variable (b : QueryBinder)

theorem gives_lists_source : ∀ (s : Sql.Source Sql.Query) (levels : List Level),
    Gives (b.source levels s) Relation.Lists
  | .table name args tableAlias _, levels => by
    unfold source
    split
    · exact Relation.Lists.gives_bindTableCall name _ tableAlias levels
    · exact Relation.Lists.gives_namedTable b name tableAlias
  | .derived _ query tableAlias, levels => by
    unfold source
    split
    · exact .throw
    · exact .after fun _ => .after fun _ => .lift fun r hr => Relation.Lists.named hr
  | .nested inner tableAlias, levels =>
    .ite (fun _ => .throw) fun _ => gives_lists_source inner levels
  | .join left kind right form condition, levels => by
    refine (gives_lists_source left levels).bind fun left hleft => ?_
    have happlied (type : JoinType) : Gives (do
        let r ← BindM.enclosed (b.source ({ schema := left.plan.schema } :: levels) right)
        left.apply r.1 type r.2 : BindM Relation) Relation.Lists :=
      (Gives.enclosed (gives_lists_source right _)).bind fun _ hright =>
        hleft.gives_apply hright type _
    have hjoined (type : JoinType) : Gives (do
        checkConstraint form.constraint condition
        left.joinOn (← b.source levels right) type condition levels :
          BindM Relation) Relation.Lists :=
      .after fun _ => (gives_lists_source right levels).bind fun _ hright =>
        hleft.gives_joinOn hright type condition levels
    cases kind with
    | inner => exact hjoined .inner
    | left => exact hjoined .leftOuter
    | right => exact hjoined .rightOuter
    | full => exact hjoined .fullOuter
    | cross => exact (gives_lists_source right levels).bind fun _ hright => hleft.gives_cross hright
    | crossApply => exact happlied .inner
    | outerApply => exact happlied .leftOuter
    | leftSemi | rightSemi | leftAnti | rightAnti | nearest _ => exact .throw
  | .other form, levels => .throw

theorem gives_lists_sources (levels : List Level) (ss : List (Sql.Source Sql.Query)) :
    Gives (b.sources levels ss) Relation.Lists := by
  cases ss with
  | nil => exact .pure fun f hf => by cases hf
  | cons first rest =>
    refine (b.gives_lists_source first levels).bind fun left hleft => ?_
    exact .foldlM hleft fun left hleft s _ => (b.gives_lists_source s levels).bind
      fun right hright => hleft.gives_cross hright

theorem gives_lists_start (s : Sql.Select Sql.Query) (outer : List Level) :
    Gives (b.start s outer) fun k => k.plan.Lists k.scope.tables ∧
      k.scope.schema = k.plan.schema ∧ k.scope.preAggregate = none :=
  (b.gives_lists_sources _ _).bind fun _ h => .pure ⟨h, rfl, rfl⟩

theorem start_block_of_select {tail : QueryTail} {st st' : BindState} {q : BoundQuery}
    (h : (b.select s tail outer).start c st = (.ok q, st')) :
    ∃ st'', (b.block s tail outer).start c { st with captured := [] :: st.captured } =
      (.ok q.plan, st'') := by
  have hselect : Yields (b.select s tail outer) c st fun q _ => ∃ st'',
      (b.block s tail outer).start c { st with captured := [] :: st.captured } =
        (.ok q.plan, st'') := by
    refine Yields.bind (P := fun _ st₁ => st₁ = st) (.lift fun _ _ => rfl) fun _ st₁ hst => ?_
    subst hst
    refine Yields.bind (P := fun _ st₂ => st₂ = st₁) ?_ fun _ st₂ hst => ?_
    · exact (Yields.read (Q := fun _ st₂ => st₂ = st₁) rfl).bind fun _ _ hst => hst ▸
        .ite (fun _ => .throw) fun _ => .pure rfl
    subst hst
    exact (Yields.enclosed fun plan st₃ hplan => ⟨st₃, hplan⟩).bind fun _ _ h => .pure h
  exact hselect q st' h

end QueryBinder

def Field.outputField (f : Field) : OutputField := ⟨f.name, f.dataType, f.nullable⟩

theorem Block.mem_star (h : k.plan.Lists k.scope.tables) :
    f ∈ k.star ↔ f ∈ k.plan.schema.fields ∧ f.visible := by
  simp only [star, List.mem_flatMap, Schema.visibleFields, List.mem_filter, Bool.and_eq_true]
  constructor
  · rintro ⟨table, -, hf, hvisible, -⟩
    exact ⟨hf, hvisible⟩
  · rintro ⟨hf, hvisible⟩
    obtain ⟨table, htable, hrelation⟩ := h f hf hvisible
    exact ⟨table, htable, hf, hvisible, by simp [hrelation, Text.sameAscii_refl]⟩

/-- The fields of a star keep their names, types and nullability in what a query returns. -/
theorem QueryPlan.outputFields_of_star {fields : List Field}
    (hq : q.root.schema.Exposes tables fields) {others : List OutputColumn}
    (hcolumns : q.columns = (starFields tables fields).map Field.output ++ others) :
    q.outputFields.take (starFields tables fields).length =
      (starFields tables fields).map Field.outputField := by
  have hfields : ∀ f ∈ starFields tables fields, q.root.schema.field? f.output.source = some f := by
    intro f hf
    obtain ⟨table, -, hf⟩ := List.mem_flatMap.1 hf
    exact hq.field?_column (List.mem_of_mem_filter hf)
  rw [outputFields, hcolumns, List.map_append, List.take_left' (by simp), List.map_map]
  refine List.map_congr_left fun f hf => ?_
  rw [Function.comp_apply, hfields f hf]
  rfl

namespace QueryBinder

/-- A star stands for the columns of the sources. Whatever a block does with its rows, it returns
the same columns first as a query of nothing but its sources: each visible field once for its table,
with its type and nullability, and no other column. -/
theorem star_reads_sources (b : QueryBinder) {s : Sql.Select Sql.Query}
    {rest : List (Sql.SelectItem Sql.Query)} {tail : QueryTail} {outer : List Level}
    {c : BindContext}
    {st st₀ st₁ : BindState} {all q : BoundQuery} (hitems : s.items = .star :: rest)
    (hgroups : s.groups tail.exprs = .ok false)
    (hdistinct : s.distinct.any Sql.Distinct.isRows = false)
    (hall : (b.select (.everything s.sources) {} outer).start c st = (.ok all, st₀))
    (hq : (b.select s tail outer).start c st = (.ok q, st₁)) :
    q.plan.columns.take all.plan.columns.length = all.plan.columns ∧
    q.plan.outputFields.take all.plan.columns.length = all.plan.outputFields ∧
    ∃ k st', (b.start s outer).start c { st with captured := [] :: st.captured } = (.ok k, st') ∧
      all.plan.columns = k.star.map Field.output ∧
      all.plan.outputFields = k.star.map Field.outputField ∧
      ∀ f, f ∈ k.star ↔ f ∈ k.plan.schema.fields ∧ f.visible := by
  obtain ⟨st₂, hall⟩ := b.start_block_of_select hall
  obtain ⟨st₃, hq⟩ := b.start_block_of_select hq
  obtain ⟨k, st', hstart, -⟩ := exists_of_start_bind hq
  obtain ⟨hlists, hnames, hgrouped⟩ := b.gives_lists_start s outer _ _ k st' hstart
  -- both blocks begin with the same rows
  have hsame : (b.start (.everything s.sources) outer).start c
      { st with captured := [] :: st.captured } = (.ok k, st') := hstart
  have hk := b.yields_block_everything hsame hnames hgrouped _ _ hall
  obtain ⟨hallRows, others₀, hnone, hallColumns⟩ :=
    b.yields_block_star rfl rfl rfl hsame hk _ _ hall
  obtain ⟨hqRows, others, -, hqColumns⟩ :=
    b.yields_block_star hitems hgroups hdistinct hstart hk _ _ hq
  obtain rfl : others₀ = [] := List.length_eq_zero_iff.1 hnone
  have hallFields := QueryPlan.outputFields_of_star hallRows hallColumns
  have hqFields := QueryPlan.outputFields_of_star hqRows hqColumns
  rw [← k.star_eq] at hallFields hqFields hallColumns hqColumns
  rw [List.flatten_nil, List.append_nil] at hallColumns
  have hlength : all.plan.columns.length = k.star.length := by rw [hallColumns, List.length_map]
  have hcount : all.plan.outputFields.length = k.star.length := by
    rw [QueryPlan.outputFields, List.length_map, hlength]
  rw [List.take_of_length_le (Nat.le_of_eq hcount)] at hallFields
  refine ⟨?_, ?_, k, st', hstart, hallColumns, hallFields, fun f => Block.mem_star hlists⟩
  · rw [hlength, hqColumns, hallColumns]
    exact List.take_left' (List.length_map _)
  · rw [hlength, hqFields, hallFields]

def afterStar? (s : Sql.Select Sql.Query) : Option (List (Sql.SelectItem Sql.Query)) :=
  match s.items with
  | .star :: rest => some rest
  | _ => none

theorem items_of_afterStar? (h : afterStar? s = some rest) : s.items = .star :: rest := by
  unfold afterStar? at h
  split at h
  · cases h
    assumption
  · cases h

def joinedAccounts : String :=
  "SELECT *, (SELECT MAX(b.name) FROM account b) AS m FROM account a RIGHT JOIN account n ON " ++
  "a.name = n.name WHERE a.name IN (SELECT c.name FROM account c) ORDER BY m"

theorem joinedAccounts_star : ∃ (s : Sql.Select Sql.Query) (tail : QueryTail)
      (rest : List (Sql.SelectItem Sql.Query)) (all q : BoundQuery) (st₀ st₁ : BindState),
    blockOf? joinedAccounts = some (s, tail) ∧ s.items = .star :: rest ∧
    s.groups tail.exprs = .ok false ∧ s.distinct.any Sql.Distinct.isRows = false ∧
    ((ofDepth 3).select (.everything s.sources) {} []).start accounts { session := .empty } =
      (.ok all, st₀) ∧
    ((ofDepth 3).select s tail []).start accounts { session := .empty } = (.ok q, st₁) ∧
    q.plan.columns.take all.plan.columns.length = all.plan.columns ∧
    q.plan.outputFields.take all.plan.columns.length = all.plan.outputFields ∧
    ∃ k st', ((ofDepth 3).start s []).start accounts { session := .empty, captured := [[]] } =
      (.ok k, st') ∧ all.plan.columns = k.star.map Field.output ∧
      all.plan.outputFields = k.star.map Field.outputField ∧
      ∀ f, f ∈ k.star ↔ f ∈ k.plan.schema.fields ∧ f.visible := by
  have h : (blockOf? joinedAccounts).any fun block => (afterStar? block.1).any fun _ =>
      ((block.1.groups block.2.exprs).toOption == some false) &&
        !block.1.distinct.any Sql.Distinct.isRows &&
        (((ofDepth 3).select (.everything block.1.sources) {} []).start accounts
          { session := .empty }).1.toOption.isSome &&
        (((ofDepth 3).select block.1 block.2 []).start accounts
          { session := .empty }).1.toOption.isSome := by
    decide +kernel
  obtain ⟨⟨s, tail⟩, hblock, h⟩ := (Option.any_eq_true ..).1 h
  obtain ⟨rest, hrest, h⟩ := (Option.any_eq_true ..).1 h
  simp only [Bool.and_eq_true, Bool.not_eq_true', beq_iff_eq] at h
  obtain ⟨⟨⟨hgroups, hdistinct⟩, hall⟩, hq⟩ := h
  have hitems := items_of_afterStar? hrest
  have hgroups : s.groups tail.exprs = .ok false := by
    cases hresult : s.groups tail.exprs with
    | error e => simp [hresult, Except.toOption] at hgroups
    | ok groups => simpa [hresult, Except.toOption] using hgroups
  have hall := start_eq_value hall
  have hq := start_eq_value hq
  exact ⟨s, tail, rest, _, _, _, _, hblock, hitems, hgroups, hdistinct, hall, hq,
    star_reads_sources (ofDepth 3) hitems hgroups hdistinct hall hq⟩

end QueryBinder

end BatchPlan
