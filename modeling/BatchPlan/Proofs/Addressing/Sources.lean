import BatchPlan.Proofs.WellFormed.Plans

namespace BatchPlan

namespace Schema

variable {c : Column} {more : List Field}

def sources (s : Schema) : List Field :=
  s.fields.filter (·.relation.isSome)

theorem fields_candidates (s : Schema) (hc : c.relation.isSome) :
    (s.candidates c).map (·.2) =
      s.sources.filter fun f => Text.lower f.column.text == Text.lower c.text := by
  have hindex (fields : List Field) (start : Nat) :
      ((fields.zipIdx start).filterMap fun entry =>
        if entry.1.answersTo c.relation.isSome (Text.lower c.text) then some (entry.2, entry.1)
          else none).map (·.2) =
      (fields.filter (·.relation.isSome)).filter fun f =>
        Text.lower f.column.text == Text.lower c.text := by
    induction fields generalizing start with
    | nil => rfl
    | cons f rest ih =>
      have hanswers : f.answersTo c.relation.isSome (Text.lower c.text) =
          (f.relation.isSome && Text.lower f.column.text == Text.lower c.text) := by
        simp [Field.answersTo, hc]
      have hrest := ih (start + 1)
      rw [List.zipIdx_cons, List.filterMap_cons, List.filter_cons]
      cases hf : f.relation.isSome with
      | false => simpa [hanswers, hf] using hrest
      | true =>
        by_cases htext : Text.lower f.column.text = Text.lower c.text
        · simpa [hanswers, hf, htext] using hrest
        · simpa [hanswers, hf, htext] using hrest
  exact hindex s.fields 0

theorem filter_unnamed (h : ∀ f ∈ more, f.relation = none) :
    more.filter (·.relation.isSome) = [] := by
  rw [List.filter_eq_nil_iff]
  intro f hf
  simp [h f hf]

end Schema

variable {j : JoinSpec}

namespace Schema

variable {s t u a b : Schema} {c : Column} {f : Field} {more : List Field}

theorem mem_sources : f ∈ s.sources ↔ f ∈ s.fields ∧ f.relation.isSome := by
  simp [sources]

theorem field?_eq_some_iff (hc : c.relation.isSome) : s.field? c = some f ↔
    s.sources.filter (fun f => Text.lower f.column.text == Text.lower c.text) = [f] := by
  rw [field?_eq_some, ← fields_candidates s hc, List.map_eq_singleton_iff]
  exact ⟨fun ⟨i, h⟩ => ⟨_, h, rfl⟩, fun ⟨found, h, hf⟩ => ⟨found.1, hf ▸ h⟩⟩

theorem contains_iff_field? : s.contains c ↔ ∃ f, s.field? c = some f := by
  simp only [contains_iff, field?_eq_some]
  exact exists_comm

theorem field?_congr (h : a.sources = b.sources) (hc : c.relation.isSome) :
    a.field? c = b.field? c :=
  Option.ext fun f => by rw [field?_eq_some_iff hc, field?_eq_some_iff hc, h]

theorem contains_congr (h : a.sources = b.sources) (hc : c.relation.isSome) :
    a.contains c = b.contains c := by
  rw [Bool.eq_iff_iff, contains_iff_field?, contains_iff_field?, field?_congr h hc]

theorem field?_column (hf : f ∈ s.fields) (h : s.contains f.column) :
    s.field? f.column = some f := by
  obtain ⟨i, hi⟩ := List.mem_iff_getElem?.1 hf
  obtain ⟨j, g, hg⟩ := contains_iff.1 h
  have hmem : (i, f) ∈ s.candidates f.column := mem_candidates.2 ⟨hi, f.answersTo_column⟩
  obtain ⟨rfl, rfl⟩ : i = j ∧ f = g := by simpa [hg] using hmem
  exact field?_eq_some.2 ⟨i, hg⟩

theorem exists_resolve_of_field? (h : s.field? c = some f) : ∃ i, s.resolve c = .ok (i, f) := by
  obtain ⟨i, hi⟩ := field?_eq_some.1 h
  refine ⟨i, ?_⟩
  simp only [resolve, find?, hi]
  rfl

theorem resolve_of_ne (hc : c.relation.isSome) {g : Field} (hf : f ∈ s.sources) (hg : g ∈ s.sources)
    (hne : f ≠ g) (hftext : Text.lower f.column.text = Text.lower c.text)
    (hgtext : Text.lower g.column.text = Text.lower c.text) :
    s.resolve c = .error (.ambiguousColumn c.text) := by
  have hmem {h : Field} (hh : h ∈ s.sources)
    (htext : Text.lower h.column.text = Text.lower c.text) :
      h ∈ (s.candidates c).map (·.2) := by
    rw [fields_candidates s hc]
    exact List.mem_filter.2 ⟨hh, beq_iff_eq.2 htext⟩
  have hfmem := hmem hf hftext
  have hgmem := hmem hg hgtext
  match hcandidates : s.candidates c with
  | [] => simp [hcandidates] at hfmem
  | [found] =>
    simp only [hcandidates, List.map_singleton, List.mem_singleton] at hfmem hgmem
    exact absurd (hfmem.trans hgmem.symm) hne
  | _ :: _ :: _ =>
    simp only [resolve, find?, hcandidates]
    rfl

/-- A schema with more fields than another one, none of which has a source. A key that names its
source stays the key. -/
structure Widens (s t : Schema) : Prop where
  sources : t.sources = s.sources
  key : (∀ key ∈ s.primaryKey, key.relation.isSome ∧ s.contains key) → t.primaryKey = s.primaryKey
  fields : s.fields ⊆ t.fields

namespace Widens

theorem refl (s : Schema) : s.Widens s :=
  ⟨rfl, fun _ => rfl, fun _ hf => hf⟩

theorem trans (h : s.Widens t) (h' : t.Widens u) : s.Widens u := by
  refine ⟨h'.sources.trans h.sources, fun hkey => ?_, fun f hf => h'.fields (h.fields hf)⟩
  rw [h'.key, h.key hkey]
  rw [h.key hkey]
  intro key hmem
  exact ⟨(hkey key hmem).1, contains_congr h.sources (hkey key hmem).1 ▸ (hkey key hmem).2⟩

theorem withSortOrder (h : s.Widens t) (keys : List SortKey) : s.Widens (t.withSortOrder keys) :=
  ⟨h.sources, h.key, h.fields⟩

end Widens

theorem sources_append_unnamed (fields : List Field) (h : ∀ f ∈ more, f.relation = none) :
    (ofFields (fields ++ more)).sources = (ofFields fields).sources := by
  simp [sources, ofFields, filter_unnamed h]

theorem widens_append (s : Schema) (h : ∀ f ∈ more, f.relation = none) :
    s.Widens ((ofFields (s.fields ++ more)).withPrimaryKey s.primaryKey) := by
  have hsources : (ofFields (s.fields ++ more)).sources = s.sources := sources_append_unnamed _ h
  refine ⟨hsources, fun hkey => ?_, List.subset_append_left _ _⟩
  cases hs : s.primaryKey with
  | none => rfl
  | some key =>
    obtain ⟨hqualified, hcontains⟩ := hkey key hs
    rw [← contains_congr hsources hqualified] at hcontains
    simp [withPrimaryKey, hcontains]

end Schema

namespace Plan

open Schema

variable (p : Plan)

theorem widens_compute (values : List Definition) :
    p.schema.Widens (Plan.compute p values).schema :=
  (widens_append _ (by simp [Definition.field])).withSortOrder _

theorem widens_segment (columns : List Column) (mark : String) :
    p.schema.Widens (Plan.segment p columns mark).schema :=
  (widens_append _ (by simp [markField])).withSortOrder _

theorem widens_sequence (values : List SequenceValue) :
    p.schema.Widens (Plan.sequence p values).schema :=
  (widens_append _ (by simp [countField])).withSortOrder _

theorem widens_define (values : List Definition) : p.schema.Widens (p.define values).schema := by
  unfold define
  split
  · exact .refl _
  · exact p.widens_compute values

theorem widens_ordered (keys : List SortKey) : p.schema.Widens (p.ordered keys).schema := by
  unfold ordered
  split
  · exact .refl _
  · exact (Widens.refl _).withSortOrder keys

theorem widens_spool (id : Nat) (kind : SpoolKind) (mode : SpoolMode) :
    p.schema.Widens (Plan.spool id p kind mode).schema := by
  refine widens_append _ fun f hf => ?_
  split at hf
  · obtain ⟨v, -, hv⟩ := List.mem_filterMap.1 hf
    obtain ⟨g, -, rfl⟩ := Option.map_eq_some_iff.1 hv
    rfl
  · cases hf

theorem widens_join (right : Plan) (h : j.output = .left) :
    p.schema.Widens (Plan.join p right j).schema := by
  have hvalues : ∀ f ∈ j.definitions.map Definition.field, f.relation = none := by
    simp [Definition.field]
  have hjoin := (widens_append p.schema hvalues).withSortOrder p.schema.sortOrder
  simpa [schema, joinSchema, h] using hjoin

theorem mem_fields_join (right : Plan) (h : j.output = .left) :
    ∀ d ∈ j.definitions, d.field ∈ (Plan.join p right j).schema.fields := by
  intro d hd
  have hfield : d.field ∈ p.schema.fields ++ j.definitions.map Definition.field :=
    List.mem_append_right _ (List.mem_map_of_mem hd)
  simp only [schema, joinSchema, h]
  exact hfield

theorem gives_widens_withColumn (e : Scalar) :
    Gives (p.withColumn e) fun r => p.schema.Widens r.1.schema :=
  .after fun r => .pure (p.widens_define r.2.toList)

end Plan

namespace Scalar

/-- What stands for a part of an expression reads fields of the rows: it is one of them, or a test
of one, or it tells by two counts that a value is absent. -/
inductive Backed (s : Schema) : Scalar → Prop
  | column {f : Field} (hf : f ∈ s.fields) : Backed s (.column f.column)
  | test {f : Field} (hf : f ∈ s.fields) (negated : Bool) :
    Backed s (if negated then (column f.column).isNull else (column f.column).isNotNull)
  | absent {flag rows values : Field} (hflag : flag ∈ s.fields) (hrows : rows ∈ s.fields)
    (hvalues : values ∈ s.fields) (hcount : rows.dataType = .int32)
    (hknown : values.dataType = .int32)
    (outer : Column) :
      Backed s ((column flag.column).isNull.and (((column rows.column).eq (.int 0)).or
      (((column values.column).eq (column rows.column)).and (column outer).isNotNull)))

theorem Backed.mono {s t : Schema} {v : Scalar} (h : v.Backed s) (hst : s.fields ⊆ t.fields) :
    v.Backed t := by
  cases h with
  | column hf => exact .column (hst hf)
  | test hf negated => exact .test (hst hf) negated
  | absent hflag hrows hvalues hcount hknown outer =>
    exact .absent (hst hflag) (hst hrows) (hst hvalues) hcount hknown outer

end Scalar

/-- A plan has more fields than another one, among them those of some values. -/
def Plan.WidensBy (p q : Plan) (values : List Definition) : Prop :=
  p.schema.Widens q.schema ∧ ∀ d ∈ values, d.field ∈ q.schema.fields

theorem Plan.widensBy_join (p right : Plan) (h : j.output = .left) :
    p.WidensBy (.join p right j) j.definitions :=
  ⟨p.widens_join right h, p.mem_fields_join right h⟩

namespace InnerQuery

theorem gives_widensBy_joinTo (q : InnerQuery) (left : Plan) (condition : Option Scalar)
    (definitions : List Definition) :
    Gives (q.joinTo left condition definitions) fun plan => left.WidensBy plan definitions := by
  unfold joinTo
  refine .ite (fun _ => ?_) fun _ => ?_
  · rw [pure_bind]
    exact .pure (left.widensBy_join _ rfl)
  · exact .after fun _ => .pure (left.widensBy_join _ rfl)

end InnerQuery

namespace QueryBinder

variable (b : QueryBinder) (query : Sql.Query) (k : Block)

def Widened (r : Plan × Scalar) : Prop :=
  k.plan.schema.Widens r.1.schema ∧ r.2.Backed r.1.schema

theorem gives_widens_exists (negated : Bool) : Gives (b.exists_ query negated k) (Widened k) :=
  .after fun _ => .after fun _ => (InnerQuery.gives_widensBy_joinTo _ _ _ _).bind fun _ h =>
    .pure ⟨h.1, .test (h.2 _ List.mem_cons_self) negated⟩

theorem gives_widensBy_membership (inner : InnerQuery) (plan : Plan)
    (outerColumn innerColumn : Column) (definitions : List Definition) :
    Gives (membership inner plan outerColumn innerColumn definitions) fun r =>
      plan.WidensBy r definitions := by
  refine .ite (fun _ => inner.gives_widensBy_joinTo plan _ _) fun _ =>
    .ite (fun _ => .pure ?_) fun _ => ?_
  · exact ⟨(plan.widens_ordered _).trans (Plan.widens_join _ _ rfl),
      fun d hd => Plan.mem_fields_join _ _ rfl d hd⟩
  · exact .pure (plan.widensBy_join _ rfl)

theorem gives_widens_notInWithNulls (plan : Plan) (outerColumn : Column) {f : Field}
    (hf : f ∈ plan.schema.fields) :
    Gives (b.notInWithNulls query k plan outerColumn (.column f.column)) fun r =>
      plan.schema.Widens r.1.schema ∧ r.2.Backed r.1.schema :=
  .after fun _ => .after fun _ => .after fun _ => .after fun _ => .after fun _ => .after fun _ =>
    (InnerQuery.gives_widensBy_joinTo _ plan _ _).bind fun _ h =>
      .pure ⟨h.1, .absent (h.1.fields hf)
      (h.2 _ List.mem_cons_self) (h.2 _ (List.mem_cons_of_mem _ List.mem_cons_self))
        rfl rfl outerColumn⟩

theorem gives_widens_flagged (e : Sql.Expr) :
    Gives (b.flagged e query k) fun r => k.plan.schema.Widens r.plan.schema ∧
      ∃ f ∈ r.plan.schema.fields, r.flag = .column f.column :=
  .after fun e => .after fun _ => .after fun _ => .after fun _ => .after fun _ => .after fun _ =>
    .after fun _ => .after fun _ => (k.plan.gives_widens_withColumn e).bind fun _ hcolumn =>
    .after fun name => (gives_widensBy_membership _ _ _ _ _).bind fun _ h =>
      .pure ⟨hcolumn.trans h.1, (foundFlag name).field, h.2 _ List.mem_cons_self, rfl⟩

theorem gives_widens_in (e : Sql.Expr) (negated : Bool) :
    Gives (b.in_ e query negated k) (Widened k) := by
  refine (b.gives_widens_flagged query k e).bind fun found ⟨hfound, f, hf, hflag⟩ => ?_
  rw [hflag]
  refine .ite (fun _ => .pure ⟨hfound, .test hf false⟩) fun _ =>
    .ite (fun _ => .pure ⟨hfound, .test hf true⟩) fun _ => ?_
  exact (b.gives_widens_notInWithNulls query k _ _ hf).mono fun _ h => ⟨hfound.trans h.1, h.2⟩

theorem gives_widens_scalar : Gives (b.scalar query k) (Widened k) := by
  -- the values come from the subquery itself, or from a check that there is only one
  have hjoin (inner : InnerQuery) (column : Column) (dataType : DataType) :
      Gives (BindM.freshExpr >>= fun name => inner.joinTo k.plan none
        [{ name, expr := .column column, dataType }] >>= fun plan =>
          pure (plan, Scalar.column (.bare name))) (Widened k) :=
    .after fun _ => (inner.gives_widensBy_joinTo _ _ _).bind fun _ h =>
      .pure ⟨h.1, .column (h.2 _ List.mem_cons_self)⟩
  refine .after fun _ => .after fun _ => .after fun _ => .after fun _ => .after fun _ =>
    .ite (fun _ => ?_) fun _ => ?_
  · rw [pure_bind]
    exact hjoin _ _ _
  · exact .after fun _ => hjoin _ _ _

end QueryBinder

/-- A block whose rows have more fields, with the same sources in view. What it keeps it had before,
or it reads the rows. -/
structure Block.Widens (k k' : Block) : Prop where
  rows : k.plan.schema.Widens k'.plan.schema
  tables : k'.scope.tables = k.scope.tables
  preAggregate : k'.scope.preAggregate = k.scope.preAggregate
  names : k.scope.schema = k.plan.schema → k'.scope.schema = k'.plan.schema
  computed : ∀ entry ∈ k'.scope.computed, entry ∈ k.scope.computed ∨ entry.2.Backed k'.plan.schema

namespace Block.Widens

theorem refl (k : Block) : k.Widens k :=
  ⟨.refl _, rfl, rfl, id, fun _ => .inl⟩

theorem trans {k k' k'' : Block} (h : k.Widens k') (h' : k'.Widens k'') : k.Widens k'' := by
  refine ⟨h.rows.trans h'.rows, h'.tables.trans h.tables, h'.preAggregate.trans h.preAggregate,
    fun hk => h'.names (h.names hk), fun entry hentry => ?_⟩
  obtain hentry | hbacked := h'.computed entry hentry
  · exact (h.computed entry hentry).imp_right (·.mono h'.rows.fields)
  · exact .inr hbacked

theorem withPlan (k : Block) {plan : Plan} (h : k.plan.schema.Widens plan.schema) :
    k.Widens (k.withPlan plan) :=
  ⟨h, rfl, rfl, fun _ => rfl, fun _ => .inl⟩

end Block.Widens

namespace QueryBinder

variable (b : QueryBinder)

theorem gives_widens_lowered (k : Block) (key : String) (lowered : Option (Plan × Scalar))
    (h : ∀ r ∈ lowered, Widened k r) : Gives (do
      match lowered with
      | some (plan, value) => return ⟨plan, (k.scope.withSchema plan.schema).addComputed key value⟩
      | none => return k : BindM Block) k.Widens := by
  split
  next plan value =>
    obtain ⟨hplan, hvalue⟩ := h (plan, value) rfl
    exact .pure ⟨hplan, rfl, rfl, fun _ => rfl, List.forall_mem_cons.2 ⟨.inr hvalue, fun _ => .inl⟩⟩
  next => exact .pure (.refl k)

theorem gives_widens_subquery (k : Block) (e : Sql.Expr) : Gives (b.subquery k e) k.Widens := by
  have hjoined := gives_widens_lowered k e.key
  unfold subquery
  refine .ite (fun _ => .pure (.refl k)) fun _ => ?_
  split
  · exact (Gives.map ((b.gives_widens_exists _ k _).mono fun _ h => by simpa using h)).bind hjoined
  · exact (Gives.map ((b.gives_widens_in _ k _ _).mono fun _ h => by simpa using h)).bind hjoined
  · exact (Gives.map ((b.gives_widens_scalar _ k).mono fun _ h => by simpa using h)).bind hjoined
  · rw [pure_bind]
    exact .pure (.refl k)

theorem gives_widens_subqueries (es : List Sql.Expr) (k : Block) :
    Gives (b.subqueries es k) k.Widens :=
  .foldlM (.refl k) fun k' hk e _ => (b.gives_widens_subquery k' e).mono fun _ h => hk.trans h

theorem gives_widens_restrict (condition : Sql.Expr) (k : Block) :
    Gives (b.restrict condition k) k.Widens :=
  (b.gives_widens_subqueries [condition] k).bind fun k' hk => .after fun _ =>
    .pure (hk.trans (.withPlan k' (.refl _)))

end QueryBinder

end BatchPlan
