import BatchPlan.Proofs.Caching.Rebuild
import BatchPlan.Proofs.Meaning.Rows
import BatchPlan.Proofs.Typing.Inference
import BatchPlan.Proofs.Typing.Ledger
import BatchPlan.Proofs.WellFormed.Plans

namespace BatchPlan

variable {s s' : Schema} {c : Column} {outer : List OuterBinding} {more : List Field}
    {w w' : Ledger}
  {d : Definition}

/-- The fields without a source have names that were given out. -/
def Schema.Named (w : Ledger) (s : Schema) : Prop :=
  ∀ f ∈ s.fields, w.Gives f.column

theorem Schema.Named.mono (h : s.Named w) (hw : w ≤ w') : s.Named w' :=
  fun f hf => (h f hf).mono hw

theorem Schema.named_empty : Schema.empty.Named w :=
  List.forall_mem_nil _

theorem Schema.Named.append (h : s.Named w) (hfields : s'.fields = s.fields ++ more)
    (hmore : ∀ f ∈ more, w.Gives f.column) : s'.Named w := by
  unfold Named
  rw [hfields]
  exact List.forall_mem_append.2 ⟨h, hmore⟩

theorem Schema.Named.same (h : s.Named w) (hfields : s'.fields = s.fields) : s'.Named w :=
  h.append (hfields.trans (List.append_nil _).symm) (List.forall_mem_nil _)

/-- A column of an enclosing query that was read, with the parameter for it. -/
def Ledger.Lends (w : Ledger) (V : Captured → Prop) (e : Captured) : Prop :=
  V e ∧ w.Types e.binding.param e.dataType

/-- The output columns of a plan have a source or names that were given out. -/
def QueryPlan.Listed (w : Ledger) (q : QueryPlan) : Prop :=
  ∀ o ∈ q.columns, w.Gives o.source

theorem QueryPlan.Listed.mono {q : QueryPlan} (h : q.Listed w) (hw : w ≤ w') : q.Listed w' :=
  fun o ho => (h o ho).mono hw

/-- The recorded type is the one that can be inferred over a schema, if one can. -/
def Definition.Records (s : Schema) (d : Definition) : Prop :=
  ∀ t, d.expr.dataType s = .ok t → d.dataType = t

/-- The recorded type is that of the function for what can be inferred of its first argument. -/
def AggregateValue.Records (s : Schema) (v : AggregateValue) : Prop :=
  match v.args with
  | [] => v.dataType = v.function.resultType none
  | e :: _ => ∀ t, e.dataType s = .ok t → v.dataType = v.function.resultType (some t)

/-- The values that an operator adds have the types on record. -/
def Plan.RecordsTypes : Plan → Prop
  | .compute input values => ∀ d ∈ values, d.Records input.schema
  | .join _ right spec => ∀ d ∈ spec.definitions, d.Records right.schema
  | .aggregate input spec => ∀ v ∈ spec.values, v.Records input.schema
  | _ => True

/-- A column that is found under its own name has a type. -/
def Schema.Passes (s : Schema) (c : Column) (t : DataType) : Prop :=
  ∀ found, s.resolve c = .ok found → Text.lower found.2.name = Text.lower c.name →
    found.2.dataType = t

theorem Schema.passes_of_mem {f : Field} (hf : f ∈ s.fields) : s.Passes f.column f.dataType :=
  fun _ hfound _ => by rw [resolve_column hf hfound]

theorem Schema.passes_of_offers {l : Level} (h : l.schema.Extends s) {e : Captured}
    (he : l.Offers e) : s.Passes e.binding.column e.dataType := by
  obtain ⟨f, hf, hcolumn, htype⟩ := he
  rw [hcolumn, htype]
  exact fun _ hfound _ => h.resolve_column hf hfound

theorem Schema.passes_of_hides {c : Column} (h : s.Hides c) (t : DataType) : s.Passes c t := by
  intro found hfound hname
  obtain ⟨hi, hanswers⟩ := mem_candidates.1
    (candidates_of_resolve hfound ▸ List.mem_singleton_self (found.1, found.2))
  exact absurd hname (h found.2 (List.mem_of_getElem? hi) hanswers)

def Ledger.Sets (w : Ledger) (s : Schema) (b : OuterBinding) : Prop :=
  ∃ t, w.Types b.param t ∧ s.Passes b.column t

theorem Ledger.Sets.mono {b : OuterBinding} (h : w.Sets s b) (hw : w ≤ w') : w'.Sets s b :=
  h.imp fun _ ⟨htypes, hpasses⟩ => ⟨htypes.mono hw, hpasses⟩

namespace Plan

/-- The parameters that an operator sets, with the rows that they are set from. -/
def bindings : Plan → List (Schema × OuterBinding)
  | .join left _ spec => spec.strategy.bindings.map (left.schema, ·)
  | _ => []

/-- An operator that records types, reads what is in the ledger, and sets parameters of their
types. -/
structure Follows (w : Ledger) (p : Plan) : Prop where
  records : p.RecordsTypes
  reads : ∀ e ∈ p.expressions, e.Logged w
  sets : ∀ b ∈ p.bindings, w.Sets b.1 b.2

def Typed (w : Ledger) (p : Plan) : Prop :=
  ∀ q ∈ p.operators, q.Follows w

variable {w w' : Ledger} {p q left right : Plan}

namespace Follows

theorem mono (h : p.Follows w) (hw : w ≤ w') : p.Follows w' where
  records := h.records
  reads e he := (h.reads e he).mono hw
  sets b hb := (h.sets b hb).mono hw

theorem plain (hchildren : p.children.length < 2) (hrecords : p.RecordsTypes)
    (hreads : ∀ e ∈ p.expressions, e.Logged w) : p.Follows w := by
  refine ⟨hrecords, hreads, ?_⟩
  cases p with
  | join => simp [children] at hchildren
  | _ => exact nofun

end Follows

theorem typed_iff : p.Typed w ↔ p.Follows w ∧ ∀ q ∈ p.children, q.Typed w :=
  forall_operators

theorem Typed.mono (h : p.Typed w) (hw : w ≤ w') : p.Typed w' :=
  fun q hq => (h q hq).mono hw

/-- A plan as binding makes it, with the types on record. -/
structure Sound (w : Ledger) (p : Plan) : Prop where
  typed : p.Typed w
  wellFormed : p.WellFormed

end Plan

/-- A value with its type on record and a new name. -/
structure Definition.Checks (w : Ledger) (s : Schema) (d : Definition) : Prop where
  records : d.Records s
  coined : w.Coined d.name

theorem Definition.Checks.mono (h : d.Checks w s) (hw : w ≤ w') : d.Checks w' s :=
  ⟨h.records, h.coined.mono hw⟩

theorem Definition.records_column {s : Schema} {d : Definition} (hexpr : d.expr = .column c)
    (htype : ∀ found, s.resolve c = .ok found → found.2.dataType = d.dataType) : d.Records s := by
  intro t ht
  rw [hexpr, Scalar.dataType] at ht
  obtain ⟨found, hfound, ht⟩ := Result.exists_of_bind ht
  cases ht
  exact (htype found hfound).symm

/-- An aggregate with its type on record and a new name. -/
structure AggregateValue.Checks (w : Ledger) (s : Schema) (v : AggregateValue) : Prop where
  records : v.Records s
  coined : w.Coined v.name

theorem AggregateValue.Checks.mono {v : AggregateValue} (h : v.Checks w s) (hw : w ≤ w') :
    v.Checks w' s :=
  ⟨h.records, h.coined.mono hw⟩

section

variable {a b : Schema} (h : a.fields = b.fields)

include h

theorem Definition.records_congr (d : Definition) : d.Records a ↔ d.Records b := by
  rw [Definition.Records, Definition.Records, Scalar.dataType_congr h]

theorem Ledger.sets_congr (w : Ledger) (binding : OuterBinding) :
    w.Sets a binding ↔ w.Sets b binding := by
  simp only [Ledger.Sets, Schema.Passes, Schema.resolve_congr h]

end

namespace JoinSpec

/-- The values of a join have the types on record, and it sets parameters of their types. -/
structure Checks (w : Ledger) (left right : Schema) (j : JoinSpec) : Prop where
  records : ∀ d ∈ j.definitions, d.Records right
  sets : ∀ b ∈ j.strategy.bindings, w.Sets left b

structure Suits (w : Ledger) (left right : Plan) (j : JoinSpec) : Prop
    extends j.Checks w left.schema right.schema where
  sorted : (Plan.join left right j).MergesSorted

variable {w w' : Ledger} {j : JoinSpec} {left left' right right' : Schema}

theorem Checks.mono (h : j.Checks w left right) (hw : w ≤ w') : j.Checks w' left right :=
  ⟨h.records, fun b hb => (h.sets b hb).mono hw⟩

theorem Checks.congr (h : j.Checks w left right) (hleft : left.fields = left'.fields)
    (hright : right.fields = right'.fields) : j.Checks w left' right' :=
  ⟨fun d hd => (d.records_congr hright).1 (h.records d hd),
    fun b hb => (Ledger.sets_congr hleft w b).1 (h.sets b hb)⟩

theorem Checks.keyed {l r : Column} (hkeys : j.strategy = .merge l r ∨ j.strategy = .hash l r)
    (hdefinitions : ∀ d ∈ j.definitions, d.Records right) : j.Checks w left right where
  records := hdefinitions
  sets := by
    obtain hkeys | hkeys := hkeys <;> simp [hkeys, JoinStrategy.bindings]

theorem Checks.loop (hloop : j.strategy = .nestedLoop outer) (houter : ∀ b ∈ outer, w.Sets left b)
    (hdefinitions : ∀ d ∈ j.definitions, d.Records right) : j.Checks w left right where
  records := hdefinitions
  sets := by rwa [hloop]

end JoinSpec

namespace Schema

theorem named_join {left right : Schema} {spec : JoinSpec}
    (hleft : spec.output ≠ .right → left.Named w)
    (hright : spec.output ≠ .left → right.Named w)
    (hdefinitions : ∀ d ∈ spec.definitions, w.Coined d.name) :
    (Plan.joinSchema left right spec).Named w := by
  have hpadded (optional : Bool) (s : Schema) (h : s.Named w) : ∀ f ∈ Plan.padded optional s.fields,
      w.Gives f.column :=
    List.forall_mem_map.2 h
  have hvalues : ∀ f ∈ spec.definitions.map Definition.field, w.Gives f.column :=
    List.forall_mem_map.2 fun d hd => (hdefinitions d hd).gives
  unfold Plan.joinSchema
  refine List.forall_mem_append.2 ⟨?_, hvalues⟩
  cases houtput : spec.output with
  | both =>
    exact List.forall_mem_append.2 ⟨hpadded _ _ (hleft (by simp [houtput])),
      hpadded _ _ (hright (by simp [houtput]))⟩
  | left => exact hleft (by simp [houtput])
  | right => exact hright (by simp [houtput])

end Schema

namespace Plan

variable {w w' : Ledger} {p q left right kept : Plan} {j : JoinSpec} {keys : List SortKey}

theorem extends_define (p : Plan) (values : List Definition) :
    p.schema.Extends (p.define values).schema := by
  unfold define
  split
  · exact .refl _
  · exact .of_subset fun _ hf => List.mem_append_left _ hf

theorem extends_ordered (p : Plan) (keys : List SortKey) :
    p.schema.Extends (p.ordered keys).schema :=
  .of_subset fun _ hf => (fields_ordered p keys).symm ▸ hf

theorem extends_join (h : j.output = .left) : left.schema.Extends (Plan.join left right j).schema :=
  .of_subset fun f hf => List.mem_append_left _ (by rwa [h])

theorem Kept.fields (h : p.Kept q) : q.schema.fields = p.schema.fields := by
  obtain rfl | ⟨id, rfl⟩ := h
  · rfl
  · simp [schema, spoolSchema]

/-- A join on keys, by hashing or by merging sides that are sorted by their keys first. -/
theorem suits_sides (merges : Bool) (leftKey rightKey : Column) (type : JoinType)
    (condition : Option Scalar) :
    let side (p : Plan) (key : Column) := if merges then p.ordered [⟨key, .asc⟩] else p
    let j : JoinSpec :=
      { type, strategy := if merges then .merge leftKey rightKey else .hash leftKey rightKey,
        condition }
    j.Suits w (side left leftKey) (side right rightKey) := by
  cases merges with
  | false => exact ⟨.keyed (.inr rfl) nofun, nofun⟩
  | true =>
    refine ⟨.keyed (.inl rfl) nofun, ?_⟩
    rintro l r ⟨⟩
    exact ⟨sortedBy_ordered left leftKey, sortedBy_ordered right rightKey⟩

namespace Sound

theorem mono (h : p.Sound w) (hw : w ≤ w') : p.Sound w' :=
  ⟨h.typed.mono hw, h.wellFormed⟩

theorem above (h : p.Sound w) (htable : q.isTable = false) (hchildren : q.children = [p])
    (hreads : ∀ e ∈ q.expressions, e.Logged w) (hrecords : q.RecordsTypes) : q.Sound w :=
  ⟨typed_iff.2 ⟨.plain (by simp [hchildren]) hrecords hreads, by simpa [hchildren] using h.typed⟩,
    h.wellFormed.unary hchildren htable⟩

theorem leaf (htable : p.isTable = false) (hchildren : p.children = [])
    (hreads : ∀ e ∈ p.expressions, e.Logged w) (hrecords : p.RecordsTypes) : p.Sound w :=
  ⟨typed_iff.2 ⟨.plain (by simp [hchildren]) hrecords hreads, by simp [hchildren]⟩,
    .leaf hchildren htable⟩

theorem concat {inputs : List Plan} (h : ∀ p ∈ inputs, p.Sound w) (columns : List ConcatColumn) :
    (Plan.concat inputs columns).Sound w :=
  ⟨typed_iff.2 ⟨⟨trivial, nofun, nofun⟩, fun p hp => (h p hp).typed⟩,
    .operator rfl trivial fun p hp => (h p hp).wellFormed⟩

theorem of_concat {inputs : List Plan} {columns : List ConcatColumn}
    (h : (Plan.concat inputs columns).Sound w) : ∀ p ∈ inputs, p.Sound w := by
  cases h.wellFormed with
  | operator _ _ hinputs => exact fun p hp => ⟨(typed_iff.1 h.typed).2 p hp, hinputs p hp⟩

section

variable (hleft : left.Sound w) (hright : right.Sound w)
  (hreads : ∀ e ∈ (Plan.join left right j).expressions, e.Logged w)

include hleft hright hreads

theorem join (hj : j.Suits w left right) : (Plan.join left right j).Sound w :=
  ⟨typed_iff.2 ⟨⟨hj.records, hreads, List.forall_mem_map.2 hj.sets⟩,
    by simp [children, hleft.typed, hright.typed]⟩,
    hleft.wellFormed.join hright.wellFormed hj.sorted⟩

/-- A loop over rows that are kept. -/
theorem keep (hj : j.Checks w left.schema right.schema) (hkept : right.Kept kept)
    (hloop : j.strategy = .nestedLoop [])
    (hparams : j.definitions ≠ [] → right.params = []) : (Plan.join left kept j).Sound w := by
  have htyped : kept.Typed w := by
    obtain rfl | ⟨id, rfl⟩ := hkept
    · exact hright.typed
    · exact typed_iff.2 ⟨⟨trivial, nofun, nofun⟩, List.forall_mem_singleton.2 hright.typed⟩
  have hj' := hj.congr rfl hkept.fields.symm
  exact ⟨typed_iff.2 ⟨⟨hj'.records, hreads, List.forall_mem_map.2 hj'.sets⟩,
    by simp [children, hleft.typed, htyped]⟩,
    hleft.wellFormed.keep hright.wellFormed hkept hloop hparams⟩

end

/-- Rows of an anchor, and a step that runs for each row that is taken out. -/
theorem stack (hp : p.Sound w) (hq : q.Sound w) {id : Nat} {schema : Schema}
    {outer : List OuterBinding}
    (houter : ∀ b ∈ outer, w.Sets schema b) {level : String} (hlevel : w.Coined level) {bound : Nat}
    {columns : List ConcatColumn} :
    (Plan.spool id (.concat [p, (Plan.join (.consumer id schema) q
      { type := .inner, strategy := .nestedLoop outer, output := .right }).bounded
        (.bare level) bound] columns) .lazy .stack).Sound w := by
  have hrow : (Plan.consumer id schema).Sound w := .leaf rfl rfl nofun trivial
  have hstep : (Plan.join (.consumer id schema) q
      { type := .inner, strategy := .nestedLoop outer, output := .right }).Sound w :=
    hrow.join hq (List.forall_mem_nil _) ⟨.loop rfl houter nofun, nofun⟩
  refine above (concat (List.forall_mem_cons.2 ⟨hp, List.forall_mem_singleton.2 ?_⟩) columns)
    rfl rfl nofun trivial
  unfold Plan.bounded
  split
  · exact hstep
  · refine hstep.above rfl rfl (List.forall_mem_singleton.2 ?_) trivial
    exact Scalar.logged_binary.2 ⟨Scalar.logged_column.2 hlevel.gives, Scalar.logged_literal _⟩

end Sound

end Plan

end BatchPlan
