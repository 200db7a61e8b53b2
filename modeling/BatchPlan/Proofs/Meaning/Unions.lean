import BatchPlan.Proofs.Substitution.Blocks
import Mathlib.Algebra.Order.Group.Multiset
import Mathlib.Data.List.Induction
import Mathlib.Data.Multiset.Dedup

namespace BatchPlan

open BindM

variable {plans : List QueryPlan} {inputs : List Plan} {p : QueryPlan} {i : Nat}

section

variable {V : Type} (null : V)

def Schema.value (s : Schema) (row : List V) (c : Column) : V :=
  ((s.index? c).bind (row[·]?)).getD null

def Schema.values (s : Schema) (columns : List Column) (row : List V) : List V :=
  columns.map (s.value null row)

/-- The row of a union that comes from the row of one of its inputs. -/
def ConcatColumn.values (columns : List ConcatColumn) (i : Nat) (s : Schema) (row : List V) :
    List V :=
  columns.map fun column => (column.sources[i]?.map (s.value null row)).getD null

variable [DecidableEq V] (leaf : Plan → Multiset (List V))

mutual

/-- The rows of a plan, with duplicates. A concatenation has the rows of all its inputs, place by
place; operators that are neither this nor a removal of duplicates are given. -/
def Plan.bag : Plan → Multiset (List V)
  | .concat inputs columns => Plan.bagAll columns 0 inputs
  | .distinct input columns => (input.bag.map (input.schema.values null columns)).dedup
  | p => leaf p

def Plan.bagAll (columns : List ConcatColumn) (i : Nat) : List Plan → Multiset (List V)
  | [] => 0
  | p :: rest =>
    p.bag.map (ConcatColumn.values null columns i p.schema) + Plan.bagAll columns (i + 1) rest

end

def QueryPlan.bag (q : QueryPlan) : Multiset (List V) :=
  (q.root.bag null leaf).map (q.root.schema.values null (q.columns.map (·.source)))

end

namespace Schema

variable {V : Type} (null : V) {fields : List Field}

theorem candidates_bare (h : (fields.map fun f => Text.lower f.name).Nodup) {f : Field}
    (hf : fields[i]? = some f) : (ofFields fields).candidates (.bare f.name) = [(i, f)] := by
  have hfrom (start : Nat) :
      ((fields.zipIdx start).filterMap fun entry =>
        if entry.1.answersTo false (Text.lower f.name) then some (entry.2, entry.1) else none) =
      [(start + i, f)] := by
    induction fields generalizing start i with
    | nil => simp at hf
    | cons g rest ih =>
      rw [List.map_cons, List.nodup_cons] at h
      cases i with
      | zero =>
        obtain rfl : g = f := by simpa using hf
        have hnone : (rest.zipIdx (start + 1)).filterMap (fun entry =>
            if entry.1.answersTo false (Text.lower g.name) then some (entry.2, entry.1)
              else none) = [] := by
          rw [List.filterMap_eq_nil_iff]
          intro entry hentry
          have hother : Text.lower entry.1.name ≠ Text.lower g.name := fun heq =>
            h.1 (heq ▸ List.mem_map_of_mem (List.fst_mem_of_mem_zipIdx hentry))
          simp [hother]
        rw [List.zipIdx_cons, List.filterMap_cons, hnone]
        simp
      | succ i =>
        have hother : Text.lower g.name ≠ Text.lower f.name := fun heq =>
          h.1 (heq ▸ List.mem_map_of_mem (List.mem_of_getElem? hf))
        have hrest := ih h.2 hf (start + 1)
        rw [List.zipIdx_cons, List.filterMap_cons]
        simp only [Field.answersTo_bare, beq_false_of_ne hother] at hrest ⊢
        rw [show start + (i + 1) = start + 1 + i by omega]
        exact hrest
  have hplace := hfrom 0
  rw [Nat.zero_add] at hplace
  exact hplace

theorem filterMap_field?_bare (h : (fields.map fun f => Text.lower f.name).Nodup) :
    (fields.map fun f => Column.bare f.name).filterMap (ofFields fields).field? = fields := by
  rw [List.filterMap_map]
  refine (List.filterMap_congr fun f hf => ?_).trans (List.filterMap_some ..)
  obtain ⟨i, hi⟩ := List.mem_iff_getElem?.1 hf
  exact field?_eq_some.2 ⟨i, candidates_bare h hi⟩

theorem values_bare (h : (fields.map fun f => Text.lower f.name).Nodup) {row : List V}
    (hrow : row.length = fields.length) :
    (ofFields fields).values null (fields.map fun f => Column.bare f.name) row = row := by
  apply List.ext_getElem?
  intro i
  rw [values, List.map_map, List.getElem?_map]
  cases hf : fields[i]? with
  | none =>
    have hlength : row.length ≤ i := hrow ▸ List.getElem?_eq_none_iff.1 hf
    rw [List.getElem?_eq_none hlength]
    rfl
  | some f =>
    have hlt : i < row.length := hrow ▸ (List.getElem?_eq_some_iff.1 hf).1
    have hindex : (ofFields fields).index? (.bare f.name) = some i :=
      index?_eq_some.2 ⟨f, candidates_bare h hf⟩
    simp [value, hindex, hlt]

end Schema

/-- The columns of a union have generated names, and those that are asked for are their sources. -/
structure ConcatColumn.Made (first last : Nat) (columns : List ConcatColumn) : Prop where
  order : first ≤ last
  names : ∀ column ∈ columns, ∃ n, first < n ∧ n ≤ last ∧ column.name = exprName n
  nodup : (columns.map fun column => Text.lower column.name).Nodup

theorem ConcatColumn.yields_ofSources (sources : List (Schema × Column)) (c : BindContext)
    (s : BindState) : Yields (ofSources sources) c s fun column s' =>
      column.sources = sources.map (·.2) ∧ column.name = exprName (s.names.exprs + 1) ∧
        s'.names.exprs = s.names.exprs + 1 := by
  refine Yields.bind (P := fun _ s' => s' = s) ?_ fun types s' hs => ?_
  · refine Yields.foldlM (fun _ s' => s' = s) rfl fun soFar source _ s' hs => ?_
    subst hs
    refine Yields.bind (P := fun _ s'' => s'' = s') (.lift fun _ _ => rfl) fun found s'' hs => ?_
    subst hs
    exact Yields.bind (P := fun _ s => s = s'') (.lift fun _ _ => rfl) fun _ _ hs => .pure hs
  · subst hs
    intro column s'' h
    obtain ⟨name, s₁, hname, h⟩ := exists_of_start_bind h
    obtain ⟨rfl, rfl⟩ := start_freshExpr hname
    cases h
    exact ⟨rfl, rfl, rfl⟩

theorem ConcatColumn.yields_mapM (sources : Nat → List (Schema × Column)) (places : List Nat)
    (c : BindContext) (s : BindState) :
    Yields (places.mapM fun i => ofSources (sources i)) c s fun columns s' =>
      Made s.names.exprs s'.names.exprs columns ∧
        columns.map (·.sources) = places.map fun i => (sources i).map (·.2) := by
  induction places generalizing s with
  | nil => exact .pure ⟨⟨Nat.le_refl _, by simp, by simp⟩, rfl⟩
  | cons i rest ih =>
    rw [List.mapM_cons]
    refine (yields_ofSources (sources i) c s).bind fun column s₁ hcolumn => ?_
    obtain ⟨hsources, hname, hs₁⟩ := hcolumn
    refine (ih s₁).bind fun columns s₂ hcolumns => .pure ?_
    obtain ⟨hmade, hrest⟩ := hcolumns
    have horder := hmade.order
    refine ⟨⟨by omega, List.forall_mem_cons.2 ⟨⟨_, by omega, by
      omega, hname⟩, fun other hother => ?_⟩,
      List.nodup_cons.2 ⟨fun hmem => ?_, hmade.nodup⟩⟩, by
        rw [List.map_cons, List.map_cons, hsources, hrest]⟩
    · obtain ⟨n, hfirst, hlast, hn⟩ := hmade.names other hother
      exact ⟨n, by omega, hlast, hn⟩
    · obtain ⟨other, hother, hsame⟩ := List.mem_map.1 hmem
      obtain ⟨n, hfirst, -, hn⟩ := hmade.names other hother
      have hplace : n = s.names.exprs + 1 := lower_exprName_inj.1 (hn ▸ hname ▸ hsame)
      omega

theorem source_columnSources {k : Nat} (hwidth : ∀ p ∈ plans, i < p.columns.length)
    (hp : plans[k]? = some p) :
    ((columnSources (plans.map fun p => (p.schema, p)) i).map (·.2))[k]? =
      p.columns[i]?.map (·.source) := by
  induction plans generalizing k with
  | nil => cases hp
  | cons first rest ih =>
    rw [List.forall_mem_cons] at hwidth
    have hcons : columnSources ((first :: rest).map fun p => (p.schema, p)) i =
        (first.schema, (first.columns.get ⟨i, hwidth.1⟩).source) ::
          columnSources (rest.map fun p => (p.schema, p)) i := by
      simp [columnSources, hwidth.1]
    rw [hcons, List.map_cons]
    cases k with
    | zero =>
      obtain rfl : first = p := by simpa using hp
      simp [hwidth.1]
    | succ k => exact ih hwidth.2 hp

section

variable {V : Type} (null : V)
variable {i : Nat} {columns : List ConcatColumn}

theorem ConcatColumn.values_eq
    (h : columns.map (fun column => column.sources[i]?) = p.columns.map fun o => some o.source)
    (row : List V) : values null columns i p.root.schema row =
      p.root.schema.values null (p.columns.map (·.source)) row := by
  calc values null columns i p.root.schema row
      = (columns.map fun column => column.sources[i]?).map
          fun source => (source.map (p.root.schema.value null row)).getD null := by
        rw [values, List.map_map]
        rfl
    _ = p.root.schema.values null (p.columns.map (·.source)) row := by
        rw [h, Schema.values, List.map_map, List.map_map]
        rfl

variable [DecidableEq V] (leaf : Plan → Multiset (List V))

theorem Plan.bagAll_eq_sum (h : ∀ k p, plans[k]? = some p →
      columns.map (fun column => column.sources[i + k]?) = p.columns.map fun o => some o.source) :
    Plan.bagAll null leaf columns i (plans.map (·.root)) = (plans.map (·.bag null leaf)).sum := by
  induction plans generalizing i with
  | nil => rw [List.map_nil, Plan.bagAll, List.map_nil, List.sum_nil]
  | cons p rest ih =>
    have hhead := h 0 p rfl
    have hrest := ih (i := i + 1) fun k q hq => by
      rw [Nat.add_assoc, Nat.add_comm 1 k]
      exact h (k + 1) q hq
    rw [List.map_cons, Plan.bagAll, hrest, List.map_cons, List.sum_cons]
    congr 1
    exact Multiset.map_congr rfl fun row _ => ConcatColumn.values_eq null hhead row

theorem Plan.length_of_mem_bagAll {row : List V}
    (h : row ∈ Plan.bagAll null leaf columns i inputs) : row.length = columns.length := by
  induction inputs generalizing i with
  | nil =>
    rw [Plan.bagAll] at h
    exact absurd h (Multiset.notMem_zero row)
  | cons p rest ih =>
    rw [Plan.bagAll, Multiset.mem_add] at h
    rcases h with h | h
    · obtain ⟨before, -, rfl⟩ := Multiset.mem_map.1 h
      exact List.length_map ..
    · exact ih h

/-- The rows that two queries have together, once each if duplicates are removed. -/
def Sql.SetQuantifier.combine (q : Sql.SetQuantifier) (left right : Multiset (List V)) :
    Multiset (List V) :=
  if q = .all then left + right else (left + right).dedup

def QueryPlan.bags (plans : List QueryPlan) : Multiset (List V) :=
  (plans.map (·.bag null leaf)).sum

theorem QueryPlan.bags_singleton (p : QueryPlan) : bags null leaf [p] = p.bag null leaf :=
  List.sum_singleton

theorem QueryPlan.bags_append_singleton (plans : List QueryPlan) (p : QueryPlan) :
    bags null leaf (plans ++ [p]) = bags null leaf plans + p.bag null leaf := by
  rw [bags, List.map_append, List.sum_append, List.map_singleton, List.sum_singleton, bags]

end

/-- A concatenation whose columns have names of their own, and those of the plans as sources. -/
structure ConcatColumn.Joins (plans : List QueryPlan) (columns : List ConcatColumn) : Prop where
  nodup : (columns.map fun column => Text.lower column.name).Nodup
  sources : ∀ (k : Nat) (p : QueryPlan), plans[k]? = some p →
    columns.map (fun column => column.sources[k]?) = p.columns.map fun o => some o.source

namespace ConcatColumn.Joins

variable {plans : List QueryPlan} {columns : List ConcatColumn}
  {V : Type} (null : V) [DecidableEq V] (leaf : Plan → Multiset (List V))

theorem nodup_fields (h : Joins plans columns) :
    ((columns.map ConcatColumn.field).map fun f => Text.lower f.name).Nodup := by
  rw [List.map_map]
  exact h.nodup

theorem bag_concat (h : Joins plans columns) :
    (Plan.concat (plans.map (·.root)) columns).bag null leaf = QueryPlan.bags null leaf plans := by
  rw [Plan.bag, QueryPlan.bags]
  apply Plan.bagAll_eq_sum
  intro k p hp
  rw [Nat.zero_add]
  exact h.sources k p hp

theorem values_row (h : Joins plans columns) {row : List V}
    (hrow : row ∈ (Plan.concat inputs columns).bag null leaf) :
    (Plan.concat inputs columns).schema.values null (columns.map fun column => .bare column.name)
      row = row := by
  have hlength : row.length = columns.length :=
    Plan.length_of_mem_bagAll null leaf (by rwa [Plan.bag] at hrow)
  have hvalues := Schema.values_bare null h.nodup_fields (hlength.trans (List.length_map ..).symm)
  rw [List.map_map] at hvalues
  exact hvalues

theorem map_values (h : Joins plans columns) (inputs : List Plan) :
    ((Plan.concat inputs columns).bag null leaf).map
        ((Plan.concat inputs columns).schema.values null
          (columns.map fun column => .bare column.name)) =
      (Plan.concat inputs columns).bag null leaf :=
  (Multiset.map_congr rfl fun _ hrow => h.values_row null leaf hrow).trans (Multiset.map_id _)

theorem schema_distinct (h : Joins plans columns) (inputs : List Plan) :
    (Plan.distinct (.concat inputs columns) (columns.map fun column => .bare column.name)).schema =
      (Plan.concat inputs columns).schema := by
  have hfields := Schema.filterMap_field?_bare h.nodup_fields
  rw [List.map_map] at hfields
  rw [Plan.schema]
  exact congrArg Schema.ofFields hfields

theorem bag_distinct (h : Joins plans columns) (inputs : List Plan) :
    (Plan.distinct (.concat inputs columns) (columns.map fun column => .bare column.name)).bag
      null leaf = ((Plan.concat inputs columns).bag null leaf).dedup := by
  conv_lhs => rw [Plan.bag]
  rw [h.map_values]

end ConcatColumn.Joins

namespace QueryPlan

theorem joins_of_sources {columns : List ConcatColumn} {width first last : Nat}
    (hwidth : ∀ p ∈ plans, p.columns.length = width) (hmade : ConcatColumn.Made first last columns)
    (hsources : columns.map (·.sources) = (List.range width).map fun i =>
      (columnSources (plans.map fun p => (p.schema, p)) i).map (·.2)) :
      ConcatColumn.Joins plans columns := by
  refine ⟨hmade.nodup, fun k p hp => ?_⟩
  have hlength : p.columns.length = width := hwidth p (List.mem_of_getElem? hp)
  calc columns.map (fun column => column.sources[k]?)
      = (columns.map (·.sources)).map fun sources => sources[k]? := by rw [List.map_map]; rfl
    _ = (List.range width).map fun i => p.columns[i]?.map (·.source) := by
        rw [hsources, List.map_map]
        refine List.map_congr_left fun i hi => source_columnSources (fun q hq => ?_) hp
        rw [hwidth q hq]
        exact List.mem_range.1 hi
    _ = p.columns.map fun o => some o.source := by
        apply List.ext_getElem
        · rw [List.length_map, List.length_map, List.length_range, hlength]
        · intro i h₁ h₂
          have hi : i < p.columns.length := by rwa [List.length_map] at h₂
          simp [hi]

theorem yields_union (plans : List QueryPlan) (distinct : Bool) (c : BindContext) (s : BindState) :
    Yields (union plans distinct) c s fun q _ =>
      ∀ (V : Type) (_ : DecidableEq V) (null : V) (leaf : Plan → Multiset (List V)),
        q.bag null leaf = if distinct then (bags null leaf plans).dedup else bags
          null leaf plans := by
  unfold union
  split
  · exact .throw
  next first rest =>
    refine .check fun hwidth => ?_
    have hwidth : ∀ p ∈ first :: rest, p.columns.length = first.columns.length := by
      simpa using hwidth
    refine (ConcatColumn.yields_mapM _ _ c s).bind fun columns s' hcolumns =>
      .pure fun V _ null leaf => ?_
    have hjoins := joins_of_sources hwidth hcolumns.1 hcolumns.2
    have hlength : columns.length = first.columns.length := by
      have := congrArg List.length hcolumns.2
      simpa using this
    have houtputs : ((first.columns.zip columns).map fun entry =>
        OutputColumn.mk entry.1.name (.bare entry.2.name)).map (·.source) =
        columns.map fun column => Column.bare column.name := by
      rw [List.map_map]
      exact (List.map_map (l := first.columns.zip columns) (f := Prod.snd)
        (g := fun column : ConcatColumn => Column.bare column.name)).symm.trans
        (by rw [List.map_snd_zip (by omega)])
    have hrows := hjoins.map_values null leaf ((first :: rest).map (·.root))
    rw [← hjoins.bag_concat null leaf]
    cases distinct with
    | false =>
      rw [bag, houtputs]
      exact hrows
    | true =>
      rw [bag, houtputs, if_pos rfl, if_pos rfl, hjoins.bag_distinct, hjoins.schema_distinct]
      refine (Multiset.map_congr rfl fun row hrow => ?_).trans (Multiset.map_id _)
      exact hjoins.values_row null leaf (Multiset.mem_dedup.1 hrow)

end QueryPlan

namespace Sql.SetExpr

def isUnion : SetExpr Query → Bool
  | .operation .union .. => true
  | _ => false

/-- A chain of unions as it is read: each one has all before it on its left. -/
def chain (first : SetExpr Query) (rest : List (SetQuantifier × SetExpr Query)) : SetExpr Query :=
  rest.foldl (fun left m => .operation .union m.1 left m.2) first

theorem unionMembers_of_not_isUnion {body : SetExpr Query} (h : body.isUnion = false) :
    body.unionMembers = [⟨body, none⟩] := by
  unfold unionMembers
  split
  · cases h
  · rfl

theorem unionMembers_chain {first : SetExpr Query} {rest : List (SetQuantifier × SetExpr Query)}
    (hfirst : first.isUnion = false) (hrest : ∀ m ∈ rest, m.2.isUnion = false) :
    (chain first rest).unionMembers =
      ⟨first, none⟩ :: rest.map fun m => ⟨m.2, some m.1⟩ := by
  induction rest using List.reverseRecOn with
  | nil => exact unionMembers_of_not_isUnion hfirst
  | append_singleton rest m ih =>
    have hm : m.2.isUnion = false := hrest m (by simp)
    have hrest := ih fun m hm => hrest m (List.mem_append_left _ hm)
    rw [chain, List.foldl_concat, unionMembers, unionMembers_of_not_isUnion hm]
    rw [chain] at hrest
    simp [hrest]

theorem exists_chain_eq (first : SetExpr Query) {rest : List (SetQuantifier × SetExpr Query)}
    (h : rest ≠ []) : ∃ quantifier left right, chain first rest =
      .operation .union quantifier left right := by
  obtain ⟨before, m, rfl⟩ := (List.eq_nil_or_concat' rest).resolve_left h
  exact ⟨m.1, chain first before, m.2, by rw [chain, List.foldl_concat]; rfl⟩

/-- The first member of a chain, and the others with their quantifiers. -/
def spine : SetExpr Query → SetExpr Query × List (SetQuantifier × SetExpr Query)
  | .operation .union quantifier left right => (left.spine.1, left.spine.2 ++ [(quantifier, right)])
  | body => (body, [])

theorem chain_spine (body : SetExpr Query) : chain body.spine.1 body.spine.2 = body := by
  fun_induction spine body with
  | case1 quantifier left right ih => rw [chain, List.foldl_concat, ← chain, ih]
  | case2 => rfl

end Sql.SetExpr

namespace QueryBinder

def Binds (b : QueryBinder) (c : BindContext) (outer : List Level) (body : Sql.SetExpr Sql.Query)
    (plan : QueryPlan) : Prop :=
  ∃ s bound s', (b.body body outer).start c s = (.ok bound, s') ∧ bound.plan = plan

def chainBag {V : Type} [DecidableEq V] (null : V) (leaf : Plan → Multiset (List V))
    (first : Multiset (List V)) (rest : List (Sql.SetQuantifier × QueryPlan)) : Multiset (List V) :=
  rest.foldl (fun rows m => m.1.combine rows (m.2.bag null leaf)) first

variable {b : QueryBinder} {c : BindContext} {outer : List Level}

/-- Duplicates are removed from all that was gathered, if the union with a member asks for it. -/
theorem yields_gathered (m : Sql.UnionMember) (captured : List Captured) (pending : List QueryPlan)
    (s : BindState) :
    Yields (if m.isDistinct then do return (captured, [← QueryPlan.union pending true])
      else pure (captured, pending) : BindM (List Captured × List QueryPlan)) c s fun soFar _ =>
      ∀ (V : Type) (_ : DecidableEq V) (null : V) (leaf : Plan → Multiset (List V)),
        QueryPlan.bags null leaf soFar.2 =
          if m.isDistinct then (QueryPlan.bags null leaf pending).dedup
          else QueryPlan.bags null leaf pending := by
  split
  · refine (QueryPlan.yields_union pending true c s).bind fun plan _ hplan =>
      .pure fun V _ null leaf => ?_
    rw [QueryPlan.bags_singleton]
    exact hplan V _ null leaf
  · exact .pure fun _ _ _ _ => rfl

/-- What members add to a chain: the plans that wait at the end have the rows of those that waited
before, joined with the members one by one. -/
theorem yields_members (rest : List (Sql.SetQuantifier × Sql.SetExpr Sql.Query))
    (captured : List Captured) (pending : List QueryPlan) (s : BindState) :
    Yields ((rest.map fun m => (⟨m.2, some m.1⟩ : Sql.UnionMember)).foldlM
        (fun (soFar : List Captured × List QueryPlan) m => do
          let bound ← b.body m.body outer
          let captured := soFar.1 ++ bound.captured
          let pending := soFar.2 ++ [bound.plan]
          if m.isDistinct then return (captured, [← QueryPlan.union pending true])
          else return (captured, pending)) (captured, pending)) c s fun soFar _ =>
      ∃ plans, List.Forall₂ (fun m plan => b.Binds c outer m.2 plan) rest plans ∧
        ∀ (V : Type) (_ : DecidableEq V) (null : V) (leaf : Plan → Multiset (List V)),
          QueryPlan.bags null leaf soFar.2 =
            chainBag null leaf (QueryPlan.bags null leaf pending) ((rest.map (·.1)).zip plans) := by
  induction rest generalizing captured pending s with
  | nil => exact .pure ⟨[], .nil, fun _ _ _ _ => rfl⟩
  | cons m rest ih =>
    rw [List.map_cons, List.foldlM_cons]
    intro soFar s' h
    obtain ⟨next, s₁, hnext, h⟩ := exists_of_start_bind h
    obtain ⟨bound, s₂, hbound, hnext⟩ := exists_of_start_bind hnext
    have hplan : b.Binds c outer m.2 bound.plan := ⟨s, bound, s₂, hbound, rfl⟩
    have hgathered := yields_gathered _ _ _ s₂ next s₁ hnext
    obtain ⟨plans, hplans, hrows⟩ := ih next.1 next.2 s₁ soFar s' h
    refine ⟨bound.plan :: plans, .cons hplan hplans, fun V inst null leaf => ?_⟩
    have hcombine : QueryPlan.bags null leaf next.2 =
        m.1.combine (QueryPlan.bags null leaf pending) (bound.plan.bag null leaf) := by
      rw [hgathered V inst null leaf, QueryPlan.bags_append_singleton, Sql.SetQuantifier.combine]
      cases m.1 <;> rfl
    rw [hrows V inst null leaf, hcombine]
    rfl

/-- A chain of unions has the rows of its members, joined one by one from the left, whatever the
quantifiers are and however many members there are. -/
theorem union_chain_rows {first : Sql.SetExpr Sql.Query}
    {rest : List (Sql.SetQuantifier × Sql.SetExpr Sql.Query)} {s s' : BindState}
    {bound : BoundQuery}
    (hfirst : first.isUnion = false) (hrest : ∀ m ∈ rest, m.2.isUnion = false) (hne : rest ≠ [])
    (h : (b.bindBody (first.chain rest) outer).start c s = (.ok bound, s')) :
    ∃ plan plans, b.Binds c outer first plan ∧
      List.Forall₂ (fun m plan => b.Binds c outer m.2 plan) rest plans ∧
      ∀ (V : Type) (_ : DecidableEq V) (null : V) (leaf : Plan → Multiset (List V)),
        bound.plan.bag null leaf =
          chainBag null leaf (plan.bag null leaf) ((rest.map (·.1)).zip plans) := by
  obtain ⟨quantifier, left, right, hchain⟩ := Sql.SetExpr.exists_chain_eq first hne
  rw [hchain, bindBody, ← hchain, Sql.SetExpr.unionMembers_chain hfirst hrest, unionChain,
    List.foldlM_cons, bind_assoc] at h
  obtain ⟨start, s₁, hstart, hmembers⟩ := exists_of_start_bind h
  obtain ⟨⟨captured, pending⟩, s₂, hpending, hend⟩ := exists_of_start_bind hmembers
  obtain ⟨head, s₃, hhead, hwaits⟩ := exists_of_start_bind hstart
  cases hwaits
  obtain ⟨plans, hplans, hrows⟩ := yields_members rest _ _ _ _ s₂ hpending
  refine ⟨head.plan, plans, ⟨s, head, _, hhead, rfl⟩, hplans, fun V inst null leaf => ?_⟩
  have hrows := hrows V inst null leaf
  rw [List.nil_append, QueryPlan.bags_singleton] at hrows
  rw [← hrows]
  dsimp only at hend
  split at hend
  · cases hend
    rw [QueryPlan.bags_singleton]
  · obtain ⟨plan, s₄, hplan, hresult⟩ := exists_of_start_bind hend
    cases hresult
    exact QueryPlan.yields_union pending false c s₂ plan _ hplan V inst null leaf

def mixedUnions : String :=
  "SELECT name FROM account UNION ALL SELECT name FROM account UNION SELECT name FROM " ++
  "account UNION ALL (SELECT name FROM account UNION SELECT name FROM account)"

theorem mixedUnions_rows : ∃ first rest bound s',
    (queryOf? mixedUnions).map (·.body) = some (first.chain rest) ∧ first.isUnion = false ∧
    (∀ m ∈ rest, m.2.isUnion = false) ∧ rest.map (·.1) = [.all, .none, .all] ∧
    ((ofDepth 4).bindBody (first.chain rest) []).start accounts { session := .empty } =
    (.ok bound, s') ∧ ∃ plan plans, (ofDepth 4).Binds accounts [] first plan ∧
      List.Forall₂ (fun m plan => (ofDepth 4).Binds accounts [] m.2 plan) rest plans ∧
      ∀ (V : Type) (_ : DecidableEq V) (null : V) (leaf : Plan → Multiset (List V)),
        bound.plan.bag null leaf =
          chainBag null leaf (plan.bag null leaf) ((rest.map (·.1)).zip plans) := by
  have h : ((queryOf? mixedUnions).map (·.body)).any fun body => !body.spine.1.isUnion &&
      (body.spine.2.all fun m => !m.2.isUnion) && body.spine.2.map (·.1) == [.all, .none, .all] &&
      (((ofDepth 4).bindBody body []).start accounts { session := .empty }).1.toOption.isSome := by
    decide +kernel
  obtain ⟨body, hbody, h⟩ := (Option.any_eq_true ..).1 h
  simp only [Bool.and_eq_true, Bool.not_eq_true', beq_iff_eq, List.all_eq_true] at h
  obtain ⟨⟨⟨hfirst, hrest⟩, hquantifiers⟩, hbound⟩ := h
  have hbound := start_eq_value hbound
  rw [← body.chain_spine] at hbound
  have hne : body.spine.2 ≠ [] := fun hnil => by simp [hnil] at hquantifiers
  exact ⟨body.spine.1, body.spine.2, _, _, by
    rw [body.chain_spine, hbody], hfirst, hrest, hquantifiers,
    hbound, union_chain_rows hfirst hrest hne hbound⟩

end QueryBinder

end BatchPlan
