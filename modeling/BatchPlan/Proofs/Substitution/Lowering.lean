import BatchPlan.Proofs.Binding.Tame
import BatchPlan.Proofs.Meaning.Fields
import BatchPlan.Proofs.Substitution.Parts

namespace BatchPlan

open BindM

variable {v : Scalar} {e : Sql.Expr} {b : QueryBinder} {c : BindContext}
    {es : List Sql.Expr} {base : Scope}
  {k : Block}

def Plan.Inside (p q : Plan) : Prop :=
  p ∈ q.operators

namespace Plan.Inside

variable {p q r : Plan}

theorem refl (p : Plan) : p.Inside p := by
  unfold Inside
  rw [operators_eq]
  exact List.mem_cons_self

theorem of_child (h : p.Inside q) (hq : q ∈ r.children) : p.Inside r := by
  unfold Inside
  rw [operators_eq]
  exact List.mem_cons_of_mem _ (List.mem_flatMap.2 ⟨q, hq, h⟩)

theorem above (h : p.Inside q) (hr : r.children = [q]) : p.Inside r :=
  h.of_child (by simp [hr])

theorem trans (h : p.Inside q) (h' : q.Inside r) : p.Inside r := by
  induction r using byChildren with
  | step r ih =>
    unfold Inside at h'
    rw [operators_eq, List.mem_cons] at h'
    obtain rfl | h' := h'
    · exact h
    · obtain ⟨child, hchild, h'⟩ := List.mem_flatMap.1 h'
      exact (ih child hchild h').of_child hchild

theorem define (h : p.Inside q) (values : List Definition) : p.Inside (q.define values) := by
  unfold Plan.define
  split
  · exact h
  · exact h.above rfl

theorem ordered (h : p.Inside q) (keys : List SortKey) : p.Inside (q.ordered keys) := by
  unfold Plan.ordered
  split
  · exact h
  · exact h.above rfl

theorem grouped (h : p.Inside q) (keys : List Column) (within : List SortKey)
    (values : List AggregateValue) : p.Inside (q.grouped keys within values) := by
  unfold Plan.grouped
  dsimp only
  split
  · exact h.above rfl
  · exact (h.ordered _).above rfl

end Plan.Inside

def Scalar.Marked (v : Scalar) (n : Nat) : Prop :=
  v.columns.head? = some (.bare (exprName n))

theorem Scalar.Marked.unique {m n : Nat} (hm : v.Marked m) (hn : v.Marked n) : m = n := by
  have hname : exprName m = exprName n := congrArg Column.name (Option.some.inj (hm.symm.trans hn))
  exact lower_exprName_inj.1 (congrArg Text.lower hname)

/-- Values that were made one after the other, each with a number of its own after `first` and up to
`last`. -/
inductive Coined : Nat → List (String × Scalar) → Nat → Prop
  | nil {first last : Nat} (h : first ≤ last) : Coined first [] last
  | cons {first n last : Nat} {key : String} {v : Scalar} {rest : List (String × Scalar)}
    (hn : first < n)
      (hv : v.Marked n) (hrest : Coined n rest last) : Coined first ((key, v) :: rest) last

namespace Coined

variable {first middle last n : Nat} {found found' : List (String × Scalar)}

theorem single (hn : first < n) (hlast : n ≤ last) (hv : v.Marked n) (key : String) :
    Coined first [(key, v)] last :=
  .cons hn hv (.nil hlast)

theorem append (h : Coined first found middle) (h' : Coined middle found' last) :
    Coined first (found ++ found') last := by
  induction h with
  | nil hle =>
    cases h' with
    | nil hle' => exact .nil (by omega)
    | cons hn hv hrest => exact .cons (by omega) hv hrest
  | cons hn hv _ ih => exact .cons hn hv (ih h')

theorem later (h : Coined first found middle) (hlast : middle ≤ last) :
    Coined first found last := by
  simpa using h.append (.nil hlast)

theorem exists_marked (h : Coined first found last) :
    ∀ entry ∈ found, ∃ n, first < n ∧ entry.2.Marked n := by
  induction h with
  | nil _ => nofun
  | cons hn hv _ ih =>
    refine List.forall_mem_cons.2 ⟨⟨_, hn, hv⟩, fun entry hentry => ?_⟩
    obtain ⟨m, hm, hmarked⟩ := ih entry hentry
    exact ⟨m, by omega, hmarked⟩

theorem eq_of_column (h : Coined first found last) :
    ∀ x ∈ found, ∀ y ∈ found, x.2.columns.head? = y.2.columns.head? → x = y := by
  induction h with
  | nil _ => nofun
  | @cons _ n _ key v rest _ hv hrest ih =>
    have hother : ∀ entry ∈ rest, v.columns.head? ≠ entry.2.columns.head? := by
      intro entry hentry hcolumn
      obtain ⟨m, hm, hmarked⟩ := hrest.exists_marked entry hentry
      exact absurd (hv.unique (hcolumn.trans hmarked)) (by omega)
    intro x hx y hy hcolumn
    obtain rfl | hx := List.mem_cons.1 hx <;> obtain rfl | hy := List.mem_cons.1 hy
    · rfl
    · exact absurd hcolumn (hother y hy)
    · exact absurd hcolumn.symm (hother x hx)
    · exact ih x hx y hy hcolumn

end Coined

namespace Scope

def Knows (s : Scope) (key : String) : Prop :=
  ∃ v, (key, v) ∈ s.computed

theorem knows_iff {s : Scope} : s.Knows e.key ↔ (s.computed? e).isSome := by
  constructor
  · rintro ⟨v, hv⟩
    rw [Option.isSome_iff_ne_none, computed?_eq]
    intro hnone
    simpa using List.lookup_eq_none_iff.1 hnone _ hv
  · intro h
    obtain ⟨v, hv⟩ := Option.isSome_iff_exists.1 h
    exact ⟨v, mem_of_computed? hv⟩

end Scope

/-- The order within groups that a call asks for, in lower case. -/
def Sql.Call.orderKey (call : Sql.Call Sql.Expr) : String :=
  ", ".intercalate (call.withinGroup.map fun o => Text.lower (Sql.orderText o))

/-- An order within groups that a call may get: that of a call with the same text for it. A call
that asks for no order may get none, and also the order of another one. -/
def Sql.Call.Takes (call : Sql.Call Sql.Expr) (c : BindContext) (scope : Scope) (es : List Sql.Expr)
    (order : List SortKey) : Prop :=
  call.withinGroup = [] ∧ order = [] ∨ ∃ other : Sql.Call Sql.Expr, .call other ∈ es ∧
    (call.withinGroup = [] ∨ other.orderKey = call.orderKey) ∧ ∃ definitions s s',
      (scope.bindOrder scope.schema other.withinGroup).start c s = (.ok (order, definitions), s')

/-- An aggregate computes what a call asks for: the same function of the same arguments, of
different values only if the call says so, and in an order that the call may get. -/
structure AggregateValue.Computes (a : AggregateValue) (c : BindContext) (scope : Scope)
    (es : List Sql.Expr) (call : Sql.Call Sql.Expr) : Prop where
  function : AggregateFunction.ofCall call = .ok a.function
  args : ∃ s s', (call.exprs.mapM scope.bindChecked).start c s = (.ok a.args, s')
  distinct : a.distinct = call.isDistinct
  withinGroup : call.Takes c scope es a.withinGroup

/-- Lowering an expression at a block gives a value, by an operator that stands in a plan. -/
inductive Block.Lowers (k : Block) (b : QueryBinder) (c : BindContext) (es : List Sql.Expr)
    (root : Plan) : Sql.Expr → Scalar → Prop
  | aggregate {call : Sql.Call Sql.Expr} {input : Plan} {spec : Aggregation} {a : AggregateValue}
      (hcall : a.Computes c k.scope es call) (ha : a ∈ spec.values)
      (hroot : (Plan.aggregate input spec).Inside root) :
      Lowers k b c es root (.call call) (.column (.bare a.name))
  | window {call : Sql.Call Sql.Expr} {plan : Plan} {name : String} {s s' : BindState}
      (hrun : (k.bindWindow call).start c s = (.ok (plan, name), s')) (hroot : plan.Inside root) :
      Lowers k b c es root (.call call) (.column (.bare name))
  | exists_ {query : Sql.Query} {negated : Bool} {plan : Plan} {v : Scalar} {s s' : BindState}
      (hrun : (b.exists_ query negated k).start c s = (.ok (plan, v), s'))
      (hroot : plan.Inside root) : Lowers k b c es root (.exists query negated) v
  | in_ {e : Sql.Expr} {query : Sql.Query} {negated : Bool} {plan : Plan} {v : Scalar}
    {s s' : BindState}
      (hrun : (b.in_ e query negated k).start c s = (.ok (plan, v), s'))
      (hroot : plan.Inside root) : Lowers k b c es root (.inQuery e query negated) v
  | scalar {query : Sql.Query} {plan : Plan} {v : Scalar} {s s' : BindState}
      (hrun : (b.scalar query k).start c s = (.ok (plan, v), s')) (hroot : plan.Inside root) :
      Lowers k b c es root (.subquery query) v
  | groupKey {e : Sql.Expr} {input : Plan} {values : List Definition} {d : Definition}
    {s s' : BindState}
      (hrun : (k.scope.bindChecked e).start c s = (.ok d.expr, s')) (hd : d ∈ values)
      (hroot : (Plan.compute input values).Inside root) :
      Lowers k b c es root e (.column (.bare d.name))

theorem Block.Lowers.mono {p q : Plan} (h : k.Lowers b c es p e v) (hp : p.Inside q) :
    k.Lowers b c es q e v := by
  cases h with
  | aggregate hcall ha hroot => exact .aggregate hcall ha (hroot.trans hp)
  | window hrun hroot => exact .window hrun (hroot.trans hp)
  | exists_ hrun hroot => exact .exists_ hrun (hroot.trans hp)
  | in_ hrun hroot => exact .in_ hrun (hroot.trans hp)
  | scalar hrun hroot => exact .scalar hrun (hroot.trans hp)
  | groupKey hrun hd hroot => exact .groupKey hrun hd (hroot.trans hp)

/-- A block sees its rows under the names of a scope. -/
structure Block.Sees (k : Block) (base : Scope) : Prop where
  tables : k.scope.tables = base.tables
  outer : k.scope.outer = base.outer
  schema : k.scope.schema = k.plan.schema

/-- A value is what lowering an expression gives at a block that stands in a plan. What is replaced
in the expression has been lowered in the same way: the value that the block keeps under a text is
that of an expression with this text. -/
inductive Lowered (b : QueryBinder) (c : BindContext) (es : List Sql.Expr)
    (base : Scope) (root : Plan) : Sql.Expr → Scalar → Prop
  | intro {k : Block} {e : Sql.Expr} {v : Scalar} (origin : String × Scalar → Sql.Expr)
    (hk : k.Sees base) (hplan : k.plan.Inside root)
      (hkey : ∀ entry ∈ k.scope.computed, origin entry ∈ es ∧ (origin entry).key = entry.1)
      (hcomputed : ∀ entry ∈ k.scope.computed, Lowered b c es base root (origin entry) entry.2)
      (h : k.Lowers b c es root e v) : Lowered b c es base root e v

theorem Lowered.mono {p q : Plan} (h : Lowered b c es base p e v) (hp : p.Inside q) :
    Lowered b c es base q e v := by
  induction h with
  | intro origin hk hplan hkey _ h ih => exact .intro origin hk (hplan.trans hp) hkey ih (h.mono hp)

/-- A value that a block keeps under the text of one of its expressions, and that comes from
lowering it. -/
def Explained (b : QueryBinder) (c : BindContext) (es : List Sql.Expr) (base : Scope) (root : Plan)
    (entry : String × Scalar) : Prop :=
  ∃ e ∈ es, e.key = entry.1 ∧ Lowered b c es base root e entry.2

/-- A block with all of its values explained. -/
structure Block.Faithful (k : Block) (b : QueryBinder) (c : BindContext) (es : List Sql.Expr)
    (base : Scope) : Prop extends k.Sees base where
  computed : ∀ entry ∈ k.scope.computed, Explained b c es base k.plan entry

theorem Block.Faithful.lowered {root : Plan} (hk : k.Faithful b c es base)
    (hplan : k.plan.Inside root) (h : k.Lowers b c es root e v) : Lowered b c es base root e v := by
  choose! origin horigin using hk.computed
  exact .intro origin hk.toSees hplan (fun entry hentry =>
    ⟨(horigin entry hentry).1, (horigin entry hentry).2.1⟩)
    (fun entry hentry => (horigin entry hentry).2.2.mono hplan) h

/-- A block goes on from another. Its plan stands above, and the values that it adds have new
numbers and are explained if those from before are. -/
structure Block.Grows (b : QueryBinder) (c : BindContext) (es : List Sql.Expr)
    (k : Block) (s : BindState) (k' : Block) (s' : BindState) : Prop where
  plan : k.plan.Inside k'.plan
  computed : ∃ found, k'.scope.computed = found.reverse ++ k.scope.computed ∧
    Coined s.names.exprs found s'.names.exprs
  faithful : ∀ base, k.Faithful b c es base → k'.Faithful b c es base

namespace Block.Grows

variable {b : QueryBinder} {c : BindContext} {es : List Sql.Expr} {k k' k'' : Block}
    {s s' s'' : BindState}

theorem refl : k.Grows b c es s k s :=
  ⟨.refl _, ⟨[], rfl, .nil (Nat.le_refl _)⟩, fun _ hk => hk⟩

theorem trans (h : k.Grows b c es s k' s') (h' : k'.Grows b c es s' k'' s'') :
    k.Grows b c es s k'' s'' := by
  obtain ⟨hplan, ⟨found, hcomputed, hcoined⟩, hfaithful⟩ := h
  obtain ⟨hplan', ⟨found', hcomputed', hcoined'⟩, hfaithful'⟩ := h'
  refine ⟨hplan.trans hplan', ⟨found ++ found', ?_, hcoined.append hcoined'⟩, fun base hk => ?_⟩
  · rw [hcomputed', hcomputed, List.reverse_append, List.append_assoc]
  · exact hfaithful' base (hfaithful base hk)

theorem add {found : List (String × Scalar)} (hplan : k.plan.Inside k'.plan)
    (htables : k'.scope.tables = k.scope.tables) (houter : k'.scope.outer = k.scope.outer)
    (hschema : k'.scope.schema = k'.plan.schema)
    (hcomputed : k'.scope.computed = found.reverse ++ k.scope.computed)
    (hcoined : Coined s.names.exprs found s'.names.exprs)
    (hfound : ∀ entry ∈ found, ∃ e ∈ es, e.key = entry.1 ∧ k.Lowers b c es k'.plan e entry.2) :
    k.Grows b c es s k' s' := by
  refine ⟨hplan, ⟨found, hcomputed, hcoined⟩, fun base hk => ?_⟩
  refine ⟨⟨htables.trans hk.tables, houter.trans hk.outer, hschema⟩, fun entry hentry => ?_⟩
  rw [hcomputed, List.mem_append, List.mem_reverse] at hentry
  obtain hentry | hentry := hentry
  · obtain ⟨e, he, hkey, hlowers⟩ := hfound entry hentry
    exact ⟨e, he, hkey, hk.lowered hplan hlowers⟩
  · obtain ⟨e, he, hkey, hlowered⟩ := hk.computed entry hentry
    exact ⟨e, he, hkey, hlowered.mono hplan⟩

theorem withPlan {plan : Plan} (hplan : k.plan.Inside plan) (hs : s.names.exprs ≤ s'.names.exprs) :
    k.Grows b c es s (k.withPlan plan) s' :=
  add hplan rfl rfl rfl rfl (.nil hs) nofun

theorem renewed (h : k.Grows b c es s k' s') : k.Grows b c es s (k'.withPlan k'.plan) s' :=
  h.trans (.withPlan (.refl _) (Nat.le_refl _))

theorem subset (h : k.Grows b c es s k' s') : k.scope.computed ⊆ k'.scope.computed := by
  obtain ⟨found, hcomputed, -⟩ := h.computed
  exact hcomputed ▸ List.subset_append_right _ _

theorem knows (h : k.Grows b c es s k' s') {key : String} (hk : k.scope.Knows key) :
    k'.scope.Knows key :=
  hk.imp fun _ hv => h.subset hv

theorem key_eq_of_column (h : k.Grows b c es s k' s') (hk : k.scope.computed = [])
    {x y : String × Scalar} (hx : x ∈ k'.scope.computed) (hy : y ∈ k'.scope.computed)
    (hcolumn : x.2.columns.head? = y.2.columns.head?) : x.1 = y.1 := by
  obtain ⟨found, hcomputed, hcoined⟩ := h.computed
  rw [hcomputed, hk, List.append_nil, List.mem_reverse] at hx hy
  rw [hcoined.eq_of_column x hx y hy hcolumn]

end Block.Grows

end BatchPlan
