import BatchPlan.Proofs.Correlation.Programs
import BatchPlan.Proofs.Schedule.Statements
import BatchPlan.Proofs.Typing.Register
import BatchPlan.Proofs.WellFormed.Improved

namespace BatchPlan

variable {p : Plan} {column : Column} {rows : Schema} {t : DataType}

theorem AggregateValue.records_congr {a b : Schema} (h : a.fields = b.fields) (v : AggregateValue) :
    v.Records a ↔ v.Records b := by
  unfold AggregateValue.Records
  split
  · rfl
  · rw [Scalar.dataType_congr h]

namespace Plan

variable {w : Ledger}

theorem follows_congr {q : Plan} (hrecords : p.RecordsTypes ↔ q.RecordsTypes)
    (hexpressions : p.expressions = q.expressions)
    (hbindings : (∀ b ∈ p.bindings, w.Sets b.1 b.2) ↔ ∀ b ∈ q.bindings, w.Sets b.1 b.2) :
    p.Follows w ↔ q.Follows w :=
  ⟨fun h => ⟨hrecords.1 h.records, hexpressions ▸ h.reads, hbindings.1 h.sets⟩,
    fun h => ⟨hrecords.2 h.records, hexpressions ▸ h.reads, hbindings.2 h.sets⟩⟩

theorem orderless_follows (w : Ledger) : Orderless (Follows w) := by
  refine orderless_of_standIns fun p => ?_
  have hfields (input : Plan) : (consumer 0 input.schema.unordered).schema.fields =
      input.schema.fields := rfl
  cases p with
  | join left right spec =>
    refine congrArg Except.ok (propext (follows_congr ?_ rfl ?_))
    · exact forall₂_congr fun d _ => Definition.records_congr (hfields right) d
    · simp only [bindings, List.forall_mem_map]
      exact forall₂_congr fun b _ => Ledger.sets_congr (hfields left) w b
  | compute input values =>
    refine congrArg Except.ok (propext (follows_congr ?_ rfl .rfl))
    exact forall₂_congr fun d _ => Definition.records_congr (hfields input) d
  | aggregate input spec =>
    refine congrArg Except.ok (propext (follows_congr ?_ rfl .rfl))
    exact forall₂_congr fun v _ => AggregateValue.records_congr (hfields input) v
  | concat inputs columns =>
    simp only [children, withChildren, List.length_map, if_true, Except.map]
    exact congrArg Except.ok (propext (follows_congr .rfl rfl .rfl))
  | _ => exact congrArg Except.ok (propext (follows_congr .rfl rfl .rfl))

theorem Typed.improved {o : Options} {q : Plan} (h : p.Typed w) (hq : p.Improved o q) : q.Typed w :=
  hq.operators (orderless_follows w) (fun _ _ => ⟨trivial, nofun, nofun⟩) h

end Plan

/-- A plan as it was bound, or improved, with the types on record. -/
structure QueryPlan.Finished (w : Ledger) (q : QueryPlan) : Prop where
  typed : q.root.Typed w
  finished : q.root.Finished

section

variable {w : Register} {q : QueryPlan}

theorem QueryPlan.logs_finish (hq : q.root.Sound w.ledger) (hints : Hints) :
    Advances Register.Fits w (q.finish hints) fun q' w' => q'.Finished w'.ledger :=
  QueryPlan.holds_finish (L := .typing) hints fun o _ hroot =>
    ⟨hq.typed.improved hroot, q.root, o, hq.wellFormed, hroot⟩

def RootNode.Booked (w : Ledger) (node : RootNode) : Prop :=
  ∀ plan, node.plan? = some plan → plan.Finished w

theorem RootNode.booked_of_some {w : Ledger} {node : RootNode} {plan : QueryPlan}
    (h : plan.Finished w) (hnode : node.plan? = some plan) : node.Booked w := by
  intro plan hplan
  cases hnode.symm.trans hplan
  exact h

variable {b : QueryBinder} (hb : Logic.typing.Binds b)

include hb

theorem QueryBinder.logs_valuePlan (e : Sql.Expr) {bind : Scope → Sql.Expr → BindM Scalar}
    (hbind : ∀ {s : Scope} {w : Register}, s.Fits Logic.typing.toAccount w →
      Logic.typing.Holds w (bind s e) fun value w' => Logic.typing.Value w' value) :
    Advances Register.Fits w (b.valuePlan e bind) fun q w' => q.Finished w'.ledger := by
  rw [valuePlan_eq]
  exact Advances.bind (holds_valueDraft Logic.roams_typing hb e hbind) fun q w' _ hq =>
    QueryPlan.logs_finish hq.2 {}

/-- What was given out before a state, of whatever type. -/
def Ledger.before (s : BindState) : Ledger :=
  ⟨List.replicate s.names.exprs none, s.names.segments⟩

theorem concludes_booked :
    Concludes b Register.Fits (fun w q => q.Finished w.ledger) (fun w node => node.Booked w.ledger)
      (fun s => ∀ i, ∀ e ∈ s.captured.getD i [], False) fun node => ∃ w, node.Booked w where
  same hnames hcaptured hs :=
    ⟨hnames ▸ hs.exprs, hnames ▸ hs.segments, hcaptured ▸ hs.captured, hs.recursive⟩
  later hw hq := ⟨hq.typed.mono hw.2, hq.finished⟩
  bare h plan hplan := by cases h.symm.trans hplan
  plan hq hnode := RootNode.booked_of_some hq hnode
  draft hints h := by
    exact Advances.bind (QueryBinder.holds_draft Logic.roams_typing hb InsertTarget.stays_find h)
      fun d _ _ hd => (QueryPlan.logs_finish hd.rows.2 hints).bind fun plan _ _ hplan =>
        .pure (RootNode.booked_of_some hplan (hd.ends.plan? plan))
  value e := QueryBinder.logs_valuePlan hb e fun hs => Scope.holds_bindChecked hs e
  condition e := QueryBinder.logs_valuePlan hb e fun hs => Scope.holds_bindPredicate hs e
  throw args := Advances.mono (holds_bindThrow (L := .typing) args) fun _ _ _ h =>
    ⟨h.2.typed, h.2.wellFormed.finished⟩
  idle h := by simp [h]
  begins {c s} hc hs := ⟨⟨fun _ _ => False, .before s⟩,
    ⟨by simp [Ledger.before], rfl, fun i e he => absurd he (hs i e), by simp [hc]⟩,
    fun w hw =>
      ⟨fun _ hs' i e he => by
        simpa [hw.1] using (hs'.captured i e he).1, fun _ hnode => ⟨w.ledger, hnode⟩⟩⟩

end

theorem BuildInput.booked_of_build {i : BuildInput} {sql : String} {roots : List Root}
    (h : i.build sql = .ok roots) : ∀ root ∈ roots, ∃ w, root.node.Booked w :=
  (concludes_booked (QueryBinder.binds_ofDepth Logic.roams_typing (sql.length + 1))).says_of_build h

/-- The parameters that are set and read in a plan: the rows and the column that a join sets one
from, and a type that it is read with. -/
def Plan.passed (p : Plan) : List (Schema × Column × DataType) :=
  p.operators.flatMap fun join => join.bindings.flatMap fun (rows, b) =>
    p.operators.flatMap fun q => q.expressions.flatMap fun e => e.parts.filterMap fun
      | .outer param t => if param = b.param then some (rows, b.column, t) else none
      | _ => none

theorem Plan.exists_of_passed (h : (rows, column, t) ∈ p.passed) :
    ∃ join ∈ p.operators, ∃ b ∈ join.bindings,
      ∃ q ∈ p.operators, ∃ e ∈ q.expressions, b.1 = rows ∧ b.2.column = column ∧
        Scalar.outer b.2.param t ∈ e.parts := by
  simp only [passed, List.mem_flatMap, List.mem_filterMap] at h
  obtain ⟨join, hjoin, b, hb, q, hq, e, he, part, hpart, h⟩ := h
  refine ⟨join, hjoin, b, hb, q, hq, e, he, ?_⟩
  cases part with
  | outer param t' =>
    dsimp only at h
    split at h
    next hparam =>
      cases h
      exact ⟨rfl, rfl, hparam ▸ hpart⟩
    next => cases h
  | _ => cases h

theorem Plan.Typed.passes {w : Ledger} (h : p.Typed w) (hpassed : (rows, column, t) ∈ p.passed) :
    rows.Passes column t := by
  obtain ⟨join, hjoin, b, hb, q, hq, e, he, rfl, rfl, hpart⟩ := exists_of_passed hpassed
  obtain ⟨t', hparam, hpasses⟩ := (h join hjoin).sets b hb
  have hread : w.Types b.2.param t := (h q hq).reads e he _ hpart
  rwa [hread.unique hparam]

/-- The types on record in a program are those that can be inferred: of the values that are computed
or added by a join, of aggregates for their first arguments, and of the parameters that are read for
the columns that they are set from. Such a column has to be found under its own name: qualified
names are compared with dots and all, so that another field can answer to one. -/
theorem build_records_types (i : BuildInput) (sql : String) (roots : List Root)
    (h : i.build sql = .ok roots) (root : Root) (hroot : root ∈ roots) (plan : QueryPlan)
    (hplan : root.node.plan? = some plan) :
    (∀ p ∈ plan.root.operators, p.RecordsTypes) ∧
      ∀ rows column t, (rows, column, t) ∈ plan.root.passed →
      ∀ found, rows.resolve column = .ok found →
        Text.lower found.2.name = Text.lower column.name → found.2.dataType = t := by
  obtain ⟨w, hbooked⟩ := BuildInput.booked_of_build h root hroot
  have htyped := (hbooked plan hplan).typed
  exact ⟨fun p hp => (htyped p hp).records, fun _ _ _ hpassed => htyped.passes hpassed⟩

def maximumAbove : String :=
  "SELECT a.n + 1, (SELECT MAX(b.n) FROM (SELECT 2 AS n) b WHERE b.n > a.n) FROM (SELECT 1 AS n) a"

theorem maximumAbove_records_types :
    ∃ roots root plan, singleEntity.build maximumAbove = .ok roots ∧ root ∈ roots ∧
      root.node.plan? = some plan ∧
      (∃ r ∈ plan.root.passed, ∃ found, r.1.resolve r.2.1 = .ok found ∧
        Text.lower found.2.name = Text.lower r.2.1.name) ∧
      (∀ p ∈ plan.root.operators, p.RecordsTypes) ∧
      ∀ rows column t, (rows, column, t) ∈ plan.root.passed →
      ∀ found, rows.resolve column = .ok found →
        Text.lower found.2.name = Text.lower column.name → found.2.dataType = t := by
  obtain ⟨roots, root, plan, hroots, hroot, hplan, hpassed⟩ := singleEntity.exists_plan_of_any
    maximumAbove (fun plan => plan.root.passed.any fun r =>
      (r.1.resolve r.2.1).toOption.any fun found =>
      Text.lower found.2.name == Text.lower r.2.1.name) (by decide +kernel)
  obtain ⟨r, hr, hfound⟩ := List.any_eq_true.1 hpassed
  obtain ⟨found, hresolve, hname⟩ := exists_ok_of_any hfound
  exact ⟨roots, root, plan, hroots, hroot, hplan, ⟨r, hr, found, hresolve, beq_iff_eq.1 hname⟩,
    build_records_types singleEntity maximumAbove roots hroots root hroot plan hplan⟩

/-- Names with dots in two APPLYs, one in the other. The column that the inner one reads belongs to
the outer one. -/
def dottedApply : String :=
  "SELECT 1 AS one FROM (SELECT 1 AS [b.c]) a CROSS APPLY " ++
    "((SELECT 'x' AS c) [a.b] CROSS APPLY (SELECT [b.c] AS z) d)"

/-- The inner APPLY sets the parameter from a column of its own row, which has another type. -/
theorem dottedApply_mixes_types :
    ∃ roots root plan, singleEntity.build dottedApply = .ok roots ∧ root ∈ roots ∧
      root.node.plan? = some plan ∧ ∃ r ∈ plan.root.passed, ∃ found,
        r.1.resolve r.2.1 = .ok found ∧ found.2.dataType ≠ r.2.2 := by
  obtain ⟨roots, root, plan, hroots, hroot, hplan, hpassed⟩ := singleEntity.exists_plan_of_any
    dottedApply (fun plan => plan.root.passed.any fun r =>
      (r.1.resolve r.2.1).toOption.any fun found =>
      found.2.dataType != r.2.2) (by decide +kernel)
  obtain ⟨r, hr, hfound⟩ := List.any_eq_true.1 hpassed
  obtain ⟨found, hresolve, htype⟩ := exists_ok_of_any hfound
  exact ⟨roots, root, plan, hroots, hroot, hplan, r, hr, found, hresolve, bne_iff_ne.1 htype⟩

end BatchPlan
