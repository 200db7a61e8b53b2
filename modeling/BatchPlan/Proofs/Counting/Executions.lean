import BatchPlan.Proofs.Caching.Rebuild
import BatchPlan.Proofs.Correlation.Params
import BatchPlan.Proofs.Meaning.Rows

namespace BatchPlan

variable {rows : List Row}

namespace Operations

def drawing (ops : Operations) (id : Value) (hid : id ≠ .null) : Operations :=
  { ops with
    call := fun f vs => if f = .newId then id else ops.call f vs
    call_ne_null := fun f hf vs => by
      by_cases h : f = .newId
      · rwa [if_pos h]
      · rw [if_neg h]
        exact ops.call_ne_null f hf vs }

section

variable {ops : Operations} {id : Value} {hid : id ≠ .null}

theorem binary_drawing : (ops.drawing id hid).binary = ops.binary := rfl

theorem function_drawing {f : ScalarFunction} (hf : f ≠ .newId) :
    (ops.drawing id hid).function f = ops.function f := by
  funext vs
  cases f <;> first | rfl | exact absurd rfl hf

end

structure Coherent (ops : Operations) : Prop where
  symm : ∀ v w, ops.equal v w → ops.equal w v
  trans : ∀ u v w, ops.equal u v → ops.equal v w → ops.equal u w

variable {ops : Operations} {u v w : Value}

theorem same_eq_true : ops.same v w = .true ↔ v ≠ .null ∧ w ≠ .null ∧ ops.equal v w := by
  by_cases hv : v = .null
  · simp [hv]
  · by_cases hw : w = .null
    · simp [hw]
    · simp [same_of_ne_null hv hw, hv, hw]

theorem Coherent.same_symm (h : ops.Coherent) (hvw : ops.same v w = .true) :
    ops.same w v = .true := by
  rw [same_eq_true] at hvw ⊢
  exact ⟨hvw.2.1, hvw.1, h.symm v w hvw.2.2⟩

theorem Coherent.same_trans (h : ops.Coherent) (huv : ops.same u v = .true)
    (hvw : ops.same v w = .true) : ops.same u w = .true := by
  rw [same_eq_true] at huv hvw ⊢
  exact ⟨huv.1, hvw.2.1, h.trans u v w huv.2.2 hvw.2.2⟩

end Operations

namespace Scalar

/-- Does a part have its value from the row, or from a draw? -/
def varies : Scalar → Bool
  | .column _ | .call .newId _ => true
  | _ => false

def Fixed (e : Scalar) : Prop :=
  ∀ part ∈ e.parts, part.varies = false

variable {ops : Operations} {env : Env} {a b : Value} {ha : a ≠ .null} {hb : b ≠ .null}
  {s t : Schema} {row other : Row}

theorem eval_of_fixed (e : Scalar) (h : e.Fixed) :
    e.eval (ops.drawing a ha) env s row = e.eval (ops.drawing b hb) env t other := by
  have hops : AgreeBut (ops.drawing a ha) (ops.drawing b hb) := ⟨rfl, rfl, rfl⟩
  refine eval_congr hops e fun part hpart => ?_
  have hpart := h part hpart
  cases part with
  | column => cases hpart
  | call f args =>
    have hf : f ≠ .newId := by
      rintro rfl
      cases hpart
    exact (Operations.function_drawing hf).trans (Operations.function_drawing hf).symm
  | _ => trivial

theorem truth_eq_true_iff {e : Scalar} : (e.eval ops env s row).truth = .true ↔
    ∀ c ∈ e.conjuncts, (c.eval ops env s row).truth = .true := by
  fun_induction conjuncts e with
  | case1 left right ihl ihr =>
    rw [eval, Operations.binary, Value.truth_ofTruth, Truth.and_eq_true, ihl,
      ihr, List.forall_mem_append]
  | case2 e => simp

end Scalar

namespace Schema

def TellsApart (ops : Operations) (s : Schema) (rows : List Row) : Prop :=
  ∀ key ∈ s.primaryKey, rows.Pairwise fun r r' => ops.same (s.read r key) (s.read r' key) ≠ .true

instance (ops : Operations) (s : Schema) (rows : List Row) : Decidable (s.TellsApart ops rows) :=
  inferInstanceAs (Decidable (∀ key ∈ s.primaryKey, _))

variable {ops : Operations} {s : Schema} {c key : Column}

theorem tellsApart_singleton (row : Row) : s.TellsApart ops [row] :=
  fun _ _ => List.pairwise_singleton ..

theorem exists_key_of_isPrimaryKey (h : s.isPrimaryKey c) :
    ∃ key ∈ s.primaryKey, ∀ row, s.read row c = s.read row key := by
  unfold isPrimaryKey at h
  split at h
  next key i hkey hi =>
    refine ⟨key, hkey, fun row => ?_⟩
    rw [read, read, hi, beq_iff_eq.1 h]
  next => cases h

theorem length_le_one_of_pinned (hops : ops.Coherent) {v : Value} (hc : s.isPrimaryKey c)
    (hapart : s.TellsApart ops rows) (hrows : ∀ row ∈ rows, ops.same (s.read row c) v = .true) :
    rows.length ≤ 1 := by
  obtain ⟨key, hkey, hread⟩ := exists_key_of_isPrimaryKey hc
  match rows, hapart key hkey, hrows with
  | [], _, _ | [_], _, _ => simp
  | first :: second :: rest, hpairwise, hrows =>
    have hfirst : ops.same (s.read first key) v = .true := hread first ▸ hrows first (by simp)
    have hsecond : ops.same (s.read second key) v = .true := hread second ▸ hrows second (by simp)
    have hdiffer := (List.pairwise_cons.1 hpairwise).1 second (by simp)
    exact absurd (hops.same_trans hfirst (hops.same_symm hsecond)) hdiffer

end Schema

namespace Scalar

def Admits (e : Scalar) (ops : Operations) (env : Env) (s : Schema) (row : Row) : Prop :=
  ∃ (id : Value) (hid : id ≠ .null), (e.eval (ops.drawing id hid) env s row).truth = .true

def Counts (e : Scalar) (ops : Operations) (env : Env) (n : Nat) : Prop :=
  (e.eval ops env .empty []).int? = some (n : Int)

end Scalar

namespace Plan

/-- The inputs whose rows come in. The right side of a join may run for each left row. -/
def feeds : Plan → List Plan
  | .join left _ _ => [left]
  | p => p.children

theorem feeds_subset (p : Plan) : p.feeds ⊆ p.children := by
  cases p <;> simp [feeds, children]

/-- What an operator can make of the rows that come in. -/
def Turns (ops : Operations) (env : Env) (incoming out : List Row) : Plan → Prop
  | .constant _ rows => out.length = rows.length
  | .aggregate _ spec =>
    if spec.groupBy.isEmpty then out.length = 1 else out.length ≤ incoming.length
  | .top _ count percent withTies =>
    out.length ≤ incoming.length ∧
      (percent = false → withTies = false → ∀ n, count.Counts ops env n → out.length ≤ n)
  | .offset _ _ fetch =>
    out.length ≤ incoming.length ∧ ∀ e ∈ fetch, ∀ n, e.Counts ops env n → out.length ≤ n
  | .filter input e =>
    out.length ≤ incoming.length ∧ ∀ row ∈ out, e.Admits ops env input.schema row
  | .join _ _ spec => spec.isSemi → out.length ≤ incoming.length
  | .distinct .. | .assert .. => out.length ≤ incoming.length
  | .compute .. | .sort .. | .rename .. | .segment .. | .sequence .. | .concat .. =>
    out.length = incoming.length
  | .scan _ | .spool .. | .consumer .. | .function _ => True

/-- The rows that a plan can produce, where each operator's key tells its rows apart. -/
inductive Runs (ops : Operations) (env : Env) : Plan → List Row → Prop where
  | operator {p : Plan} {inputs : List (List Row)} {out : List Row} :
    List.Forall₂ (Runs ops env) p.feeds inputs → p.Turns ops env inputs.flatten out →
    p.schema.TellsApart ops out → Runs ops env p out

variable {ops : Operations} {env : Env} {out : List Row}

theorem runs_scan {s : Scan} (h : (scanSchema s).TellsApart ops out) :
    (Plan.scan s).Runs ops env out :=
  .operator .nil trivial h

theorem runs_unary {p input : Plan} (hfeeds : p.feeds = [input]) (hinput : input.Runs ops env rows)
    (hturns : p.Turns ops env rows out) (hapart : p.schema.TellsApart ops out) :
    p.Runs ops env out := by
  have hinputs : List.Forall₂ (Runs ops env) p.feeds [rows] := hfeeds ▸ .cons hinput .nil
  refine .operator hinputs ?_ hapart
  rw [List.flatten_singleton]
  exact hturns

end Plan

end BatchPlan
