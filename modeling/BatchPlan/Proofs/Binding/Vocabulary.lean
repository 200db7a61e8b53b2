import BatchPlan.Proofs.Binding.Account
import BatchPlan.Proofs.Caching.Rebuild

namespace BatchPlan

/-- The variables, with their types, and the stored tables that may be read. -/
structure Vocabulary where
  var : String → DataType → Prop
  scan : Scan → Prop

def Vocabulary.all : Vocabulary :=
  ⟨fun _ _ => True, fun _ => True⟩

namespace Scalar

def var? : Scalar → Option (String × DataType)
  | .var name type => some (name, type)
  | _ => none

def vars (e : Scalar) : List (String × DataType) :=
  e.parts.filterMap var?

theorem vars_eq (e : Scalar) : e.vars = e.var?.toList ++ e.operands.flatMap vars := by
  unfold vars
  rw [parts_eq, List.filterMap_cons]
  cases e.var? <;> simp [List.filterMap_flatMap]

def UsesOnly (e : Scalar) (V : Vocabulary) : Prop :=
  ∀ v ∈ e.vars, V.var v.1 v.2

variable {V : Vocabulary} {e : Scalar}

theorem usesOnly_iff : e.UsesOnly V ↔
    (∀ v ∈ e.var?, V.var v.1 v.2) ∧ ∀ d ∈ e.operands, d.UsesOnly V := by
  unfold UsesOnly
  rw [vars_eq, List.forall_mem_append, List.forall_mem_flatMap]
  simp only [Option.mem_toList, Option.mem_def]

theorem usesOnly_var {name : String} {type : DataType} :
    (var name type).UsesOnly V ↔ V.var name type := by
  rw [usesOnly_iff]
  simp [operands, var?]

theorem usesOnly_of_operands (h : ∀ d ∈ e.operands, d.UsesOnly V) (he : e.var? = none := by rfl) :
    e.UsesOnly V :=
  usesOnly_iff.2 ⟨by simp [he], h⟩

@[simp]
theorem usesOnly_column (c : Column) : (column c).UsesOnly V := usesOnly_of_operands nofun

@[simp]
theorem usesOnly_literal (v : Value) : (literal v).UsesOnly V := usesOnly_of_operands nofun

@[simp]
theorem usesOnly_outer (param : String) (type : DataType) : (outer param type).UsesOnly V :=
  usesOnly_of_operands nofun

@[simp]
theorem usesOnly_binary {l r : Scalar} {op : BinaryOp} :
    (binary l op r).UsesOnly V ↔ l.UsesOnly V ∧ r.UsesOnly V := by
  rw [usesOnly_iff]
  simp [operands, var?]

theorem usesOnly_of_madeOf {values : List Scalar} (h : e.MadeOf values)
    (hvalues : ∀ v ∈ values, v.UsesOnly V) : e.UsesOnly V := by
  intro v hv
  obtain ⟨part, hpart, hvar⟩ := List.mem_filterMap.1 hv
  have hleaf : part.isLeaf := by
    cases part <;> first | rfl | cases hvar
  obtain ⟨value, hvalue, hpart⟩ := h part hpart hleaf
  exact hvalues value hvalue v (List.mem_filterMap.2 ⟨part, hpart, hvar⟩)

end Scalar

theorem Scalar.usesOnly_all (e : Scalar) : e.UsesOnly .all :=
  fun _ _ => trivial

namespace Plan

variable {V : Vocabulary} {p q left right : Plan}

/-- An operator reads variables and tables of a vocabulary only. -/
structure OperatesOn (p : Plan) (V : Vocabulary) : Prop where
  expressions : ∀ e ∈ p.expressions, e.UsesOnly V
  scan : ∀ s, p = .scan s → V.scan s

def UsesOnly (p : Plan) (V : Vocabulary) : Prop :=
  ∀ q ∈ p.operators, q.OperatesOn V

theorem usesOnly_all (p : Plan) : p.UsesOnly .all :=
  fun _ _ => ⟨fun e _ => e.usesOnly_all, fun _ _ => trivial⟩

theorem usesOnly_iff : p.UsesOnly V ↔ p.OperatesOn V ∧ ∀ q ∈ p.children, q.UsesOnly V :=
  forall_operators

@[simp]
theorem usesOnly_scan {s : Scan} : (scan s).UsesOnly V ↔ V.scan s := by
  rw [usesOnly_iff]
  refine ⟨fun h => h.1.scan s rfl, fun h => ⟨⟨nofun, ?_⟩, nofun⟩⟩
  rintro _ ⟨⟩
  exact h

theorem usesOnly_of_children (hchildren : ∀ q ∈ p.children, q.UsesOnly V)
    (hexpressions : ∀ e ∈ p.expressions, e.UsesOnly V) (hp : ∀ s, p ≠ .scan s := by simp) :
    p.UsesOnly V :=
  usesOnly_iff.2 ⟨⟨hexpressions, fun s h => absurd h (hp s)⟩, hchildren⟩

theorem usesOnly_consumer (id : Nat) (schema : Schema) : (consumer id schema).UsesOnly V :=
  usesOnly_of_children nofun (by simp [expressions])

theorem usesOnly_concat {inputs : List Plan} {columns : List ConcatColumn} :
    (concat inputs columns).UsesOnly V ↔ ∀ p ∈ inputs, p.UsesOnly V :=
  ⟨fun h => (usesOnly_iff.1 h).2, fun h => usesOnly_of_children h (by simp [expressions])⟩

namespace UsesOnly

theorem above (h : p.UsesOnly V) (hchildren : q.children = [p])
    (hexpressions : ∀ e ∈ q.expressions, e.UsesOnly V) : q.UsesOnly V := by
  refine usesOnly_of_children (by simpa [hchildren] using h) hexpressions ?_
  rintro s rfl
  cases hchildren

theorem join (hleft : left.UsesOnly V) (hright : right.UsesOnly V) {spec : JoinSpec}
    (hexpressions : ∀ e ∈ (Plan.join left right spec).expressions, e.UsesOnly V) :
    (Plan.join left right spec).UsesOnly V :=
  usesOnly_of_children (by simp [children, hleft, hright]) hexpressions

theorem bounded (h : p.UsesOnly V) (level : Column) (bound : Nat) :
    (p.bounded level bound).UsesOnly V := by
  unfold Plan.bounded
  split
  · exact h
  · exact h.above rfl (by simp [Plan.expressions, Scalar.ltEq, Scalar.int])

end UsesOnly

end Plan

/-- Plans read variables and tables of a vocabulary, at any time. A time is the number of queries
around. -/
def Account.ofVocabulary (V : Vocabulary) : Account where
  World := Nat
  order :=
    { le := Eq, lt := fun a b => a = b ∧ ¬b = a, le_refl := fun _ => rfl,
      le_trans := fun _ _ _ => Eq.trans }
  Value _ e := e.UsesOnly V
  Rows _ _ p := p.UsesOnly V
  Pair _ _ p q := p.UsesOnly V ∧ q.UsesOnly V
  Stored := V.scan
  Fresh w _ w' := w = w'
  View := Unit
  query _ := ()
  apply _ _ := ()
  Owns _ _ _ := True
  inside _ _ w := w + 1
  recursing _ w := w
  Sees w levels := levels.length ≤ w
  Around w levels := levels.length ≤ w + 1
  Feeds w levels := levels.length ≤ w + 1
  value_later _ h := h
  value_given _ := Scalar.usesOnly_column _
  value_made := Scalar.usesOnly_of_madeOf
  value_operand h hd := (Scalar.usesOnly_iff.1 h).2 _ hd
  value_inside _ _ h := h
  value_param _ _ := Scalar.usesOnly_outer _ _
  owns_later _ h := h
  inside_later _ _ h := congrArg Nat.succ h
  recursing_later _ h := h
  fresh_inside _ _ h := congrArg Nat.succ h
  rows_mono _ _ h := h
  rows_above h _ hchildren hvalues _ := h.above hchildren hvalues
  rows_leaf _ _ hchildren hscan hvalues _ :=
    Plan.usesOnly_of_children (by simp [hchildren]) hvalues hscan
  rows_scan _ := Plan.usesOnly_scan.2
  pair := .intro
  pair_symm := .symm
  pair_later _ h := h
  pair_above h _ hchildren hvalues _ := ⟨h.1.above hchildren hvalues, h.2⟩
  rows_join h _ hvalues _ := h.1.join h.2 hvalues
  rows_keep h _ _ hvalues _ := h.1.join (h.2.above rfl (by simp [Plan.expressions])) hvalues
  rows_loop hp hq _ hvalues _ := hp.join hq hvalues
  rows_uncorrelated h _ := h
  rows_more _ h := h
  rows_top _ h := h
  rows_spool h _ _ := h.above rfl (by simp [Plan.expressions])
  rows_replay _ _ _ hp _ _ hchildren hvalues _ hspec _ _ := by
    refine .join (hp.above rfl (by simp [Plan.expressions]))
      (.join (.above (Plan.usesOnly_consumer _ _) hchildren hvalues)
        (Plan.usesOnly_consumer _ _) ?_) ?_
    · simp [Plan.expressions]
    · exact fun e he => absurd (hspec ▸ he : e ∈ []) List.not_mem_nil
  rows_stack _ _ _ hp hq _ _ hspec _ := by
    refine .above (Plan.usesOnly_concat.2 (List.forall_mem_cons.2 ⟨hp, List.forall_mem_singleton.2
      (.bounded (.join (Plan.usesOnly_consumer _ _) hq fun e he => ?_) _ _)⟩))
        rfl (by simp [Plan.expressions])
    exact absurd (hspec ▸ he : e ∈ []) List.not_mem_nil
  rows_steps _ h := h
  rows_append h hp := Plan.usesOnly_concat.2
    (List.forall_mem_append.2 ⟨Plan.usesOnly_concat.1 h, List.forall_mem_singleton.2 hp⟩)
  rows_columns _ h := Plan.usesOnly_concat.2 (Plan.usesOnly_concat.1 h)
  rows_single h := Plan.usesOnly_concat.1 h _ (List.mem_singleton.2 rfl)
  sees_later h := h ▸ id
  around_later h := h ▸ id
  feeds_later h := h ▸ id
  sees_nil := Nat.zero_le
  around_nil _ := Nat.zero_le _
  around_of_sees _ := Nat.succ_le_succ
  around_of_feeds h := h
  sees_inside _ h := h
  feeds_inside _ := Nat.succ_le_succ
  feeds_apply _ _ := Nat.succ_le_succ

end BatchPlan
