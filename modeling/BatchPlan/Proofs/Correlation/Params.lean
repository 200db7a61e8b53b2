import BatchPlan.Proofs.Binding.Operands

namespace BatchPlan

namespace Scalar

@[simp, grind =]
theorem params_column (c : Column) : (column c).params = [] := rfl

@[simp, grind =]
theorem params_literal (v : Value) : (literal v).params = [] := rfl

@[simp, grind =]
theorem params_outer (param : String) (type : DataType) : (outer param type).params = [param] := rfl

@[simp, grind =]
theorem params_binary (l : Scalar) (op : BinaryOp) (r : Scalar) :
    (binary l op r).params = l.params ++ r.params := by
  rw [params, parts, List.filterMap_cons_none rfl, List.filterMap_append, params, params]

theorem mem_params_of_madeOf {values : List Scalar} {e : Scalar} (h : e.MadeOf values) {p : String}
    (hp : p ∈ e.params) : p ∈ values.flatMap params := by
  obtain ⟨part, hpart, hparam⟩ := List.mem_filterMap.1 hp
  have hleaf : part.isLeaf := by
    cases part <;> first | rfl | cases hparam
  obtain ⟨value, hvalue, hpart⟩ := h part hpart hleaf
  exact List.mem_flatMap.2 ⟨value, hvalue, List.mem_filterMap.2 ⟨part, hpart, hparam⟩⟩

theorem params_operand {e d : Scalar} (h : d ∈ e.operands) : d.params ⊆ e.params := by
  intro p hp
  obtain ⟨part, hpart, hparam⟩ := List.mem_filterMap.1 hp
  refine List.mem_filterMap.2 ⟨part, ?_, hparam⟩
  rw [parts_eq e]
  exact List.mem_cons_of_mem _ (List.mem_flatMap.2 ⟨d, h, hpart⟩)

end Scalar

namespace Plan

attribute [simp, grind =] params

@[simp, grind =]
theorem paramsOfList_eq (ps : List Plan) : paramsOfList ps = ps.flatMap params := by
  induction ps with
  | nil => simp [paramsOfList]
  | cons p ps ih => simp [paramsOfList, ih]

@[simp, grind =]
theorem params_summary (p : Plan) (values : List AggregateValue) :
    (p.summary values).params = (values.flatMap fun v => v.args.flatMap Scalar.params) ++
      p.params := by
  simp [summary]

@[simp, grind =]
theorem params_bounded (p : Plan) (level : Column) (bound : Nat) :
    (p.bounded level bound).params = p.params := by
  unfold bounded
  split <;> simp [Scalar.ltEq, Scalar.int]

end Plan

end BatchPlan
