import BatchPlan.Proofs.Caching.Rebuild
import BatchPlan.Proofs.Correlation.Params

namespace BatchPlan

namespace Plan

variable {param : String} {p q : Plan}

/-- The inputs of an operator, each with the parameters that the operator sets for it. -/
def inputs : Plan → List (List String × Plan)
  | .join left right spec => [([], left), (spec.strategy.bindings.map (·.param), right)]
  | p => p.children.map fun child => ([], child)

/-- An operator stands in a plan where the operators above it, from the top, set some parameters. -/
inductive Stands : List String → Plan → Plan → Prop
  | top (p : Plan) : Stands [] p p
  | inside {p input q : Plan} {own bound : List String} (hinput : (own, input) ∈ p.inputs)
    (hq : Stands bound input q) : Stands (own ++ bound) p q

/-- A plan reads what its top operator reads, and what its inputs read and the operator does not
set. -/
theorem mem_params :
    param ∈ p.params ↔ param ∈ p.expressions.flatMap Scalar.params ++
      p.inputs.flatMap fun i => i.2.params.filter fun param => !i.1.contains param := by
  cases p with
  | aggregate => simp [expressions, inputs, children, List.flatMap_assoc, - List.mem_flatMap]
  | _ => simp [expressions, inputs, children, List.flatMap_map]

theorem Stands.mem_params {bound : List String} (h : Stands bound p q) {e : Scalar}
    (he : e ∈ q.expressions) (hparam : param ∈ e.params) : param ∈ bound ∨ param ∈ p.params := by
  induction h with
  | top p => exact .inr (Plan.mem_params.2 (by grind))
  | @inside p input q own bound hinput _ ih =>
    by_cases hown : param ∈ own
    · exact .inl (List.mem_append.2 (.inl hown))
    · refine (ih he).imp (fun h => List.mem_append.2 (.inr h)) fun h => ?_
      exact Plan.mem_params.2 (List.mem_append.2 (.inr
        (List.mem_flatMap.2 ⟨_, hinput, List.mem_filter.2 ⟨h, by simpa using hown⟩⟩)))

theorem params_withChildren {inputs : List Plan} (h : p.withChildren inputs = .ok q)
    (hinputs : inputs.map params = p.children.map params) : q.params = p.params := by
  apply eq_of_standIns params params
    (fun p => .constant [] [p.params.map fun param => .outer param .null]) _ h
  · have hstandIns := congrArg (List.map fun names : List String =>
      constant [] [names.map fun param => .outer param .null]) hinputs
    rwa [List.map_map, List.map_map] at hstandIns
  · intro p
    cases p <;> simp [children, withChildren, Except.map, List.flatMap_map]

end Plan

theorem CachingPolicy.params_insertSpools {policy : CachingPolicy} {p q : Plan}
    (h : policy.insertSpools p = .ok q) : q.params = p.params := by
  have hspools : SpoolInvariant fun p _ q _ => q.params = p.params :=
    ⟨fun h h' => h'.trans h, fun _ _ => by rw [Plan.params],
      fun hinputs hq => Plan.params_withChildren hq hinputs.map_eq⟩
  exact (hspools.insertSpools h).elim fun _ h => h

theorem Plan.Improved.params_eq {o : Options} {p q : Plan} (h : p.Improved o q) :
    q.params = p.params := by
  obtain rfl | h := h
  · rfl
  · exact CachingPolicy.params_insertSpools h

end BatchPlan
