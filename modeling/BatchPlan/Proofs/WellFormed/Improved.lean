import BatchPlan.Proofs.Caching.Schema
import BatchPlan.Proofs.Caching.Spools
import BatchPlan.Proofs.WellFormed.Plans

namespace BatchPlan

variable {p : Plan} {R : Plan → Prop}

namespace Plan

/-- A property of operators that depends on the fields and keys of their inputs only. -/
def Orderless (R : Plan → Prop) : Prop :=
  ∀ {p q : Plan} {inputs : List Plan}, p.withChildren inputs = .ok q →
    inputs.map (·.schema.unordered) = p.children.map (·.schema.unordered) → R p → R q

/-- It is enough to look at operators over inputs that only have these fields and keys. -/
theorem orderless_of_standIns (h : ∀ p : Plan,
    (p.withChildren (p.children.map fun q => .consumer 0 q.schema.unordered)).map R = .ok (R p)) :
    Orderless R := by
  intro p q inputs hq hinputs hp
  have hstandIns := congrArg (List.map (consumer 0)) hinputs
  rw [List.map_map, List.map_map] at hstandIns
  rwa [eq_of_standIns R R _ h hq hstandIns]

/-- A plan has the fields and the key of another, and a property of all operators of it too. -/
structure Inherits (R : Plan → Prop) (p : Plan) (n : Nat) (q : Plan) (m : Nat) : Prop where
  unordered : q.schema.unordered = p.schema.unordered
  operators : (∀ r ∈ p.operators, R r) → ∀ r ∈ q.operators, R r

theorem Inherits.inside (hR : Orderless R) {q : Plan} {inputs : List Plan} {n m : Nat}
    (hinputs : Chain (Inherits R) p.children n inputs m) (hq : p.withChildren inputs = .ok q) :
    Inherits R p n q m := by
  have hunordered := (hinputs.mono fun h => h.unordered).map_eq
  refine ⟨unordered_withChildren hq hunordered, fun h => ?_⟩
  rw [forall_operators] at h ⊢
  refine ⟨hR hq hunordered h.1, fun child hchild => ?_⟩
  rw [(of_withChildren hq).1] at hchild
  obtain ⟨old, hold, _, _, hinherits⟩ := hinputs.exists_of_mem hchild
  exact hinherits.operators (h.2 old hold)

end Plan

section

open Plan

variable {R : Plan → Prop} (hR : Orderless R) (hspool : ∀ id p, R (.spool id p .lazy .table))

include hR hspool

theorem CachingPolicy.inherits_insertSpools {policy : CachingPolicy} {p q : Plan}
    (hq : policy.insertSpools p = .ok q) : ∃ m, Inherits R p p.lastSpool q m := by
  refine SpoolInvariant.insertSpools ⟨fun h h' => ?_, fun _ hp => ?_, .inside hR⟩ hq
  · exact ⟨h'.unordered.trans h.unordered, h'.operators ∘ h.operators⟩
  · exact ⟨unordered_cache _ hp,
      fun h => forall_operators.2 ⟨hspool _ _, List.forall_mem_singleton.2 h⟩⟩

theorem Plan.Improved.operators {o : Options} {q : Plan} (hq : p.Improved o q)
    (h : ∀ r ∈ p.operators, R r) : ∀ r ∈ q.operators, R r := by
  obtain rfl | hq := hq
  · exact h
  · obtain ⟨_, hinherits⟩ := CachingPolicy.inherits_insertSpools hR hspool hq
    exact hinherits.operators h

end

namespace Plan

/-- A well-formed plan, as it is or improved. -/
def Finished (p : Plan) : Prop :=
  ∃ (q : Plan) (o : Options), q.WellFormed ∧ q.Improved o p

theorem WellFormed.finished (h : p.WellFormed) : p.Finished :=
  ⟨p, {}, h, .inl rfl⟩

end Plan

end BatchPlan
