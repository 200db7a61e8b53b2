import BatchPlan.Plan.Caching
import Mathlib.Data.List.Basic

namespace BatchPlan

namespace Plan

variable {P : Plan → Nat → Plan → Nat → Prop} {ps qs : List Plan} {n m : Nat} {r : Rebuild CacheM}
  {β : Type}

mutual

theorem byChildren {motive : Plan → Prop}
    (step : ∀ p : Plan, (∀ child ∈ p.children, motive child) → motive p) : ∀ p : Plan, motive p
  | .scan _ | .consumer .. | .constant .. | .function _ => step _ (by simp [children])
  | .filter input _ | .compute input _ | .aggregate input _ | .sort input _ | .segment input _ _
  | .sequence input _ | .distinct input _ | .top input _ _ _ | .offset input
    _ _ | .spool _ input _ _
  | .rename input _ _ | .assert input _ _ =>
    step _ (by simpa [children] using byChildren step input)
  | .join left right _ => step _ (by
      simpa [children] using ⟨byChildren step left, byChildren step right⟩)
  | .concat inputs _ => step _ (allByChildren step inputs)

theorem allByChildren {motive : Plan → Prop}
    (step : ∀ p : Plan, (∀ child ∈ p.children, motive child) → motive p) :
    ∀ plans : List Plan, ∀ p ∈ plans, motive p
  | [] => by simp
  | p :: rest => by
    rw [List.forall_mem_cons]
    exact ⟨byChildren step p, allByChildren step rest⟩

end

theorem outlines_eq (depth : Nat) (plans : List Plan) :
    outlines depth plans = plans.flatMap (outline depth) := by
  induction plans with
  | nil => rw [outlines, List.flatMap_nil]
  | cons p rest ih => rw [outlines, ih, List.flatMap_cons]

theorem outline_eq (depth : Nat) (p : Plan) :
    p.outline depth = (depth, p) :: p.children.flatMap (outline (depth + 1)) := by
  cases p <;> simp [outline, children, outlines_eq]

theorem map_outline (depth : Nat) (p : Plan) : (p.outline depth).map (·.2) = p.operators := by
  induction p using byChildren generalizing depth with
  | step p ih =>
    have hchildren (d : Nat) : (p.children.flatMap (outline d)).map (·.2) =
        p.children.flatMap operators := by
      rw [List.map_flatMap]
      exact List.flatMap_congr fun child hchild => ih child hchild d
    rw [operators, outline_eq depth, outline_eq 0, List.map_cons, List.map_cons,
      hchildren, hchildren]

theorem operators_eq (p : Plan) : p.operators = p :: p.children.flatMap operators := by
  rw [operators, outline_eq, List.map_cons, List.map_flatMap]
  simp only [map_outline]

theorem forall_operators {R : Plan → Prop} {p : Plan} :
    (∀ r ∈ p.operators, R r) ↔ R p ∧ ∀ q ∈ p.children, ∀ r ∈ q.operators, R r := by
  rw [operators_eq, List.forall_mem_cons]
  simp only [List.mem_flatMap, forall_exists_index, and_imp]
  exact and_congr_right fun _ => ⟨fun h q hq r hr => h r q hq hr, fun h r q hq hr => h q hq r hr⟩

section

variable {p q : Plan} {inputs : List Plan}

theorem withChildren_children (p : Plan) : p.withChildren p.children = .ok p := by
  cases p <;> simp [withChildren, children]

theorem of_withChildren (h : p.withChildren inputs = .ok q) :
    q.children = inputs ∧ (∀ others, q.withChildren others = p.withChildren others) ∧
      q.producer? = p.producer? ∧ q.consumed? = p.consumed? := by
  cases p with
  | scan | consumer | constant | function =>
    cases inputs <;> cases h
    exact ⟨rfl, fun _ => rfl, rfl, rfl⟩
  | concat old columns =>
    simp only [withChildren] at h
    split at h <;> cases h
    next hlength =>
      exact ⟨rfl, fun others => by
        simp [withChildren, withChildren.wrongInputs, children, name, hlength], rfl, rfl⟩
  | join =>
    rcases inputs with _ | ⟨left, _ | ⟨right, _ | _⟩⟩ <;> cases h
    exact ⟨rfl, fun others => by rcases others with _ | ⟨_, _ | ⟨_, _ | _⟩⟩ <;> rfl, rfl, rfl⟩
  | _ =>
    rcases inputs with _ | ⟨input, _ | _⟩ <;> cases h
    exact ⟨rfl, fun others => by rcases others with _ | ⟨_, _ | _⟩ <;> rfl, rfl, rfl⟩

/-- What depends on the inputs of an operator only as far as their stand-ins tell. -/
theorem eq_of_standIns (f g : Plan → β) (standIn : Plan → Plan)
    (hf : ∀ p : Plan, (p.withChildren (p.children.map standIn)).map g = .ok (f p))
    (h : p.withChildren inputs = .ok q) (hinputs : inputs.map standIn = p.children.map standIn) :
    f q = f p := by
  have hq := hf q
  rw [(of_withChildren h).1, hinputs, (of_withChildren h).2.1, hf p] at hq
  exact (Except.ok.inj hq).symm

end

/-- Plans are replaced one after the other, and the state is handed on. -/
inductive Chain (P : Plan → Nat → Plan → Nat → Prop) : List Plan → Nat → List Plan → Nat → Prop
  | nil (n : Nat) : Chain P [] n [] n
  | cons {p q : Plan} {ps qs : List Plan} {n m k : Nat} (hp : P p n q m) (hps : Chain P ps m qs k) :
    Chain P (p :: ps) n (q :: qs) k

theorem Chain.length_eq (h : Chain P ps n qs m) : qs.length = ps.length := by
  induction h with
  | nil => rfl
  | cons _ _ ih => rw [List.length_cons, List.length_cons, ih]

theorem Chain.refl (h : ∀ p ∈ ps, P p n p n) : Chain P ps n ps n := by
  induction ps with
  | nil => exact .nil n
  | cons p rest ih =>
    rw [List.forall_mem_cons] at h
    exact .cons h.1 (ih h.2)

theorem Chain.mono {Q : Plan → Nat → Plan → Nat → Prop} (h : Chain P ps n qs m)
    (hPQ : ∀ {p n q m}, P p n q m → Q p n q m) : Chain Q ps n qs m := by
  induction h with
  | nil n => exact .nil n
  | cons hp _ ih => exact .cons (hPQ hp) ih

theorem Chain.map_eq {f : Plan → β} (h : Chain (fun p _ q _ => f q = f p) ps n qs m) :
    qs.map f = ps.map f := by
  induction h with
  | nil => rfl
  | cons hp _ ih => rw [List.map_cons, List.map_cons, hp, ih]

theorem exists_of_run_bind {α : Type} {x : CacheM α} {f : α → CacheM β} {b : β}
    (h : (x >>= f).run n = .ok (b, m)) : ∃ a k, x.run n = .ok (a, k) ∧
    (f a).run k = .ok (b, m) := by
  rw [StateT.run_bind] at h
  obtain ⟨⟨a, k⟩, hx, hf⟩ := Result.exists_of_bind h
  exact ⟨a, k, hx, hf⟩

theorem exists_of_run_lift_bind {α : Type} {x : Except Overflow α} {f : α → CacheM β} {b : β}
    (h : ((liftM x : CacheM α) >>= f).run n = .ok (b, m)) :
    ∃ a, x = .ok a ∧ (f a).run n = .ok (b, m) := by
  cases x with
  | error e => cases h
  | ok a => exact ⟨a, rfl, h⟩

theorem run_bind_ok {α : Type} {x : CacheM α} {a : α} {k : Nat} (h : x.run n = .ok (a, k))
    (f : α → CacheM β) : (x >>= f).run n = (f a).run k := by
  rw [StateT.run_bind, h]
  rfl

theorem chain_rebuildAll {plans : List Plan}
    (h : ∀ p ∈ plans, ∀ n q m, (p.rebuild r).run n = .ok (q, m) → P p n q m)
    (hrun : (rebuildAll r plans).run n = .ok (qs, m)) : Chain P plans n qs m := by
  induction plans generalizing n qs with
  | nil =>
    rw [rebuildAll] at hrun
    cases hrun
    exact .nil m
  | cons p rest ih =>
    rw [List.forall_mem_cons] at h
    rw [rebuildAll] at hrun
    obtain ⟨q, k, hq, hrun⟩ := exists_of_run_bind hrun
    obtain ⟨qs, l, hqs, hrun⟩ := exists_of_run_bind hrun
    cases hrun
    exact .cons (h.1 n q k hq) (ih h.2 hqs)

/-- An operator with other inputs, as many as it has. -/
def remake (p : Plan) (inputs : List Plan) : Plan :=
  match p with
  | .concat _ columns => .concat inputs columns
  | _ => (p.withChildren inputs).toOption.getD p

theorem withChildren_eq {p : Plan} {inputs : List Plan} (h : inputs.length = p.children.length) :
    p.withChildren inputs = .ok (p.remake inputs) := by
  cases p with
  | concat => exact if_pos h
  | scan | consumer | constant | function =>
    rw [List.length_eq_zero_iff.1 h]
    rfl
  | join =>
    obtain ⟨left, right, rfl⟩ := List.length_eq_two.1 h
    rfl
  | _ =>
    obtain ⟨input, rfl⟩ := List.length_eq_one_iff.1 h
    rfl

theorem rebuild_eq (r : Rebuild CacheM) (p : Plan) :
    p.rebuild r = r.step p (p.remake <$> rebuildAll r p.children) := by
  cases p with
  | concat =>
    rw [rebuild, ← map_eq_pure_bind]
    rfl
  | _ => simp [rebuild, children, rebuildAll, remake, withChildren, Except.toOption]

/-- What rebuilding makes of a plan, if it does not end early: the operator with rebuilt inputs, or
what is put in its place then. -/
theorem cases_of_rebuild {p q : Plan} (h : (p.rebuild r).run n = .ok (q, m)) :
    (r.early p).run n = .ok (some q, m) ∨
    ∃ k inputs l q', (r.early p).run n = .ok (none, k) ∧
    (rebuildAll r p.children).run k = .ok (inputs, l) ∧
      p.withChildren inputs = .ok q' ∧ (r.late q').run l = .ok (q, m) := by
  rw [rebuild_eq] at h
  obtain ⟨early, k, hearly, h⟩ := exists_of_run_bind h
  cases early with
  | some q =>
    cases h
    exact .inl hearly
  | none =>
    obtain ⟨q', l, hdeeper, hlate⟩ := exists_of_run_bind h
    rw [map_eq_pure_bind] at hdeeper
    obtain ⟨inputs, _, hinputs, hdeeper⟩ := exists_of_run_bind hdeeper
    cases hdeeper
    refine .inr ⟨k, inputs, l, _, hearly, hinputs, withChildren_eq ?_, hlate⟩
    exact (chain_rebuildAll (P := fun _ _ _ _ => True)
      (fun _ _ _ _ _ _ => trivial) hinputs).length_eq

/-- A relation that holds of every early answer, and of every operator with inputs that are
related. -/
theorem of_rebuild (early : ∀ {p n q m}, (r.early p).run n = .ok (some q, m) → P p n q m)
    (late : ∀ {p n k inputs l q m q'}, (r.early p).run n = .ok (none, k) →
      Chain P p.children k inputs l →
      p.withChildren inputs = .ok q' → (r.late q').run l = .ok (q, m) → P p n q m)
    {p q : Plan} (h : (p.rebuild r).run n = .ok (q, m)) : P p n q m := by
  induction p using byChildren generalizing n q m with
  | step p ih =>
    obtain hearly | ⟨k, inputs, l, q', hearly, hinputs, hq', hlate⟩ := cases_of_rebuild h
    · exact early hearly
    · exact late hearly (chain_rebuildAll (fun p hp n q m => ih p hp) hinputs) hq' hlate

/-- A part of an inner side that can be kept in a spool: it reads nothing that may change from row
to row, and is worth it. -/
structure Cacheable (p : Plan) : Prop where
  params : p.params = []
  readsSpool : p.readsSpool = false
  constant : ∀ columns rows, p ≠ .constant columns rows
  producer : p.producer? = none

end Plan

theorem CacheM.of_nextSpool {n m id : Nat} (h : CacheM.nextSpool.run n = .ok (id, m)) :
    n + 1 < UInt64.size ∧ id = n + 1 ∧ m = n + 1 := by
  change (if n + 1 < UInt64.size then .ok (n + 1, n + 1) else .error Overflow.spools) =
    Except.ok (id, m) at h
  split at h
  · cases h
    exact ⟨‹_›, rfl, rfl⟩
  · cases h

namespace CachingPolicy

open Plan

variable (policy : CachingPolicy) {P : Plan → Nat → Plan → Nat → Prop}

theorem cases_of_cacheHere {outerRows : Float} {p : Plan} {n m : Nat} {found : Option Plan}
    (h : (policy.cacheHere outerRows p).run n = .ok (found, m)) :
    found = some p ∧ m = n ∨
    p.Cacheable ∧ n + 1 < UInt64.size ∧ found = some (.spool (n + 1) p .lazy .table) ∧ m = n + 1 ∨
    p.producer? = none ∧ found = none ∧ m = n := by
  unfold cacheHere at h
  split at h
  · cases h
    exact .inl ⟨rfl, rfl⟩
  · cases h
    exact .inl ⟨rfl, rfl⟩
  · cases h
    exact .inl ⟨rfl, rfl⟩
  next hconstant _ hspool =>
    have hproducer : p.producer? = none := by
      cases p with
      | spool id input kind mode => exact absurd rfl (hspool id input kind mode)
      | _ => rfl
    split at h
    · cases h
      exact .inr (.inr ⟨hproducer, rfl, rfl⟩)
    next hreads =>
      simp only [isCorrelated, Bool.or_eq_true, Bool.not_eq_true',
        List.isEmpty_eq_false_iff, not_or, not_not, Bool.not_eq_true] at hreads
      obtain ⟨rows, -, h⟩ := exists_of_run_lift_bind h
      split at h
      · obtain ⟨id, l, hid, h⟩ := exists_of_run_bind h
        cases h
        obtain ⟨hword, rfl, rfl⟩ := CacheM.of_nextSpool hid
        exact .inr (.inl ⟨⟨hreads.1, hreads.2, hconstant, hproducer⟩, hword, rfl, rfl⟩)
      · cases h
        exact .inl ⟨rfl, rfl⟩

theorem of_cacheUncorrelated (stay : ∀ p n, P p n p n)
    (cache : ∀ {p n}, n + 1 < UInt64.size → p.Cacheable →
      P p n (.spool (n + 1) p .lazy .table) (n + 1))
    (inside : ∀ {p n inputs m q}, p.producer? = none → Chain P p.children n inputs m →
      p.withChildren inputs = .ok q → P p n q m) {outerRows : Float} {p q : Plan} {n m : Nat}
    (h : (policy.cacheUncorrelated outerRows p).run n = .ok (q, m)) : P p n q m := by
  refine of_rebuild (fun {p n q m} h => ?_)
    (fun {p n k inputs l q m q'} h hinputs hq' hlate => ?_) h
  · obtain ⟨hfound, rfl⟩ | ⟨hp, hword, hfound, rfl⟩ | ⟨-, hfound, -⟩ := policy.cases_of_cacheHere h
    · cases hfound
      exact stay p m
    · cases hfound
      exact cache hword hp
    · cases hfound
  · cases hlate
    obtain ⟨hfound, -⟩ | ⟨-, -, hfound, -⟩ | ⟨hproducer, -, rfl⟩ := policy.cases_of_cacheHere h
    · cases hfound
    · cases hfound
    · exact inside hproducer hinputs hq'

def spooling : Rebuild CacheM :=
  ⟨fun _ => pure none, policy.cacheBelow⟩

variable
  (inside : ∀ {p n inputs m q}, Chain P p.children n inputs m →
    p.withChildren inputs = .ok q → P p n q m)
  (below : ∀ {p n left right right' m k spec outerRows}, Chain P p.children n [left, right] m →
    p.withChildren [left, right] = .ok (.join left right spec) → spec.strategy.bindings ≠ [] →
    (policy.cacheUncorrelated outerRows right).run m = .ok (right', k) →
    P p n (.join left right' spec) k)

include inside below

/-- A relation that holds of operators with related inputs, and where an inner side is cached. -/
theorem of_spooling {p q : Plan} {n m : Nat} (h : (p.rebuild policy.spooling).run n = .ok (q, m)) :
    P p n q m := by
  refine of_rebuild (fun h => by cases h) (fun {p n k inputs l q m q'} h hinputs hq' hlate => ?_) h
  cases h
  change (policy.cacheBelow q').run l = .ok (q, m) at hlate
  unfold cacheBelow at hlate
  split at hlate
  next left right spec =>
    split at hlate
    · cases hlate
      exact inside hinputs hq'
    next hbindings =>
      obtain ⟨rows, -, hlate⟩ := exists_of_run_lift_bind hlate
      obtain ⟨right', _, hright, hlate⟩ := exists_of_run_bind hlate
      cases hlate
      cases (of_withChildren hq').1
      exact below hinputs hq' (by simpa using hbindings) hright
  · cases hlate
    exact inside hinputs hq'

theorem of_insertSpools {p q : Plan} (h : policy.insertSpools p = .ok q) :
    ∃ m, P p p.lastSpool q m := by
  obtain ⟨⟨q', m⟩, hrun, hq⟩ := Result.exists_of_bind h
  cases hq
  exact ⟨m, policy.of_spooling inside below hrun⟩

end CachingPolicy

open Plan

/-- A relation that goes on from step to step, and holds where an operator is cached and where its
inputs are replaced by related ones. -/
structure SpoolInvariant (P : Plan → Nat → Plan → Nat → Prop) : Prop where
  trans : ∀ {p n q m r k}, P p n q m → P q m r k → P p n r k
  cache : ∀ {p n}, n + 1 < UInt64.size → p.Cacheable → P p n (.spool (n + 1) p .lazy .table) (n + 1)
  inside : ∀ {p n inputs m q}, Chain P p.children n inputs m →
    p.withChildren inputs = .ok q → P p n q m

namespace SpoolInvariant

variable {P : Plan → Nat → Plan → Nat → Prop} (h : SpoolInvariant P)
    {policy : CachingPolicy} {p q : Plan}

include h

theorem refl (p : Plan) (n : Nat) : P p n p n := by
  induction p using byChildren with
  | step p ih => exact h.inside (.refl ih) (withChildren_children p)

theorem cacheUncorrelated {outerRows : Float} {n m : Nat}
    (hrun : (policy.cacheUncorrelated outerRows p).run n = .ok (q, m)) : P p n q m :=
  policy.of_cacheUncorrelated h.refl h.cache (fun _ => h.inside) hrun

theorem insertSpools (hrun : policy.insertSpools p = .ok q) : ∃ m, P p p.lastSpool q m := by
  refine policy.of_insertSpools h.inside
    (fun {p n left right right' m k spec _} hinputs hq _ hright => ?_) hrun
  exact h.trans (h.inside hinputs hq) (h.inside (p := .join left right spec)
    (.cons (h.refl left m) (.cons (h.cacheUncorrelated hright) (.nil k))) rfl)

end SpoolInvariant

namespace Plan

/-- A plan as it is, or with spools put into it. -/
def Improved (o : Options) (p q : Plan) : Prop :=
  q = p ∨ (CachingPolicy.ofOptions o).insertSpools p = .ok q

variable {o : Options} {p q : Plan}

theorem improved_of_improve (h : p.improve o.passes = .ok q) : p.Improved o q := by
  unfold improve Options.passes at h
  split at h
  · rw [List.foldlM_cons] at h
    obtain ⟨q', hq', h⟩ := Result.exists_of_bind h
    cases h
    exact .inr hq'
  · cases h
    exact .inl rfl

theorem improved_of_ite {b : Bool} (h : (if b then .ok p else p.improve o.passes) = .ok q) :
    p.Improved o q := by
  split at h
  · cases h
    exact .inl rfl
  · exact improved_of_improve h

end Plan

end BatchPlan
