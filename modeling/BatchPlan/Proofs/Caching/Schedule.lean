import BatchPlan.Proofs.Caching.Spools

namespace BatchPlan

namespace Plan

variable {p q : Plan} {available available' : List Nat} {first n m : Nat}

theorem firstRepeated_eq_none {seen ids : List Nat} :
    firstRepeated seen ids = none ↔ ids.Nodup ∧ ∀ id ∈ ids, id ∉ seen := by
  induction ids generalizing seen with
  | nil => simp [firstRepeated]
  | cons id rest ih =>
    by_cases hid : id ∈ seen
    · simp [firstRepeated, hid]
    · simp only [firstRepeated, List.contains_eq_mem, hid, decide_false,
        Bool.false_eq_true, if_false, ih, List.nodup_cons, List.mem_cons, forall_eq_or_imp, not_or]
      grind

theorem validateSpools_eq_ok :
    p.validateSpools = .ok () ↔ p.producers.Nodup ∧ p.checkConsumers [] = .ok () := by
  unfold validateSpools
  cases hrepeated : firstRepeated [] p.producers with
  | none =>
    have hnodup := (firstRepeated_eq_none.1 hrepeated).1
    exact ⟨fun h => ⟨hnodup, h⟩, And.right⟩
  | some id =>
    refine ⟨fun h => (by cases h), fun h => ?_⟩
    rw [firstRepeated_eq_none.2 ⟨h.1, by simp⟩] at hrepeated
    cases hrepeated

theorem bind_eq_ok {x : Result Unit} {f : Unit → Result Unit} :
    x >>= f = .ok () ↔ x = .ok () ∧ f () = .ok () := by
  cases x with
  | error e => exact ⟨fun h => (by cases h), fun h => (by cases h.1)⟩
  | ok => exact ⟨fun h => ⟨rfl, h⟩, And.right⟩

theorem checkAllConsumers_eq_ok {plans : List Plan} :
    checkAllConsumers available plans = .ok () ↔ ∀ p ∈ plans,
      p.checkConsumers available = .ok () := by
  induction plans with
  | nil => simp [checkAllConsumers]
  | cons p rest ih => rw [checkAllConsumers, bind_eq_ok, ih, List.forall_mem_cons]

def JoinStrategy.offers (strategy : JoinStrategy) (left : Plan) : List Nat :=
  match strategy with
  | .nestedLoop _ => left.producers
  | _ => []

theorem checkConsumers_join {left right : Plan} {spec : JoinSpec} :
    (join left right spec).checkConsumers available = .ok () ↔
      left.checkConsumers available = .ok () ∧
      right.checkConsumers (JoinStrategy.offers spec.strategy left ++ available) = .ok () := by
  rw [checkConsumers, bind_eq_ok]
  cases spec.strategy <;> rfl

def Agree (first : Nat) (available available' : List Nat) : Prop :=
  ∀ id, id ≤ first → (id ∈ available' ↔ id ∈ available)

theorem Agree.append {more more' : List Nat} (h : Agree first available available')
    (hmore : Agree first more more') : Agree first (more ++ available) (more' ++ available') := by
  intro id hid
  rw [List.mem_append, List.mem_append, hmore id hid, h id hid]

/-- A plan with more spools is in order where the plan without them is. -/
structure Schedules (first : Nat) (p : Plan) (n : Nat) (q : Plan) (m : Nat) : Prop where
  adds : Adds p n q m
  check : first ≤ n → (∀ id ∈ p.consumed, id ≤ first) → ∀ available available',
    Agree first available available' →
      (q.checkConsumers available' = .ok () ↔ p.checkConsumers available = .ok ())

theorem mem_consumed_of_child {child : Plan} {id : Nat} (hchild : child ∈ p.children)
    (h : id ∈ child.consumed) : id ∈ p.consumed := by
  rw [consumed_eq]
  exact List.mem_append_right _ (List.mem_flatMap.2 ⟨child, hchild, h⟩)

theorem Adds.agree (h : Adds p n q m) (hfirst : first ≤ n) :
    Agree first p.producers q.producers := by
  intro id hid
  rw [h.producers.mem_iff, List.mem_append, List.mem_range'_1]
  exact or_iff_left (by omega)

theorem Adds.agree_offers (h : Adds p n q m) (hfirst : first ≤ n) (strategy : JoinStrategy) :
    Agree first (JoinStrategy.offers strategy p) (JoinStrategy.offers strategy q) := by
  cases strategy with
  | nestedLoop => exact h.agree hfirst
  | _ => exact fun _ _ => Iff.rfl

theorem Chain.forall_checkConsumers {ps qs : List Plan} (h : Chain (Schedules first) ps n qs m)
    (hfirst : first ≤ n) (hconsumed : ∀ p ∈ ps, ∀ id ∈ p.consumed, id ≤ first)
    (hagree : Agree first available available') :
    (∀ q ∈ qs, q.checkConsumers available' = .ok ()) ↔
    ∀ p ∈ ps, p.checkConsumers available = .ok () := by
  induction h with
  | nil => simp
  | cons hp _ ih =>
    rw [List.forall_mem_cons] at hconsumed ⊢
    rw [List.forall_mem_cons, hp.check hfirst hconsumed.1 _ _ hagree,
      ih (Nat.le_trans hfirst hp.adds.le) hconsumed.2]

theorem Schedules.inside {inputs : List Plan}
    (hinputs : Chain (Schedules first) p.children n inputs m)
    (hq : p.withChildren inputs = .ok q) : Schedules first p n q m := by
  refine ⟨.inside (hinputs.mono fun h => h.adds) hq,
    fun hfirst hconsumed available available' hagree => ?_⟩
  have hchildren (child : Plan) (hmem : child ∈ p.children) : ∀ id ∈ child.consumed, id ≤ first :=
    fun id hid => hconsumed id (mem_consumed_of_child hmem hid)
  have hall {available available' : List Nat} (hagree : Agree first available available') :=
    hinputs.forall_checkConsumers hfirst hchildren hagree
  cases p with
  | scan | constant | function =>
    cases inputs <;> cases hq
    simp [checkConsumers]
  | consumer producer schema =>
    cases inputs <;> cases hq
    have hproducer := hagree producer
      (hconsumed producer (by rw [consumed_eq]; exact List.mem_cons_self))
    simp [checkConsumers, hproducer]
  | concat old columns =>
    simp only [withChildren] at hq
    split at hq <;> cases hq
    rw [checkConsumers, checkConsumers, checkAllConsumers_eq_ok, checkAllConsumers_eq_ok]
    exact hall hagree
  | join left right spec =>
    obtain ⟨left', right', rfl, rfl⟩ := exists_of_withChildren_join hq
    rcases hinputs with _ | ⟨hleft, _ | ⟨hright, _⟩⟩
    rw [checkConsumers_join, checkConsumers_join,
      hleft.check hfirst (hchildren left (by simp [children])) _ _ hagree,
      hright.check (Nat.le_trans hfirst hleft.adds.le) (hchildren right (by simp [children])) _ _
        (hagree.append (hleft.adds.agree_offers hfirst spec.strategy))]
  | spool id input kind mode =>
    rcases inputs with _ | ⟨input', _ | _⟩ <;> cases hq
    rw [checkConsumers, checkConsumers]
    have hown : Agree first [id] [id] := fun _ _ => Iff.rfl
    simpa [children] using hall (hagree.append hown)
  | _ =>
    rcases inputs with _ | ⟨input', _ | _⟩ <;> cases hq
    rw [checkConsumers, checkConsumers]
    simpa [children] using hall hagree

theorem Schedules.refl (first : Nat) (p : Plan) (n : Nat) : Schedules first p n p n := by
  induction p using byChildren with
  | step p ih => exact .inside (.refl ih) (withChildren_children p)

theorem Schedules.trans {k : Nat} {r : Plan} (hpq : Schedules first p n q m)
    (hqr : Schedules first q m r k) : Schedules first p n r k := by
  refine ⟨hpq.adds.trans hqr.adds, fun hfirst hp available available' hagree => ?_⟩
  rw [hqr.check (Nat.le_trans hfirst hpq.adds.le) (by rwa [hpq.adds.consumed]) _ _ hagree]
  exact hpq.check hfirst hp available available fun _ _ => Iff.rfl

theorem Schedules.spool (first : Nat) (p : Plan) (hword : n + 1 < UInt64.size) (kind : SpoolKind)
    (mode : SpoolMode) : Schedules first p n (.spool (n + 1) p kind mode) (n + 1) := by
  refine ⟨.spool p hword kind mode, fun hfirst hp available available' hagree => ?_⟩
  have hnew : Agree first [] [n + 1] := by
    intro id hid
    simp only [List.mem_singleton, List.not_mem_nil, iff_false]
    omega
  rw [checkConsumers]
  exact (Schedules.refl first p n).check hfirst hp _ _ (hagree.append hnew)

end Plan

namespace CachingPolicy

open Plan

variable {policy : CachingPolicy} {p q : Plan}

theorem schedules_insertSpools (hq : policy.insertSpools p = .ok q) (first : Nat) :
    ∃ m, Schedules first p p.lastSpool q m :=
  SpoolInvariant.insertSpools ⟨.trans, fun hword _ => .spool first _ hword .lazy .table, .inside⟩ hq

theorem checkConsumers_insertSpools (hq : policy.insertSpools p = .ok q) (available : List Nat) :
    q.checkConsumers available = .ok () ↔ p.checkConsumers available = .ok () := by
  obtain ⟨m, h⟩ := schedules_insertSpools hq p.lastSpool
  exact h.check (Nat.le_refl _) (fun id hid => le_lastSpool (List.mem_append_right _ hid)) _ _
    fun _ _ => Iff.rfl

theorem nodup_producers_insertSpools (hq : policy.insertSpools p = .ok q) :
    q.producers.Nodup ↔ p.producers.Nodup := by
  obtain ⟨m, h⟩ := adds_insertSpools hq
  rw [h.producers.nodup_iff, List.nodup_append]
  refine ⟨And.left, fun hp => ⟨hp, List.nodup_range', fun id hid id' hid' => ?_⟩⟩
  have hle := le_lastSpool (List.mem_append_left p.consumed hid)
  have hlt := (List.mem_range'_1.1 hid').1
  omega

/-- Spools that are put into a plan are filled once, and nothing else is filled or read at another
time. -/
theorem validateSpools_insertSpools (hq : policy.insertSpools p = .ok q) :
    q.validateSpools = .ok () ↔ p.validateSpools = .ok () := by
  rw [validateSpools_eq_ok, validateSpools_eq_ok, checkConsumers_insertSpools hq,
    nodup_producers_insertSpools hq]

end CachingPolicy

end BatchPlan
