import BatchPlan.Proofs.Correlation.Closed
import Mathlib.Data.List.Range

namespace BatchPlan

namespace Plan

variable {p q : Plan} {id n m first k : Nat} {own around : List String}
    {P : Plan → Nat → Plan → Nat → Prop}
  {inputs ps qs : List Plan} {ids : List Nat}

def consumed (p : Plan) : List Nat :=
  p.operators.filterMap consumed?

theorem consumed_eq (p : Plan) : p.consumed = p.consumed?.toList ++
    p.children.flatMap consumed := by
  rw [consumed, operators_eq, List.filterMap_cons, List.filterMap_flatMap]
  cases p.consumed? <;> rfl

theorem producers_eq (p : Plan) :
    p.producers = p.producer?.toList ++ p.children.flatMap producers := by
  rw [producers, operators_eq, List.filterMap_cons, List.filterMap_flatMap]
  cases p.producer? <;> rfl

theorem mem_producers_of_top (h : id ∈ p.producer?) : id ∈ p.producers := by
  rw [producers_eq]
  exact List.mem_append_left _ (Option.mem_toList.2 h)

theorem mem_producers_of_child {child : Plan} (hchild : child ∈ p.children)
    (h : id ∈ child.producers) : id ∈ p.producers := by
  rw [producers_eq]
  exact List.mem_append_right _ (List.mem_flatMap.2 ⟨child, hchild, h⟩)

theorem le_lastSpool (h : id ∈ p.producers ++ p.consumed) : id ≤ p.lastSpool := by
  have hfold (plans : List Plan) (n : Nat) :
      n ≤ plans.foldl (fun n q => max n (max (q.producer?.getD 0) (q.consumed?.getD 0))) n ∧
      ∀ q ∈ plans, (id ∈ q.producer? ∨ id ∈ q.consumed?) →
        id ≤ plans.foldl (fun n q => max n (max (q.producer?.getD 0) (q.consumed?.getD 0))) n := by
    induction plans generalizing n with
    | nil => simp
    | cons p rest ih =>
      have hrest := ih (max n (max (p.producer?.getD 0) (p.consumed?.getD 0)))
      rw [List.foldl_cons, List.forall_mem_cons]
      refine ⟨by omega, fun hp => ?_, hrest.2⟩
      rcases hp with hp | hp
      · rw [Option.mem_def.1 hp] at hrest ⊢
        rw [Option.getD_some] at hrest ⊢
        omega
      · rw [Option.mem_def.1 hp] at hrest ⊢
        rw [Option.getD_some] at hrest ⊢
        omega
  rw [producers, consumed, List.mem_append, List.mem_filterMap, List.mem_filterMap] at h
  rcases h with ⟨q, hq, hid⟩ | ⟨q, hq, hid⟩
  · exact (hfold p.operators 0).2 q hq (.inl hid)
  · exact (hfold p.operators 0).2 q hq (.inr hid)

def bypassed (ids : List Nat) : Plan → Plan
  | .spool id input kind mode => if id ∈ ids then input else .spool id input kind mode
  | p => p

def withoutSpools (ids : List Nat) (p : Plan) : Plan :=
  Id.run (p.rebuild ⟨fun _ => pure none, fun q => pure (q.bypassed ids)⟩)

theorem rebuildAll_bypassed (ids : List Nat) (plans : List Plan) :
    Id.run (rebuildAll ⟨fun _ => pure none, fun q => pure (q.bypassed ids)⟩ plans) =
      plans.map (withoutSpools ids) := by
  induction plans with
  | nil => rw [rebuildAll]; rfl
  | cons p rest ih =>
    rw [rebuildAll, List.map_cons, ← ih]
    rfl

theorem withChildren_withoutSpools (ids : List Nat) (p : Plan) :
    (p.withChildren (p.children.map (withoutSpools ids))).map (bypassed ids) =
      .ok (p.withoutSpools ids) := by
  cases p with
  | concat inputs columns =>
    simp only [withChildren, children, List.length_map, if_true]
    rw [withoutSpools, rebuild, ← rebuildAll_bypassed]
    rfl
  | _ =>
    rw [withoutSpools, rebuild]
    rfl

theorem bypassed_of_forall (h : ∀ id ∈ p.producer?, id ∉ ids) : p.bypassed ids = p := by
  cases p with
  | spool id => exact if_neg (h id rfl)
  | _ => rfl

theorem withoutSpools_of_forall (h : ∀ id ∈ p.producers, id ∉ ids) : p.withoutSpools ids = p := by
  induction p using byChildren with
  | step p ih =>
    have hchildren : p.children.map (withoutSpools ids) = p.children := by
      conv_rhs => rw [← List.map_id p.children]
      apply List.map_congr_left
      intro child hchild
      apply ih child hchild
      intro id hid
      exact h id (mem_producers_of_child hchild hid)
    have htop : p.bypassed ids = p := by
      apply bypassed_of_forall
      intro id hid
      exact h id (mem_producers_of_top hid)
    have hp := withChildren_withoutSpools ids p
    rw [hchildren, withChildren_children, Except.map, htop] at hp
    exact (Except.ok.inj hp).symm

/-- A plan arises from another one by spools with the next numbers, and by nothing else. -/
structure Adds (p : Plan) (n : Nat) (q : Plan) (m : Nat) : Prop where
  le : n ≤ m
  word : n < m → m < UInt64.size
  producers : q.producers.Perm (p.producers ++ List.range' (n + 1) (m - n))
  consumed : q.consumed = p.consumed
  without : ∀ ids, (∀ id, n < id → id ≤ m → id ∈ ids) → q.withoutSpools ids = p.withoutSpools ids

theorem range'_append_next (hnm : n ≤ m) (hmk : m ≤ k) :
    List.range' (n + 1) (m - n) ++ List.range' (m + 1) (k - m) = List.range' (n + 1) (k - n) := by
  have hnext : m + 1 = n + 1 + (m - n) := by omega
  have hcount : m - n + (k - m) = k - n := by omega
  rw [hnext, List.range'_append_1, hcount]

namespace Adds

theorem trans {r : Plan} (hpq : Adds p n q m) (hqr : Adds q m r k) : Adds p n r k where
  le := Nat.le_trans hpq.le hqr.le
  word h := by
    have hle := hpq.le
    have hword := hpq.word
    have hle' := hqr.le
    have hword' := hqr.word
    omega
  producers := by
    rw [← range'_append_next hpq.le hqr.le, ← List.append_assoc]
    exact hqr.producers.trans (hpq.producers.append_right _)
  consumed := hqr.consumed.trans hpq.consumed
  without ids hids := by
    have hle := hpq.le
    have hle' := hqr.le
    rw [hqr.without ids fun id hm hk => hids id (by omega) hk,
      hpq.without ids fun id hn hm => hids id hn (by omega)]

theorem spool (p : Plan) (hword : n + 1 < UInt64.size) (kind : SpoolKind) (mode : SpoolMode) :
    Adds p n (.spool (n + 1) p kind mode) (n + 1) where
  le := Nat.le_succ n
  word _ := hword
  producers := by
    rw [producers_eq, Nat.add_sub_cancel_left, List.range'_one]
    simp only [producer?, children, Option.toList_some, List.flatMap_cons, List.flatMap_nil,
      List.append_nil]
    exact List.perm_append_comm
  consumed := by
    rw [consumed_eq]
    simp [consumed?, children]
  without ids hids := by
    have h := withChildren_withoutSpools ids (.spool (n + 1) p kind mode)
    rw [children, List.map_cons, List.map_nil, withChildren, Except.map, bypassed,
      if_pos (hids (n + 1) (by omega) (by omega))] at h
    exact (Except.ok.inj h).symm

theorem of_chain (h : Chain Adds ps n qs m) :
    n ≤ m ∧ (n < m → m < UInt64.size) ∧
    (qs.flatMap Plan.producers).Perm (ps.flatMap Plan.producers ++ List.range' (n + 1) (m - n)) ∧
    qs.flatMap Plan.consumed = ps.flatMap Plan.consumed ∧
    ∀ ids, (∀ id, n < id → id ≤ m → id ∈ ids) →
      qs.map (withoutSpools ids) = ps.map (withoutSpools ids) := by
  induction h with
  | nil n => simp
  | @cons p q ps qs n m k hp _ ih =>
    obtain ⟨hle, hword, hproducers, hconsumed, hwithout⟩ := ih
    refine ⟨Nat.le_trans hp.le hle, fun h => ?_, ?_, ?_, fun ids hids => ?_⟩
    · have hle := hp.le
      have hfirst := hp.word
      omega
    · rw [← range'_append_next hp.le hle, List.flatMap_cons, List.flatMap_cons]
      refine (hp.producers.append hproducers).trans ?_
      rw [List.append_assoc, List.append_assoc]
      apply List.Perm.append_left
      rw [← List.append_assoc, ← List.append_assoc]
      exact List.perm_append_comm.append_right _
    · rw [List.flatMap_cons, List.flatMap_cons, hp.consumed, hconsumed]
    · have hhead := hp.without ids fun id hn hm => hids id hn (Nat.le_trans hm hle)
      have htail := hwithout ids fun id hm hk => hids id (Nat.lt_of_le_of_lt hp.le hm) hk
      rw [List.map_cons, List.map_cons, hhead, htail]

theorem inside (hinputs : Chain Adds p.children n inputs m) (hq : p.withChildren inputs = .ok q) :
    Adds p n q m := by
  obtain ⟨hle, hword, hproducers, hconsumed, hwithout⟩ := of_chain hinputs
  obtain ⟨hchildren, -, hproducer, hconsumer⟩ := of_withChildren hq
  refine ⟨hle, hword, ?_, ?_, fun ids hids => ?_⟩
  · rw [producers_eq q, producers_eq p, hchildren, hproducer, List.append_assoc]
    exact hproducers.append_left _
  · rw [consumed_eq q, consumed_eq p, hchildren, hconsumer, hconsumed]
  · exact eq_of_standIns _ _ _ (withChildren_withoutSpools ids) hq (hwithout ids hids)

end Adds

/-- The spools after some number are caches: they keep rows that are the same for all values of the
parameters, below a join that sets some. Others are set around the plan. -/
def Caches (first : Nat) (around : List String) (p : Plan) : Prop :=
  ∀ bound id input kind mode, Stands bound p (.spool id input kind mode) → first < id →
    around ++ bound ≠ [] ∧ kind = .lazy ∧ mode = .table ∧ input.Cacheable

theorem Caches.mono (h : p.Caches first []) (around : List String) : p.Caches first around := by
  intro bound id input kind mode hstands hid
  obtain ⟨hbound, hcache⟩ := h bound id input kind mode hstands hid
  exact ⟨fun hnil => hbound (List.append_eq_nil_iff.1 hnil).2, hcache⟩

theorem Caches.input {input : Plan} (h : p.Caches first around) (hinput : (own, input) ∈ p.inputs) :
    input.Caches first (around ++ own) := by
  intro bound id input' kind mode hstands hid
  have hplace := h _ id input' kind mode (.inside hinput hstands) hid
  rwa [← List.append_assoc] at hplace

theorem caches_of_inputs (hp : ∀ id ∈ p.producer?, id ≤ first)
    (hinputs : ∀ own input, (own, input) ∈ p.inputs → input.Caches first (around ++ own)) :
    p.Caches first around := by
  intro bound id input kind mode hstands hid
  generalize hspool : Plan.spool id input kind mode = s at hstands
  cases hstands with
  | top =>
    subst hspool
    exact absurd (hp id rfl) (by omega)
  | inside hinput hq =>
    subst hspool
    have hplace := hinputs _ _ hinput _ id input kind mode hq hid
    rwa [List.append_assoc] at hplace

theorem Chain.exists_of_mem (h : Chain P ps n qs m) (hq : q ∈ qs) : ∃ p ∈ ps, ∃ k l, P p k q l := by
  induction h with
  | nil => cases hq
  | cons hp _ ih =>
    rcases List.mem_cons.1 hq with rfl | hq
    · exact ⟨_, List.mem_cons_self, _, _, hp⟩
    · obtain ⟨p, hmem, hP⟩ := ih hq
      exact ⟨p, List.mem_cons_of_mem _ hmem, hP⟩

theorem mem_children_of_inputs {input : Plan} (h : (own, input) ∈ p.inputs) :
    input ∈ p.children := by
  cases p with
  | join left right spec =>
    simp only [inputs, List.mem_cons, List.not_mem_nil, or_false, Prod.mk.injEq] at h
    rcases h with ⟨-, rfl⟩ | ⟨-, rfl⟩ <;> simp [children]
  | _ =>
    obtain ⟨_, hchild, heq⟩ := List.mem_map.1 h
    cases heq
    exact hchild

theorem inputs_of_ne_join (h : ∀ left right spec, p ≠ .join left right spec) :
    p.inputs = p.children.map fun child => ([], child) := by
  cases p with
  | join left right spec => exact absurd rfl (h left right spec)
  | _ => rfl

theorem exists_of_withChildren_join {left right : Plan} {spec : JoinSpec}
    (h : (join left right spec).withChildren inputs = .ok q) :
    ∃ left' right', inputs = [left', right'] ∧ q = .join left' right' spec := by
  rcases inputs with _ | ⟨left', _ | ⟨right', _ | _⟩⟩ <;> cases h
  exact ⟨left', right', rfl, rfl⟩

/-- Each input of a rebuilt operator stands for one of the old operator, with the same parameters
set for it. -/
theorem Chain.exists_input {input : Plan} (h : Chain P p.children n inputs m)
    (hq : p.withChildren inputs = .ok q) (hinput : (own, input) ∈ q.inputs) :
    ∃ old, (own, old) ∈ p.inputs ∧ ∃ k l, P old k input l := by
  by_cases hjoin : ∃ left right spec, p = .join left right spec
  · obtain ⟨left, right, spec, rfl⟩ := hjoin
    obtain ⟨left', right', rfl, rfl⟩ := exists_of_withChildren_join hq
    rcases h with _ | ⟨hleft, _ | ⟨hright, _⟩⟩
    simp only [Plan.inputs, List.mem_cons, List.not_mem_nil, or_false, Prod.mk.injEq] at hinput ⊢
    rcases hinput with ⟨rfl, rfl⟩ | ⟨rfl, rfl⟩
    · exact ⟨left, .inl ⟨rfl, rfl⟩, _, _, hleft⟩
    · exact ⟨right, .inr ⟨rfl, rfl⟩, _, _, hright⟩
  · -- no other operator sets parameters
    obtain ⟨hchildren, hothers, -⟩ := of_withChildren hq
    have hback : q.withChildren p.children = .ok p := (hothers _).trans (withChildren_children p)
    have hp : p.inputs = p.children.map fun child => ([], child) :=
      inputs_of_ne_join fun left right spec h => hjoin ⟨left, right, spec, h⟩
    have hq' : q.inputs = q.children.map fun child => ([], child) := by
      apply inputs_of_ne_join
      rintro left right spec rfl
      obtain ⟨left', right', -, h⟩ := exists_of_withChildren_join hback
      exact hjoin ⟨left', right', spec, h⟩
    rw [hq', hchildren, List.mem_map] at hinput
    obtain ⟨_, hmem, hpair⟩ := hinput
    cases hpair
    obtain ⟨old, hold, hP⟩ := h.exists_of_mem hmem
    exact ⟨old, by rw [hp]; exact List.mem_map_of_mem hold, hP⟩

end Plan

namespace CachingPolicy

open Plan

variable {first : Nat} {policy : CachingPolicy} {p q : Plan}

theorem adds_insertSpools (h : policy.insertSpools p = .ok q) : ∃ m, Adds p p.lastSpool q m :=
  SpoolInvariant.insertSpools ⟨.trans, fun hword _ => .spool _ hword .lazy .table, .inside⟩ h

theorem caches_cacheUncorrelated {outerRows : Float} {n m : Nat}
    (h : (policy.cacheUncorrelated outerRows p).run n = .ok (q, m)) {around : List String}
    (haround : around ≠ []) (hp : p.Caches first around) : q.Caches first around := by
  suffices h : ∀ first around, around ≠ [] → p.Caches first around → q.Caches first around from
    h first around haround hp
  refine policy.of_cacheUncorrelated
    (P := fun p _ q _ => ∀ first around, around ≠ [] → p.Caches first around →
      q.Caches first around)
    ?_ ?_ ?_ h
  · intro p n first around _ hp
    exact hp
  · intro p n _ hcacheable first around haround hp bound id input kind mode hstands hid
    generalize hspool : Plan.spool id input kind mode = s at hstands
    cases hstands with
    | top =>
      cases hspool
      exact ⟨by simp [haround], rfl, rfl, hcacheable⟩
    | inside hinput hq =>
      subst hspool
      simp only [inputs, children, List.map_cons, List.map_nil, List.mem_singleton,
        Prod.mk.injEq] at hinput
      obtain ⟨rfl, rfl⟩ := hinput
      exact hp _ id _ kind mode hq hid
  · intro p n inputs m q hproducer hinputs hq first around haround hp
    apply caches_of_inputs
    · rw [(of_withChildren hq).2.2.1, hproducer]
      simp
    · intro own input hinput
      obtain ⟨old, hold, _, _, hcaches⟩ := hinputs.exists_input hq hinput
      exact hcaches first (around ++ own) (by simp [haround]) (hp.input hold)

theorem caches_insertSpools (h : policy.insertSpools p = .ok q)
    (hfirst : ∀ id ∈ p.producers, id ≤ first) : q.Caches first [] := by
  suffices h : ∃ _ : Nat, ∀ first, (∀ id ∈ p.producers, id ≤ first) → q.Caches first [] from
    h.elim fun _ h => h first hfirst
  refine policy.of_insertSpools
    (P := fun p _ q _ => ∀ first, (∀ id ∈ p.producers, id ≤ first) → q.Caches first []) ?_ ?_ h
  · intro p n inputs m q hinputs hq first hfirst
    apply caches_of_inputs
    · rw [(of_withChildren hq).2.2.1]
      intro id hid
      exact hfirst id (mem_producers_of_top hid)
    · intro own input hinput
      obtain ⟨old, hold, _, _, hcaches⟩ := hinputs.exists_input hq hinput
      apply Caches.mono
      exact hcaches first fun id hid => hfirst id
        (mem_producers_of_child (mem_children_of_inputs hold) hid)
  · intro p n left right right' m k spec outerRows hinputs hq hbindings hright first hfirst
    have hsides (own : List String) (input : Plan)
      (hinput : (own, input) ∈ (join left right spec).inputs) :
        input.Caches first [] := by
      obtain ⟨old, hold, _, _, hcaches⟩ := hinputs.exists_input hq hinput
      exact hcaches first fun id hid => hfirst id
        (mem_producers_of_child (mem_children_of_inputs hold) hid)
    apply caches_of_inputs
    · simp [producer?]
    · intro own input hinput
      simp only [inputs, List.mem_cons, List.not_mem_nil, or_false, Prod.mk.injEq] at hinput hsides
      rcases hinput with ⟨rfl, rfl⟩ | ⟨rfl, rfl⟩
      · exact hsides [] _ (.inl ⟨rfl, rfl⟩)
      · apply caches_cacheUncorrelated hright
        · simpa using hbindings
        · exact (hsides _ right (.inr ⟨rfl, rfl⟩)).mono _

end CachingPolicy

end BatchPlan
