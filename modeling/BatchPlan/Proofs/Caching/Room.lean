import BatchPlan.Proofs.Caching.Rebuild

namespace BatchPlan

namespace Plan

def totals (f : Plan → Int) (ps : List Plan) : Int :=
  ps.foldr (fun p sum => f p + sum) 0

/-- The sum of a number of operators over a plan. -/
def total (f : Plan → Int) (p : Plan) : Int :=
  totals f p.operators

section

variable {f : Plan → Int} {p q : Plan} {ps qs : List Plan}

theorem totals_cons (f : Plan → Int) (p : Plan) (ps : List Plan) :
    totals f (p :: ps) = f p + totals f ps := rfl

theorem totals_append (f : Plan → Int) (ps qs : List Plan) :
    totals f (ps ++ qs) = totals f ps + totals f qs := by
  induction ps with
  | nil => exact (Int.zero_add _).symm
  | cons p ps ih => rw [List.cons_append, totals_cons, ih, totals_cons, Int.add_assoc]

theorem total_eq (f : Plan → Int) (p : Plan) : p.total f = f p + totals (total f) p.children := by
  have hchildren (ps : List Plan) : totals f (ps.flatMap operators) = totals (total f) ps := by
    induction ps with
    | nil => rfl
    | cons p ps ih => rw [List.flatMap_cons, totals_append, ih, totals_cons, total]
  rw [total, operators_eq, totals_cons, hchildren]

theorem totals_nonneg (h : ∀ p ∈ ps, 0 ≤ f p) : 0 ≤ totals f ps := by
  induction ps with
  | nil => exact Int.le_refl 0
  | cons p ps ih =>
    rw [List.forall_mem_cons] at h
    have hrest := ih h.2
    rw [totals_cons]
    omega

end

/-- The rows that an operator may have by itself, whatever its inputs are. -/
def ownRows : Plan → Int
  | .constant _ rows => rows.length
  | .top _ count _ _ => ((literalCount? count).elim 0 UInt64.toNat : Nat)
  | .offset _ _ fetch => ((fetch.bind literalCount?).elim 0 UInt64.toNat : Nat)
  | .aggregate .. | .filter .. => 1
  | _ => 0

/-- Spools that may still be put over an operator: one, and none over another spool. A spool takes
the place of the one over its input. -/
def slot : Plan → Int
  | .spool _ input _ _ => if input.producer?.isNone then -1 else 0
  | _ => 1

theorem ownRows_nonneg (p : Plan) : 0 ≤ p.ownRows := by
  cases p <;> simp [ownRows]

theorem rows_nonneg (p : Plan) : 0 ≤ p.total ownRows :=
  totals_nonneg fun r _ => r.ownRows_nonneg

theorem total_le_of_mem (f : Plan → Int) (hf : ∀ r : Plan, 0 ≤ r.total f)
    {q : Plan} {ps : List Plan} (hq : q ∈ ps) : q.total f ≤ totals (total f) ps := by
  induction ps with
  | nil => cases hq
  | cons p ps ih =>
    have hrest : 0 ≤ totals (total f) ps := totals_nonneg fun r _ => hf r
    have hp := hf p
    rw [totals_cons]
    obtain rfl | hq := List.mem_cons.1 hq
    · omega
    · have := ih hq
      omega

theorem rows_le_of_child {p q : Plan} (h : q ∈ p.children) : q.total ownRows ≤ p.total ownRows := by
  have hown := p.ownRows_nonneg
  have hq := total_le_of_mem ownRows rows_nonneg h
  rw [total_eq ownRows p]
  omega

theorem exists_sumMaxRows (ps : List Plan) (sum : UInt64)
    (h : sum.toNat + totals (total ownRows) ps < UInt64.size)
    (hps : ∀ p ∈ ps, ∃ most, p.maxRows = .ok most ∧ ∀ n ∈ most, (n.toNat : Int) ≤ p.total ownRows) :
    ∃ most, sumMaxRows sum ps = .ok most ∧
      ∀ n ∈ most, (n.toNat : Int) ≤ sum.toNat + totals (total ownRows) ps := by
  induction ps generalizing sum with
  | nil =>
    refine ⟨some sum, by rw [sumMaxRows], ?_⟩
    rintro n ⟨⟩
    simp [totals]
  | cons p ps ih =>
    rw [List.forall_mem_cons] at hps
    obtain ⟨⟨most, hmost, hle⟩, hps⟩ := hps
    have hrest : 0 ≤ totals (total ownRows) ps := totals_nonneg fun r _ => r.rows_nonneg
    rw [totals_cons] at h ⊢
    rw [sumMaxRows, hmost]
    cases most with
    | none => exact ⟨none, rfl, nofun⟩
    | some n =>
      have hn := hle n rfl
      have hsum : sum.toNat + n.toNat < UInt64.size := by omega
      have hadd : (sum + n).toNat = sum.toNat + n.toNat := by
        rw [UInt64.toNat_add]
        exact Nat.mod_eq_of_lt hsum
      obtain ⟨most, hmost, hle⟩ := ih (sum + n) (by omega) hps
      refine ⟨most, ?_, fun k hk => ?_⟩
      · rw [← hmost]
        change (addRows sum n >>= fun sum => sumMaxRows sum ps) = _
        rw [addRows, if_pos hsum]
        rfl
      · have := hle k hk
        omega

/-- Where the counts of a plan fit into a word, its bound does. -/
theorem exists_maxRows {p : Plan} (h : p.total ownRows < UInt64.size) :
    ∃ most, p.maxRows = .ok most ∧ ∀ n ∈ most, (n.toNat : Int) ≤ p.total ownRows := by
  induction p using byChildren with
  | step p ih =>
    have hinput {q : Plan} (hq : q ∈ p.children) :
        ∃ most, q.maxRows = .ok most ∧ ∀ n ∈ most, (n.toNat : Int) ≤ p.total ownRows := by
      have hle := rows_le_of_child hq
      obtain ⟨most, hmost, hmostle⟩ := ih q hq (by omega)
      exact ⟨most, hmost, fun n hn => Int.le_trans (hmostle n hn) hle⟩
    have hown : p.ownRows ≤ p.total ownRows := by
      have hrest : 0 ≤ totals (total ownRows) p.children := totals_nonneg fun r _ => r.rows_nonneg
      rw [total_eq ownRows p]
      omega
    have hnone : ∃ most : Option UInt64, Except.ok (ε := Overflow) none = .ok most ∧
        ∀ n ∈ most, (n.toNat : Int) ≤ p.total ownRows := ⟨none, rfl, nofun⟩
    have hsome {n : UInt64} (hn : (n.toNat : Int) ≤ p.ownRows) : ∃ most : Option UInt64,
        Except.ok (ε := Overflow) (some n) = .ok most ∧ ∀ n ∈ most,
          (n.toNat : Int) ≤ p.total ownRows := by
      refine ⟨some n, rfl, ?_⟩
      rintro _ ⟨⟩
      omega
    cases p with
    | constant columns rows =>
      rw [maxRows]
      refine hsome ?_
      simp only [ownRows, Nat.toUInt64, UInt64.toNat_ofNat']
      exact Int.ofNat_le.2 (Nat.mod_le _ _)
    | aggregate input spec =>
      rw [maxRows]
      split
      · exact hsome (Int.le_refl 1)
      · exact hinput (.head _)
    | top input count percent withTies =>
      rw [maxRows]
      split
      · exact hnone
      · split
        next n hn =>
          obtain ⟨most, hmost, -⟩ := hinput (.head _)
          rw [hmost]
          refine hsome ?_
          simp only [ownRows, hn, Option.elim]
          cases most with
          | none => exact Int.le_refl _
          | some most =>
            exact Int.ofNat_le.2 (UInt64.le_iff_toNat_le.1 (Std.min_le_right))
        · exact hnone
    | offset input start fetch =>
      rw [maxRows]
      split
      next n hn =>
        refine hsome ?_
        simp [ownRows, hn]
      · exact hinput (.head _)
    | filter input predicate =>
      rw [maxRows]
      split
      · exact hsome (Int.le_refl 1)
      · exact hinput (.head _)
    | join left right spec =>
      rw [maxRows]
      split
      · exact hinput (.head _)
      · exact hnone
    | concat inputs columns =>
      rw [maxRows]
      have htotal : total ownRows (.concat inputs columns) = totals (total ownRows) inputs := by
        rw [total_eq]
        exact Int.zero_add _
      rw [htotal] at h ⊢
      obtain ⟨most, hmost, hle⟩ := exists_sumMaxRows inputs 0 (by simpa using h) fun q hq =>
        ih q hq (by have := total_le_of_mem ownRows rows_nonneg hq; omega)
      exact ⟨most, hmost, by simpa using hle⟩
    | compute | sort | rename | distinct | assert | segment | sequence =>
      rw [maxRows]
      exact hinput (.head _)
    | scan | spool | consumer | function =>
      rw [maxRows]
      exact hnone

theorem exists_sumEstimates {est : Estimator} {ps : List Plan}
    (h : ∀ p ∈ ps, ∃ x, p.estimate est = .ok x)
    (soFar : Float) : ∃ x, sumEstimates est soFar ps = .ok x := by
  induction ps generalizing soFar with
  | nil => exact ⟨soFar, by rw [sumEstimates]⟩
  | cons p ps ih =>
    rw [List.forall_mem_cons] at h
    obtain ⟨⟨x, hx⟩, hps⟩ := h
    rw [sumEstimates, hx]
    exact ih hps (soFar + x)

theorem exists_estimate (est : Estimator) {p : Plan} (h : p.total ownRows < UInt64.size) :
    ∃ x, p.estimate est = .ok x := by
  induction p using byChildren with
  | step p ih =>
    have hinput {q : Plan} (hq : q ∈ p.children) : ∃ x, q.estimate est = .ok x := by
      have hle := rows_le_of_child hq
      exact ih q hq (by omega)
    obtain ⟨most, hmost, -⟩ := exists_maxRows h
    cases most with
    | some n =>
      rw [estimate.eq_def, hmost]
      exact ⟨_, rfl⟩
    | none =>
      cases p with
      | join left right spec =>
        obtain ⟨l, hl⟩ := hinput (q := left) (.head _)
        obtain ⟨r, hr⟩ := hinput (q := right) (.tail _ (.head _))
        rw [estimate, hmost]
        dsimp only [Bind.bind, Except.bind]
        rw [hl, hr]
        dsimp only
        split
        · exact ⟨_, rfl⟩
        · split <;> exact ⟨_, rfl⟩
      | concat inputs columns =>
        rw [estimate, hmost]
        exact exists_sumEstimates (fun q hq => hinput hq) 0
      | scan | constant | function | consumer =>
        rw [estimate, hmost]
        exact ⟨_, rfl⟩
      | compute input | sort input | segment input | sequence input | top input | offset input
      | spool id input | rename input | assert input =>
        rw [estimate, hmost]
        exact hinput (.head _)
      | filter input | aggregate input | distinct input =>
        obtain ⟨x, hx⟩ := hinput (q := input) (.head _)
        rw [estimate, hmost]
        dsimp only [Bind.bind, Except.bind]
        rw [hx]
        exact ⟨_, rfl⟩

theorem slots_nonneg (p : Plan) : 0 ≤ p.total slot ∧ (p.producer? = none → 1 ≤ p.total slot) := by
  induction p using byChildren with
  | step p ih =>
    have hrest : 0 ≤ totals (total slot) p.children := totals_nonneg fun q hq => (ih q hq).1
    have hother (h : p.slot = 1) : 0 ≤ p.total slot ∧ (p.producer? = none → 1 ≤ p.total slot) := by
      rw [total_eq, h]
      omega
    cases p with
    | spool id input kind mode =>
      obtain ⟨hinput, hplain⟩ := ih input (.head _)
      refine ⟨?_, nofun⟩
      rw [total_eq, slot]
      change 0 ≤ _ + (total slot input + 0)
      split
      next hnone =>
        have := hplain (Option.isNone_iff_eq_none.1 hnone)
        omega
      · omega
    | _ => exact hother rfl

theorem slots_le (p : Plan) : p.total slot ≤ p.operators.length := by
  have hslot (r : Plan) : r.slot ≤ 1 := by
    cases r with
    | spool =>
      rw [slot]
      split <;> decide
    | _ => exact Int.le_refl 1
  suffices h : ∀ ps : List Plan, totals slot ps ≤ ps.length from h p.operators
  intro ps
  induction ps with
  | nil => exact Int.le_refl 0
  | cons r ps ih =>
    have := hslot r
    rw [totals_cons, List.length_cons]
    omega

/-- Every number that is spent takes a place for a spool, and the rows of a plan stay. -/
structure Spends (p : Plan) (n : Nat) (q : Plan) (m : Nat) : Prop where
  slots : m + q.total slot = n + p.total slot
  rows : q.total ownRows = p.total ownRows

section

variable {p q : Plan} {inputs ps qs : List Plan} {n m k : Nat}

theorem Spends.refl (p : Plan) (n : Nat) : Spends p n p n :=
  ⟨rfl, rfl⟩

theorem slot_of_none (h : p.producer? = none) : p.slot = 1 := by
  cases p with
  | spool => cases h
  | _ => rfl

theorem Chain.spends (h : Chain Spends ps n qs m) :
    m + totals (total slot) qs = n + totals (total slot) ps ∧
      totals (total ownRows) qs = totals (total ownRows) ps := by
  induction h with
  | nil => exact ⟨rfl, rfl⟩
  | cons hp _ ih =>
    have hslots := hp.slots
    have hrows := hp.rows
    simp only [totals_cons]
    omega

theorem ownRows_withChildren (h : p.withChildren inputs = .ok q)
    (hlength : inputs.length = p.children.length) : q.ownRows = p.ownRows := by
  refine eq_of_standIns ownRows ownRows (fun _ => .oneRow) (fun p => ?_) h (by simp [hlength])
  cases p <;> simp [children, withChildren, ownRows, Except.map]

theorem Spends.inside (hinputs : Chain Spends p.children n inputs m)
    (hq : p.withChildren inputs = .ok q) (hslot : q.slot = p.slot) : Spends p n q m := by
  obtain ⟨hslots, hrows⟩ := hinputs.spends
  have hown := ownRows_withChildren hq hinputs.length_eq
  refine ⟨?_, ?_⟩
  · rw [total_eq slot q, total_eq slot p, (of_withChildren hq).1]
    omega
  · rw [total_eq ownRows q, total_eq ownRows p, (of_withChildren hq).1]
    omega

theorem spends_cache (h : p.producer? = none) (n : Nat) :
    Spends p n (.spool (n + 1) p .lazy .table) (n + 1) := by
  refine ⟨?_, ?_⟩
  · rw [total_eq slot (.spool ..)]
    change _ + ((if p.producer?.isNone then -1 else 0) + (total slot p + 0)) = _
    rw [h]
    simp only [Option.isNone_none, if_true]
    omega
  · rw [total_eq ownRows (.spool ..)]
    exact (Int.zero_add _).trans (Int.add_zero _)

/-- Plans with counts that fit into words, and with room for their spools. -/
structure Room (p : Plan) (n : Nat) : Prop where
  slots : n + p.total slot < UInt64.size
  rows : p.total ownRows < UInt64.size

/-- The numbers of a plan leave one for a spool over each operator, and its counts of rows add up to
a word. -/
structure Countable (p : Plan) : Prop where
  spools : p.lastSpool + p.operators.length < UInt64.size
  rows : p.total ownRows < UInt64.size

theorem exists_rebuildAll {r : Rebuild CacheM} (hslots : n + totals (total slot) ps < UInt64.size)
    (hps : ∀ p ∈ ps, p.total ownRows < UInt64.size ∧
      ∀ n, Room p n → ∃ q m, (p.rebuild r).run n = .ok (q, m) ∧ Spends p n q m) :
    ∃ qs m, (rebuildAll r ps).run n = .ok (qs, m) ∧ Chain Spends ps n qs m := by
  induction ps generalizing n with
  | nil => exact ⟨[], n, by rw [rebuildAll]; rfl, .nil n⟩
  | cons p ps ih =>
    rw [List.forall_mem_cons] at hps
    rw [totals_cons] at hslots
    have hrest : 0 ≤ totals (total slot) ps := totals_nonneg fun r _ => r.slots_nonneg.1
    obtain ⟨q, k, hq, hspends⟩ := hps.1.2 n ⟨by omega, hps.1.1⟩
    have hleft := hspends.slots
    have hqslots := q.slots_nonneg.1
    obtain ⟨qs, m, hqs, hchain⟩ := ih (n := k) (by omega) hps.2
    refine ⟨q :: qs, m, ?_, .cons hspends hchain⟩
    rw [rebuildAll, run_bind_ok hq, run_bind_ok hqs]
    rfl

/-- A rebuild comes to an end where the conditions `G` of its steps are met. -/
theorem exists_rebuild {r : Rebuild CacheM} {G : Plan → Nat → Prop}
    (weaken : ∀ {p n}, Room p n → G p n)
    (early : ∀ {p n}, G p n → ∃ found k, (r.early p).run n = .ok (found, k) ∧
      (found = none → k = n))
    (plain : ∀ {p n}, G p n → p.producer? = none →
      n + totals (total slot) p.children < UInt64.size ∧ p.total ownRows < UInt64.size)
    (spool : ∀ {id input kind mode n}, G (.spool id input kind mode) n →
      (r.early (.spool id input kind mode)).run n = .ok (none, n) → G input n)
    (late : ∀ {p n inputs q m}, G p n → Chain Spends p.children n inputs m →
      p.withChildren inputs = .ok q → ∃ q' k, (r.late q).run m = .ok (q', k))
    (spends : ∀ {p n q m}, (p.rebuild r).run n = .ok (q, m) → Spends p n q m) (h : G p n) :
    ∃ q m, (p.rebuild r).run n = .ok (q, m) ∧ Spends p n q m := by
  induction p using byChildren generalizing n with
  | step p ih =>
    obtain ⟨found, k, hfound, hk⟩ := early h
    suffices hrun : ∃ q m, (p.rebuild r).run n = .ok (q, m) by
      obtain ⟨q, m, hrun⟩ := hrun
      exact ⟨q, m, hrun, spends hrun⟩
    cases found with
    | some q =>
      refine ⟨q, k, ?_⟩
      rw [rebuild_eq, Rebuild.step, run_bind_ok hfound]
      rfl
    | none =>
      obtain rfl := hk rfl
      have hchildren : ∃ inputs m, (rebuildAll r p.children).run k = .ok (inputs, m) ∧
          Chain Spends p.children k inputs m := by
        cases hproducer : p.producer? with
        | none =>
          obtain ⟨hslots, hrows⟩ := plain h hproducer
          exact exists_rebuildAll hslots fun q hq =>
            ⟨Int.lt_of_le_of_lt (rows_le_of_child hq) hrows, fun n hn => ih q hq (weaken hn)⟩
        | some id =>
          cases p with
          | spool id input kind mode =>
            obtain ⟨q, m, hq, hspends⟩ := ih input (.head _) (spool h hfound)
            refine ⟨[q], m, ?_, .cons hspends (.nil m)⟩
            rw [children, rebuildAll, run_bind_ok hq, rebuildAll]
            rfl
          | _ => cases hproducer
      obtain ⟨inputs, m, hinputs, hchain⟩ := hchildren
      obtain ⟨q, l, hq⟩ := late h hchain (withChildren_eq hchain.length_eq)
      refine ⟨q, l, ?_⟩
      have hdeeper : (p.remake <$> rebuildAll r p.children).run k = .ok (p.remake inputs, m) := by
        rw [map_eq_pure_bind, run_bind_ok hinputs]
        rfl
      rw [rebuild_eq, Rebuild.step, run_bind_ok hfound]
      exact (run_bind_ok hdeeper _).trans hq

end

end Plan

namespace CachingPolicy

open Plan

variable {policy : CachingPolicy} {p q : Plan} {n m : Nat} {outerRows : Float}

theorem spends_cacheUncorrelated (h : (policy.cacheUncorrelated outerRows p).run n = .ok (q, m)) :
    Spends p n q m := by
  refine policy.of_cacheUncorrelated .refl (fun _ hp => spends_cache hp.producer _)
    (fun hproducer hinputs hq => .inside hinputs hq ?_) h
  rw [slot_of_none hproducer, slot_of_none ((of_withChildren hq).2.2.1.trans hproducer)]

theorem exists_cacheHere (h : Room p n) :
    ∃ found k, (policy.cacheHere outerRows p).run n = .ok (found, k) ∧ (found = none → k = n) := by
  unfold cacheHere
  split
  · exact ⟨_, n, rfl, nofun⟩
  · exact ⟨_, n, rfl, nofun⟩
  · exact ⟨_, n, rfl, nofun⟩
  next hspool =>
    split
    · exact ⟨none, n, rfl, fun _ => rfl⟩
    · obtain ⟨x, hx⟩ := exists_estimate policy.estimator h.rows
      have hproducer : p.producer? = none := by
        cases p with
        | spool id input kind mode => exact absurd rfl (hspool id input kind mode)
        | _ => rfl
      have hslots := h.slots
      have hone := p.slots_nonneg.2 hproducer
      have hnext : CacheM.nextSpool.run n = .ok (n + 1, n + 1) := if_pos (by omega)
      rw [hx]
      change ∃ found k, (if policy.pays outerRows x then CacheM.nextSpool >>=
        _ else _ : CacheM _).run n = _ ∧ _
      split
      · exact ⟨_, n + 1, run_bind_ok hnext _, nofun⟩
      · exact ⟨_, n, rfl, nofun⟩

theorem exists_cacheUncorrelated (h : Room p n) :
    ∃ q m, (policy.cacheUncorrelated outerRows p).run n = .ok (q, m) ∧ Spends p n q m := by
  refine exists_rebuild (G := Room) id exists_cacheHere (fun {p n} h hproducer => ⟨?_, h.rows⟩)
    (fun _ hfound => ?_) (fun _ _ _ => ⟨_, _, rfl⟩) spends_cacheUncorrelated h
  · have hslots := h.slots
    rw [total_eq, slot_of_none hproducer] at hslots
    omega
  · cases hfound

/-- Putting spools into a plan does not touch its root. -/
theorem spends_spooling (h : (p.rebuild policy.spooling).run n = .ok (q, m)) :
    Spends p n q m ∧ q.producer? = p.producer? := by
  refine policy.of_spooling (P := fun p n q m => Spends p n q m ∧ q.producer? = p.producer?)
    (fun {p n inputs m q} hinputs hq =>
      ⟨.inside (hinputs.mono And.left) hq ?_, (of_withChildren hq).2.2.1⟩)
    (fun {p n left right right' m k spec outerRows} hinputs hq _ hright => ?_) h
  · cases p with
    | spool id input kind mode =>
      cases hinputs with
      | cons hinput hrest =>
        cases hrest
        cases hq
        rw [slot, slot, hinput.2]
    | _ => rw [slot_of_none (of_withChildren hq).2.2.1]; rfl
  · have hproducer : p.producer? = none := (of_withChildren hq).2.2.1.symm
    have hjoin : Spends p n (.join left right spec) m := by
      refine .inside (hinputs.mono And.left) hq ?_
      rw [slot_of_none hproducer]
      rfl
    have hcached : Spends (.join left right spec) m (.join left right' spec) k :=
      have hsides : Chain Spends [left, right] m [left, right'] k :=
        .cons (.refl left m) (.cons (spends_cacheUncorrelated hright) (.nil k))
      .inside hsides rfl rfl
    refine ⟨⟨?_, hcached.rows.trans hjoin.rows⟩, hproducer.symm⟩
    have := hcached.slots
    have := hjoin.slots
    omega

theorem exists_cacheBelow (h : ∀ left right spec, p = .join left right spec →
    Room left n ∧ Room right n) : ∃ q k, (policy.cacheBelow p).run n = .ok (q, k) := by
  unfold cacheBelow
  split
  next left right spec =>
    split
    · exact ⟨_, n, rfl⟩
    · obtain ⟨hleft, hright⟩ := h left right spec rfl
      obtain ⟨x, hx⟩ := exists_estimate policy.estimator hleft.rows
      obtain ⟨right', k, hright', -⟩ : ∃ q k, (policy.cacheUncorrelated x right).run n =
        .ok (q, k) ∧ Spends right n q k := exists_cacheUncorrelated hright
      refine ⟨.join left right' spec, k, ?_⟩
      rw [hx]
      change (policy.cacheUncorrelated x right >>= fun right =>
        pure (Plan.join left right spec)).run n = _
      rw [run_bind_ok hright']
      rfl
  · exact ⟨p, n, rfl⟩

theorem exists_insertSpools (policy : CachingPolicy) (h : p.Countable) :
    ∃ q, policy.insertSpools p = .ok q := by
  obtain ⟨hslots, hrows⟩ := h
  have hlength := p.slots_le
  have hrun := exists_rebuild (r := policy.spooling) (p := p) (n := p.lastSpool)
    (G := fun p n => n + p.total slot < UInt64.size + (if p.producer?.isNone then 1 else 0) ∧
      p.total ownRows < UInt64.size) ?_ ?_ ?_ ?_ ?_ (fun h => (spends_spooling h).1) ⟨?_, hrows⟩
  · obtain ⟨q, m, hq, -⟩ := hrun
    refine ⟨q, ?_⟩
    change ((p.rebuild policy.spooling).run p.lastSpool).map _ = _
    rw [hq]
    rfl
  · intro p n h
    have := h.slots
    exact ⟨by split <;> omega, h.rows⟩
  · exact fun _ => ⟨none, _, rfl, fun _ => rfl⟩
  · intro p n h hproducer
    obtain ⟨hslots, hrows⟩ := h
    rw [total_eq slot, slot_of_none hproducer, hproducer] at hslots
    simp only [Option.isNone_none, if_true] at hslots
    exact ⟨by omega, hrows⟩
  · intro id input kind mode n h _
    obtain ⟨hslots, hrows⟩ := h
    rw [total_eq slot, slot] at hslots
    change _ + (_ + (total slot input + 0)) < (_ : Int) + 0 at hslots
    refine ⟨?_, Int.lt_of_le_of_lt (rows_le_of_child (.head _)) hrows⟩
    split at hslots <;> simp [*] at * <;> omega
  · rintro p n inputs _ m ⟨hslots, hrows⟩ hinputs hq
    refine exists_cacheBelow fun left right spec hjoin => ?_
    subst hjoin
    have hproducer : p.producer? = none := (of_withChildren hq).2.2.1.symm
    obtain rfl : [left, right] = inputs := (of_withChildren hq).1
    obtain ⟨hspent, hsame⟩ := hinputs.spends
    rw [total_eq slot, slot_of_none hproducer, hproducer] at hslots
    rw [total_eq ownRows] at hrows
    simp only [Option.isNone_none, if_true] at hslots
    simp only [totals_cons] at hspent hsame
    change _ + (_ + (_ + 0)) = _ at hspent
    change _ + (_ + 0) = _ at hsame
    have hown := p.ownRows_nonneg
    have hleft := left.slots_nonneg.1
    have hright := right.slots_nonneg.1
    have hleftRows := left.rows_nonneg
    have hrightRows := right.rows_nonneg
    exact ⟨⟨by omega, by omega⟩, ⟨by omega, by omega⟩⟩
  · split <;> omega

end CachingPolicy

end BatchPlan
