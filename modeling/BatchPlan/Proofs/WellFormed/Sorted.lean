import BatchPlan.Proofs.Typing.Programs

namespace BatchPlan

namespace Plan

variable {p : Plan}

theorem WellFormed.mergesSorted (h : p.WellFormed) : ∀ r ∈ p.operators, r.MergesSorted := by
  induction h with
  | operator _ hsorted _ ih => exact forall_operators.2 ⟨hsorted, ih⟩
  | @cached left right id j hloop _ _ _ ihleft ihright =>
    refine forall_operators.2 ⟨by simp [MergesSorted, hloop], List.forall_mem_cons.2 ⟨ihleft, ?_⟩⟩
    exact List.forall_mem_singleton.2
      (forall_operators.2 ⟨trivial, List.forall_mem_singleton.2 ihright⟩)

theorem not_isSortedBy_of_isTable (h : p.isTable) (key : SortKey) :
    p.schema.isSortedBy [key] = false := by
  unfold isTable at h
  split at h
  · simp [schema, spoolSchema, Schema.isSortedBy, Schema.withPrimaryKey, Schema.ofFields]
  · cases h

theorem withoutSpools_join (ids : List Nat) (left right : Plan) (spec : JoinSpec) :
    (join left right spec).withoutSpools ids =
      .join (left.withoutSpools ids) (right.withoutSpools ids) spec :=
  (Except.ok.inj (withChildren_withoutSpools ids (.join left right spec))).symm

theorem mem_operators_withoutSpools (ids : List Nat) {q : Plan} (h : q ∈ p.operators) :
    q.withoutSpools ids ∈ (p.withoutSpools ids).operators := by
  induction p using byChildren with
  | step p ih =>
    rw [operators_eq, List.mem_cons, List.mem_flatMap] at h
    obtain rfl | ⟨child, hchild, hq⟩ := h
    · rw [operators_eq]
      exact List.mem_cons_self
    have hq := ih child hchild hq
    have hp := withChildren_withoutSpools ids p
    cases hrebuilt : p.withChildren (p.children.map (withoutSpools ids)) with
    | error e => simp [hrebuilt, Except.map] at hp
    | ok r =>
      rw [hrebuilt, Except.map] at hp
      have hmem : child.withoutSpools ids ∈ r.children :=
        (of_withChildren hrebuilt).1 ▸ List.mem_map_of_mem hchild
      -- a spool that is taken out leaves its input
      rw [← Except.ok.inj hp]
      by_cases hids : ∀ id ∈ r.producer?, id ∉ ids
      · rw [bypassed_of_forall hids, operators_eq]
        exact List.mem_cons_of_mem _ (List.mem_flatMap.2 ⟨_, hmem, hq⟩)
      · cases r with
        | spool id input kind mode =>
          obtain rfl := List.mem_singleton.1 hmem
          rw [bypassed, if_pos (by simpa [producer?] using hids)]
          exact hq
        | _ => simp [producer?] at hids

/-- The spools with some numbers are caches, and a well-formed plan is left without them. -/
structure Uncached (p : Plan) (ids : List Nat) : Prop where
  caches : ∀ bound id input kind mode, Stands bound p (.spool id input kind mode) → id ∈ ids →
    bound ≠ [] ∧ kind = .lazy ∧ mode = .table ∧ input.Cacheable
  wellFormed : (p.withoutSpools ids).WellFormed

theorem WellFormed.uncached (h : p.WellFormed) : p.Uncached [] :=
  ⟨nofun, by rwa [withoutSpools_of_forall (by simp)]⟩

theorem WellFormed.uncached_insertSpools {policy : CachingPolicy} {q : Plan} (h : p.WellFormed)
    (hq : policy.insertSpools p = .ok q) : ∃ caches, q.Uncached caches := by
  obtain ⟨m, hadds⟩ := CachingPolicy.adds_insertSpools hq
  have hold : ∀ id ∈ p.producers, id ≤ p.lastSpool := fun id hid =>
    le_lastSpool (List.mem_append_left _ hid)
  refine ⟨List.range' (p.lastSpool + 1) (m - p.lastSpool),
    fun bound id input kind mode hstands hid => ?_, ?_⟩
  · obtain ⟨hbound, hcache⟩ := CachingPolicy.caches_insertSpools hq hold bound
      id input kind mode hstands (List.left_le_of_mem_range' hid)
    exact ⟨hbound, hcache⟩
  · rw [hadds.without _ fun id hfirst hlast => List.mem_range'_1.2 (by omega),
      withoutSpools_of_forall]
    · exact h
    · intro id hid hnew
      have hnew := List.left_le_of_mem_range' hnew
      have hold := hold id hid
      omega

theorem Finished.exists_uncached (h : p.Finished) : ∃ caches, p.Uncached caches := by
  obtain ⟨q, o, hq, rfl | hp⟩ := h
  · exact ⟨[], hq.uncached⟩
  · exact hq.uncached_insertSpools hp

/-- The inputs of the merge joins, with the keys by which they are to be ordered. -/
def mergeInputs : Plan → List (Plan × Column)
  | .join left right spec => match spec.strategy with
    | .merge l r => [(left, l), (right, r)]
    | _ => []
  | _ => []

theorem MergesSorted.sortedBy_withoutSpools {ids : List Nat} {side : Plan} {key : Column}
    (h : (p.withoutSpools ids).MergesSorted) (hside : (side, key) ∈ p.mergeInputs) :
    (side.withoutSpools ids).SortedBy key := by
  unfold mergeInputs at hside
  split at hside
  next left right spec =>
    rw [withoutSpools_join] at h
    split at hside
    next l r hmerge =>
      obtain ⟨hleft, hright⟩ := h l r hmerge
      simp only [List.mem_cons, List.not_mem_nil, or_false, Prod.mk.injEq] at hside
      obtain ⟨rfl, rfl⟩ | ⟨rfl, rfl⟩ := hside
      · exact hleft
      · exact hright
    · cases hside
  · cases hside

end Plan

/-- An input of a merge join is ordered by its key once the caches are taken out of it, and so it is
itself where no cache is in it. An input that is a cache has no order. -/
theorem build_merges_sorted (i : BuildInput) (sql : String) (roots : List Root)
    (h : i.build sql = .ok roots) (root : Root) (hroot : root ∈ roots) (plan : QueryPlan)
    (hplan : root.node.plan? = some plan) :
    ∃ caches : List Nat,
      (∀ bound id input kind mode, Plan.Stands bound plan.root (.spool id input kind mode) →
        id ∈ caches → bound ≠ [] ∧ kind = .lazy ∧ mode = .table ∧ input.Cacheable) ∧
      ∀ p ∈ plan.root.operators, ∀ side key, (side, key) ∈ p.mergeInputs →
        (side.withoutSpools caches).SortedBy key ∧
        ((∀ id ∈ side.producers, id ∉ caches) → side.SortedBy key) ∧
        (side.isTable → side.schema.isSortedBy [⟨key, .asc⟩] = false) := by
  obtain ⟨w, hbooked⟩ := BuildInput.booked_of_build h root hroot
  obtain ⟨caches, hcaches, hwellFormed⟩ := (hbooked plan hplan).finished.exists_uncached
  refine ⟨caches, hcaches, fun p hp side key hside => ?_⟩
  have hsorted :=
    (hwellFormed.mergesSorted _ (Plan.mem_operators_withoutSpools caches hp)).sortedBy_withoutSpools
    hside
  refine ⟨hsorted, fun hnone => ?_, fun htable => Plan.not_isSortedBy_of_isTable htable _⟩
  rwa [Plan.withoutSpools_of_forall hnone] at hsorted

def computedKey (column : String) : String :=
  "SELECT a.k FROM (SELECT k, 1 AS " ++ column ++ " FROM t) d JOIN t a ON ISNULL(d.k, d.k) = a.k"

theorem computedKey_merges_sorted : ∃ roots root plan p side key,
    singleEntity.build (computedKey "x") = .ok roots ∧ root ∈ roots ∧ root.node.plan? = some plan ∧
    p ∈ plan.root.operators ∧ (side, key) ∈ p.mergeInputs ∧ side.schema.contains key ∧
    ∃ caches : List Nat, (side.withoutSpools caches).SortedBy key ∧
      ((∀ id ∈ side.producers, id ∉ caches) → side.SortedBy key) := by
  obtain ⟨roots, root, plan, hroots, hroot, hplan, hmerge⟩ :=
    singleEntity.exists_plan_of_any (computedKey "x")
    (fun plan => plan.root.operators.any fun p => p.mergeInputs.any fun entry =>
      entry.1.schema.contains entry.2)
    (by decide +kernel)
  obtain ⟨p, hp, hmerge⟩ := List.any_eq_true.1 hmerge
  obtain ⟨⟨side, key⟩, hside, hkey⟩ := List.any_eq_true.1 hmerge
  obtain ⟨caches, -, hsorted⟩ :=
    build_merges_sorted singleEntity _ roots hroots root hroot plan hplan
  obtain ⟨hwithout, hitself, -⟩ := hsorted p hp side key hside
  exact ⟨roots, root, plan, p, side, key, hroots, hroot, hplan, hp, hside,
    hkey, caches, hwithout, hitself⟩

theorem computedKey_not_sorted : ∃ roots root plan p side key,
    singleEntity.build (computedKey "Expr2") = .ok roots ∧ root ∈ roots ∧
    root.node.plan? = some plan ∧
    p ∈ plan.root.operators ∧ (side, key) ∈ p.mergeInputs ∧
    side.schema.isSortedBy [⟨key, .asc⟩] = false := by
  obtain ⟨roots, root, plan, hroots, hroot, hplan, hmerge⟩ :=
    singleEntity.exists_plan_of_any (computedKey "Expr2")
      (fun plan => plan.root.operators.any fun p =>
      p.mergeInputs.any fun entry => !entry.1.schema.isSortedBy [⟨entry.2, .asc⟩])
        (by decide +kernel)
  obtain ⟨p, hp, hmerge⟩ := List.any_eq_true.1 hmerge
  obtain ⟨⟨side, key⟩, hside, hkey⟩ := List.any_eq_true.1 hmerge
  exact ⟨roots, root, plan, p, side, key, hroots, hroot, hplan, hp, hside, by simpa using hkey⟩

end BatchPlan
