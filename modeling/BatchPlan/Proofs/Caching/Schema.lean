import BatchPlan.Proofs.Caching.Room

namespace BatchPlan

namespace Schema

def unordered (s : Schema) : Schema :=
  { s with sortOrder := [] }

def Keyed (s : Schema) : Prop :=
  ∀ key ∈ s.primaryKey, s.contains key

theorem keyed_withPrimaryKey (s : Schema) (key : Option Column) : (s.withPrimaryKey key).Keyed :=
  fun _ hkey => (Option.mem_filter_iff.1 hkey).2

theorem Keyed.withPrimaryKey {s : Schema} (h : s.Keyed) :
    (ofFields s.fields).withPrimaryKey s.primaryKey = s.unordered := by
  obtain ⟨fields, _ | key, order⟩ := s
  · rfl
  · have hkey : (ofFields fields).contains key := h key rfl
    rw [Schema.withPrimaryKey, Option.filter_some, if_pos hkey]
    rfl

theorem keyed_ofFields (fields : List Field) : (ofFields fields).Keyed := by
  simp [Keyed, ofFields]

end Schema

namespace Plan

section

variable {p q : Plan} {inputs : List Plan} (h : p.withChildren inputs = .ok q)

include h

theorem schema_withChildren (hinputs : inputs.map schema = p.children.map schema) :
    q.schema = p.schema := by
  apply eq_of_standIns schema schema (fun p => .consumer 0 p.schema) _ h
  · have hstandIns := congrArg (List.map (consumer 0)) hinputs
    rwa [List.map_map, List.map_map] at hstandIns
  · intro p
    cases p with
    | concat => simp [children, withChildren, Except.map, schema]
    | _ => rfl

/-- Fields and key of an operator's rows come from the fields and keys of its inputs. -/
theorem unordered_withChildren
    (hinputs : inputs.map (·.schema.unordered) = p.children.map (·.schema.unordered)) :
    q.schema.unordered = p.schema.unordered := by
  apply eq_of_standIns (·.schema.unordered) (·.schema.unordered)
    (fun p => .consumer 0 p.schema.unordered) _ h
  · have hstandIns := congrArg (List.map (consumer 0)) hinputs
    rwa [List.map_map, List.map_map] at hstandIns
  · intro p
    cases p with
    | concat => simp [children, withChildren, Except.map, schema]
    | _ => rfl

end

theorem schema_join_right (left : Plan) {right right' : Plan} (spec : JoinSpec)
    (h : right'.schema.unordered = right.schema.unordered) :
    (join left right' spec).schema = (join left right spec).schema := by
  have hright (right : Plan) : (join left right spec).schema =
      joinSchema left.schema right.schema.unordered spec := rfl
  rw [hright right', hright right, h]

theorem readsSpool_eq (p : Plan) :
    p.readsSpool = (p.consumed?.isSome || p.children.any readsSpool) := by
  rw [readsSpool, operators_eq, List.any_cons, List.any_flatMap]
  rfl

theorem keyed_schema (p : Plan) (h : p.readsSpool = false) : p.schema.Keyed := by
  induction p using byChildren with
  | step p ih =>
    rw [readsSpool_eq, Bool.or_eq_false_iff, List.any_eq_false] at h
    have hinput (input : Plan) (hmem : input ∈ p.children) : input.schema.Keyed :=
      ih input hmem (by simpa using h.2 input hmem)
    cases p with
    | consumer => simp [consumed?] at h
    | filter input | top input | offset input | assert input | sort input =>
      exact hinput input List.mem_cons_self
    | scan | compute | join | aggregate | segment | sequence | spool | rename =>
      exact Schema.keyed_withPrimaryKey _ _
    | distinct | concat | constant | function => exact Schema.keyed_ofFields _

theorem schema_spool (id : Nat) {input : Plan} (kind : SpoolKind) (h : input.schema.Keyed) :
    (spool id input kind .table).schema = input.schema.unordered := by
  change (Schema.ofFields (input.schema.fields ++ [])).withPrimaryKey input.schema.primaryKey = _
  rw [List.append_nil]
  exact h.withPrimaryKey

theorem unordered_cache {p : Plan} (n : Nat) (hp : p.Cacheable) :
    (spool (n + 1) p .lazy .table).schema.unordered = p.schema.unordered := by
  rw [schema_spool _ _ (keyed_schema p hp.readsSpool)]
  rfl

end Plan

namespace CachingPolicy

open Plan

variable {policy : CachingPolicy} {p q : Plan}

theorem unordered_cacheUncorrelated {outerRows : Float} {n m : Nat}
    (h : (policy.cacheUncorrelated outerRows p).run n = .ok (q, m)) :
    q.schema.unordered = p.schema.unordered := by
  have hspools : SpoolInvariant fun p _ q _ => q.schema.unordered = p.schema.unordered :=
    ⟨fun h h' => h'.trans h, fun _ hp => unordered_cache _ hp,
      fun hinputs hq => unordered_withChildren hq hinputs.map_eq⟩
  exact hspools.cacheUncorrelated h

theorem schema_insertSpools (h : policy.insertSpools p = .ok q) : q.schema = p.schema := by
  have hschema : ∃ _ : Nat, q.schema = p.schema := by
    refine policy.of_insertSpools (P := fun p _ q _ => q.schema = p.schema) ?_ ?_ h
    · intro p n inputs m q hinputs hq
      exact schema_withChildren hq hinputs.map_eq
    · intro p n left right right' m k spec outerRows hinputs hq _ hright
      rw [schema_join_right left spec (unordered_cacheUncorrelated hright)]
      exact schema_withChildren hq hinputs.map_eq
  exact hschema.elim fun _ h => h

end CachingPolicy

theorem Plan.Improved.schema_eq {o : Options} {p q : Plan} (h : p.Improved o q) :
    q.schema = p.schema := by
  obtain rfl | h := h
  · rfl
  · exact CachingPolicy.schema_insertSpools h

/-- No pass changes anything of the schema of a plan, though every spool forgets the order of its
own rows. Where the counts of the plan leave room there is such a plan. -/
theorem spoolInsertion_keeps_schema (o : Options) (p : Plan) :
    (∀ q, (PlanPass.spoolInsertion o).run p = .ok q → q.schema = p.schema) ∧
      (∀ q, p.improve o.passes = .ok q → q.schema = p.schema) ∧
      (p.Countable → ∃ q, (PlanPass.spoolInsertion o).run p = .ok q) ∧
      ∀ id kind, (Plan.spool id p kind .table).schema.sortOrder = [] :=
  ⟨fun _ => CachingPolicy.schema_insertSpools, fun _ h => (Plan.improved_of_improve h).schema_eq,
    CachingPolicy.exists_insertSpools _, fun _ _ => rfl⟩

/-- The rows of a table in order, and for each of them those with the same key. -/
def loopedScans : Plan :=
  let table (relation : String) : Plan := .scan {
    entity := "t", relation, source := .entity, columns := [⟨"k", .int32, false, none⟩],
    primaryKey := some "k", rowCount := none }
  .join (.sort (table "a") [⟨.qualified "a" "k", .asc⟩])
    (.filter (table "b") ((Scalar.column (.qualified "b" "k")).eq (.outer "@p" .int32)))
    { type := .inner, strategy := .nestedLoop [⟨"@p", .qualified "a" "k"⟩] }

theorem countable_loopedScans : loopedScans.Countable :=
  ⟨by decide +kernel, by decide +kernel⟩

theorem loopedScans_keeps_schema :
    ∃ q, (PlanPass.spoolInsertion {}).run loopedScans = .ok q ∧ q.schema = loopedScans.schema ∧
      q.schema.sortOrder ≠ [] ∧ q.operators.length = 6 := by
  obtain ⟨hschema, -, hcount, -⟩ := spoolInsertion_keeps_schema {} loopedScans
  obtain ⟨q, hq⟩ := hcount countable_loopedScans
  have hlength : ((PlanPass.spoolInsertion {}).run loopedScans).toOption.any fun q =>
      q.operators.length = 6 := by decide +kernel
  rw [hq] at hlength
  refine ⟨q, hq, hschema q hq, ?_, of_decide_eq_true hlength⟩
  rw [hschema q hq]
  decide +kernel

end BatchPlan
