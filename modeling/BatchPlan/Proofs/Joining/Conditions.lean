import BatchPlan.Proofs.Binding.Tame
import BatchPlan.Proofs.Caching.Schema
import BatchPlan.Proofs.Counting.Executions
import BatchPlan.Proofs.Meaning.Lookup
import BatchPlan.Proofs.Correlation.Params

namespace BatchPlan

open BindM

variable {left right : Schema} {e : Scalar} {c : Column}

namespace Scalar

variable {ops : Operations} {env : Env} {s left right : Schema} {row : Row} {e : Scalar}

theorem columns_binary (a b : Scalar) (op : BinaryOp) :
    (binary a op b).columns = a.columns ++ b.columns := by
  rw [columns, parts, List.filterMap_cons_none rfl, List.filterMap_append, columns, columns]

theorem truth_conjunction? (es : List Scalar) :
    (∀ e ∈ conjunction? es, (e.eval ops env s row).truth = .true) ↔
      ∀ e ∈ es, (e.eval ops env s row).truth = .true := by
  have hfold (e : Scalar) (rest : List Scalar) :
    ((rest.foldl and e).eval ops env s row).truth = .true ↔
      ∀ d ∈ e :: rest, (d.eval ops env s row).truth = .true := by
    induction rest generalizing e with
    | nil => simp
    | cons d rest ih =>
      rw [List.foldl_cons, ih]
      simp only [List.forall_mem_cons, and, eval, Operations.binary, Value.truth_ofTruth,
        Truth.and_eq_true, and_assoc]
  cases es with
  | nil => simp [conjunction?]
  | cons e rest => simpa [conjunction?] using hfold e rest

/-- What must be TRUE, one by one. -/
def conditions (condition : Option Scalar) : List Scalar :=
  (condition.map conjuncts).getD []

theorem truth_conditions (condition : Option Scalar) :
    (∀ e ∈ condition, (e.eval ops env s row).truth = .true) ↔
      ∀ d ∈ conditions condition, (d.eval ops env s row).truth = .true := by
  cases condition with
  | none => simp [conditions]
  | some e => simpa [conditions] using truth_eq_true_iff

theorem contains_conditions {condition : Option Scalar}
    (h : ∀ e ∈ condition, ∀ c ∈ e.columns, s.contains c)
    {d : Scalar} (hd : d ∈ conditions condition) : ∀ c ∈ d.columns, s.contains c := by
  cases condition with
  | none => cases hd
  | some e =>
    intro c hc
    refine h e rfl c ?_
    rw [← flatMap_conjuncts (fun a b => columns_binary a b .and) e]
    exact List.mem_flatMap.2 ⟨d, hd, hc⟩

def IsOf (e : Scalar) (s : Schema) : Prop :=
  e.columns ≠ [] ∧ ∀ c ∈ e.columns, s.contains c

end Scalar

theorem Schema.contains_merge (h : (left.merge right).contains c) :
    left.contains c ∧ right.Lacks c ∨ left.Lacks c ∧ right.contains c := by
  obtain ⟨i, f, hf⟩ := contains_iff.1 h
  rw [candidates_append rfl, List.append_eq_singleton_iff] at hf
  obtain ⟨hleft, hright⟩ | ⟨hleft, hright⟩ := hf
  · obtain ⟨⟨j, g⟩, hg, -⟩ := List.map_eq_singleton_iff.1 hright
    exact .inr ⟨hleft, contains_iff.2 ⟨j, g, hg⟩⟩
  · exact .inl ⟨contains_iff.2 ⟨i, f, hleft⟩, List.map_eq_nil_iff.1 hright⟩

theorem Schema.read_widened {left' right' more more' : Schema} {l r added added' : Row}
    (hleft : left'.fields = left.fields ++ more.fields)
    (hright : right'.fields = right.fields ++ more'.fields) (hl : l.length = left.fields.length)
    (hadded : added.length = more.fields.length) (hr : r.length = right.fields.length)
    (hmore : more.Lacks c) (hmore' : more'.Lacks c) (hc : (left.merge right).contains c) :
    (left'.merge right').read ((l ++ added) ++ (r ++ added')) c =
    (left.merge right).read (l ++ r) c := by
  have hwide : (l ++ added).length = left'.fields.length := by simp [hleft, hl, hadded]
  obtain ⟨-, hlacks⟩ | ⟨hlacks, -⟩ := contains_merge hc
  · rw [read_append_left rfl hwide ((lacks_append hright).2 ⟨hlacks, hmore'⟩),
      read_append_left hleft hl hmore, read_append_left rfl hl hlacks]
  · rw [read_append_right rfl hwide ((lacks_append hleft).2 ⟨hlacks, hmore⟩),
      read_append_left hright hr hmore', read_append_right rfl hl hlacks]

theorem Scalar.IsOf.not_left (h : e.IsOf right)
    (he : ∀ c ∈ e.columns, (left.merge right).contains c) : ¬ ∀ c ∈ e.columns, left.contains c := by
  intro hleft
  obtain ⟨c, hc⟩ := List.exists_mem_of_ne_nil _ h.1
  obtain ⟨-, hlacks⟩ | ⟨hlacks, -⟩ := Schema.contains_merge (he c hc)
  · exact Schema.not_lacks_of_contains (h.2 c hc) hlacks
  · exact Schema.not_lacks_of_contains (hleft c hc) hlacks

theorem Scalar.side?_iff (he : ∀ c ∈ e.columns, (left.merge right).contains c) :
    (e.side? left right = some .left ↔ e.IsOf left) ∧
    (e.side? left right = some .right ↔ e.IsOf right) := by
  have hnot := fun h : e.IsOf right => h.not_left he
  simp only [IsOf, ne_eq] at hnot ⊢
  simp only [side?, List.isEmpty_iff, List.all_eq_true]
  grind

namespace JoinKey

variable {left right : Schema} {e : Scalar} {key : JoinKey} {cs residue : List Scalar}

/-- A condition says that the two values of a key are equal, one of each side. -/
structure Equates (key : JoinKey) (left right : Schema) (e : Scalar) : Prop where
  equality : e = key.left.eq key.right ∨ e = key.right.eq key.left
  left : key.left.IsOf left
  right : key.right.IsOf right

theorem ofCondition?_eq_some (he : ∀ c ∈ e.columns, (left.merge right).contains c) :
    ofCondition? left right e = some key ↔ key.Equates left right e := by
  have hsides {a b : Scalar} (hab : e = a.eq b) :=
    List.forall_mem_append.1 (Scalar.columns_binary a b .eq ▸ hab ▸ he)
  constructor
  · intro h
    unfold ofCondition? at h
    split at h
    next a b =>
      obtain ⟨ha, hb⟩ := hsides rfl
      split at h <;> cases h
      next hleft hright =>
        exact ⟨.inl rfl, (Scalar.side?_iff ha).1.1 hleft, (Scalar.side?_iff hb).2.1 hright⟩
      next hright hleft =>
        exact ⟨.inr rfl, (Scalar.side?_iff hb).1.1 hleft, (Scalar.side?_iff ha).2.1 hright⟩
    · cases h
  · rintro ⟨rfl | rfl, hleft, hright⟩
    · obtain ⟨ha, hb⟩ := hsides rfl
      simp only [ofCondition?, Scalar.eq, (Scalar.side?_iff ha).1.2 hleft,
        (Scalar.side?_iff hb).2.2 hright]
    · obtain ⟨ha, hb⟩ := hsides rfl
      simp only [ofCondition?, Scalar.eq, (Scalar.side?_iff hb).1.2 hleft,
        (Scalar.side?_iff ha).2.2 hright]

theorem of_split_none (h : split left right cs = (none, residue)) :
    residue = cs ∧ ∀ e ∈ cs, ofCondition? left right e = none := by
  fun_induction split left right cs generalizing residue with
  | case1 => cases h; exact ⟨rfl, by simp⟩
  | case2 => cases h
  | case3 c rest hc found others hsplit ih =>
    cases h
    obtain ⟨rfl, hrest⟩ := ih hsplit
    exact ⟨rfl, List.forall_mem_cons.2 ⟨hc, hrest⟩⟩

theorem of_split_some (h : split left right cs = (some key, residue)) :
    ∃ e, ofCondition? left right e = some key ∧ cs.Perm (e :: residue) := by
  fun_induction split left right cs generalizing residue with
  | case1 => cases h
  | case2 c rest found hc => cases h; exact ⟨c, hc, .refl _⟩
  | case3 c rest hc found others hsplit ih =>
    cases h
    obtain ⟨e, he, hperm⟩ := ih hsplit
    exact ⟨e, he, (hperm.cons c).trans (.swap ..)⟩

namespace Equates

variable {ops : Operations} {env : Env} {l r : Row}

theorem truth_iff (h : key.Equates left right e)
    (he : ∀ c ∈ e.columns, (left.merge right).contains c)
    (hsymm : ∀ v w, ops.equal v w → ops.equal w v) (hl : l.length = left.fields.length) :
    (e.eval ops env (left.merge right) (l ++ r)).truth = .true ↔
      ops.same (key.left.eval ops env left l) (key.right.eval ops env right r) = .true := by
  have hcolumns : key.left.columns ⊆ e.columns ∧ key.right.columns ⊆ e.columns := by
    obtain rfl | rfl := h.equality <;> simp [Scalar.eq, Scalar.columns_binary]
  have hleft : key.left.eval ops env (left.merge right) (l ++ r) =
      key.left.eval ops env left l := by
    refine Scalar.eval_of_read fun c hc => Schema.read_append_left rfl hl ?_
    refine ((Schema.contains_merge (he c (hcolumns.1 hc))).resolve_right fun hlacks => ?_).2
    exact Schema.not_lacks_of_contains (h.left.2 c hc) hlacks.1
  have hright : key.right.eval ops env (left.merge right) (l ++ r) =
      key.right.eval ops env right r := by
    refine Scalar.eval_of_read fun c hc => Schema.read_append_right rfl hl ?_
    refine ((Schema.contains_merge (he c (hcolumns.2 hc))).resolve_left fun hlacks => ?_).1
    exact Schema.not_lacks_of_contains (h.right.2 c hc) hlacks.2
  obtain rfl | rfl := h.equality
  · rw [Scalar.eq, Scalar.eval, hleft, hright, ← Operations.same]
  · have hswap {v w : Value} (h : ops.same v w = .true) : ops.same w v = .true := by
      rw [Operations.same_eq_true] at h ⊢
      exact ⟨h.2.1, h.1, hsymm _ _ h.2.2⟩
    rw [Scalar.eq, Scalar.eval, hleft, hright, ← Operations.same]
    exact ⟨hswap, hswap⟩

end Equates

end JoinKey

/-- An expression is the column that tells the rows of a schema apart. -/
def Schema.IsKey (s : Schema) (e : Scalar) : Prop :=
  ∃ c, e = .column c ∧ s.isPrimaryKey c

namespace Plan

variable {p q : Plan}

theorem not_isPrimaryKey_define (hp : p.schema.Keyed) {d : Definition}
    (hd : p.schema.Lacks d.column) : ¬ (p.define [d]).schema.isPrimaryKey d.column := by
  intro h
  have hfields : (p.define [d]).schema.fields = p.schema.fields ++
      (Schema.ofFields [d.field]).fields := rfl
  unfold Schema.isPrimaryKey at h
  split at h
  next key i hprimary hi =>
    have hprimary : (p.schema.primaryKey.filter _) = some key := hprimary
    obtain ⟨j, g, hg⟩ := Schema.contains_iff.1 (hp key (Option.filter_eq_some_iff.1 hprimary).1)
    obtain ⟨f, hf⟩ := Schema.index?_eq_some.1 hi
    obtain ⟨f', hf'⟩ := Schema.index?_eq_some.1 (beq_iff_eq.1 h)
    have hj := (List.getElem?_eq_some_iff.1 (Schema.getElem?_of_candidates hg)).1
    rw [Schema.candidates_append hfields, show p.schema.candidates _ = [] from hd,
      candidates_singleton] at hf
    rw [Schema.candidates_append hfields, hg] at hf'
    simp only [List.map_cons, List.map_nil, List.nil_append, List.cons_append, List.cons.injEq,
      Prod.mk.injEq] at hf hf'
    omega
  · cases h

theorem isPrimaryKey_withColumn {x : Scalar} {column : Column} {c : BindContext} {s s' : BindState}
    (hp : p.schema.Keyed) (h : (p.withColumn x).start c s = (.ok (q, column), s'))
    (hfree : p.schema.Free s.names.exprs s'.names.exprs) :
    q.schema.isPrimaryKey column ↔ p.schema.IsKey x := by
  obtain ⟨⟨column', definition⟩, s₁, hcolumn, h⟩ := exists_of_start_bind h
  cases h
  unfold Scalar.asColumn at hcolumn
  split at hcolumn
  next d =>
    cases hcolumn
    simp [Schema.IsKey, define]
  next hx =>
    obtain ⟨type, -, hcolumn⟩ := exists_of_start_lift_bind hcolumn
    obtain ⟨name, s₂, hname, hcolumn⟩ := exists_of_start_bind hcolumn
    obtain ⟨rfl, rfl⟩ := start_freshExpr hname
    cases hcolumn
    refine iff_of_false
      (not_isPrimaryKey_define hp (hfree _ (Nat.le_refl _) (Nat.lt_succ_self _))) ?_
    rintro ⟨d, hd, -⟩
    exact hx d hd

/-- A side of a join: the plan that is joined, with a value more in its rows, and the column of the
key. -/
structure Offers (rt : Runtime) (env : Env) (p q : Plan) (more : Schema) (added : Row → Row)
    (c : Column) (value : Scalar) : Prop where
  rows : p.Extends rt env q more added
  key : c.Carries p q added (value.eval rt.toOperations env p.schema)

variable {rt : Runtime} {env : Env} {more : Schema} {added : Row → Row} {c : Column}
    {value : Scalar}

theorem Offers.orderedIf (h : p.Offers rt env q more added c value)
    (keys : List SortKey) (b : Bool) :
    p.Offers rt env (if b then q.ordered keys else q) more added c value := by
  cases b with
  | false => exact h
  | true =>
    have hfields : (q.ordered keys).schema.fields = q.schema.fields := q.fields_ordered keys
    refine ⟨⟨hfields.trans h.rows.fields, (rows_ordered rt env q keys).trans h.rows.rows,
      h.rows.length⟩, ?_, fun row hrow => (Schema.read_congr hfields).trans (h.key.read row hrow)⟩
    have hcontains := h.key.contains
    rwa [Schema.contains, Schema.index?, Schema.candidates, ← hfields] at hcontains

def join? : Plan → Option (Plan × Plan × JoinSpec)
  | .join left right spec | .filter (.join left right spec) _ => some (left, right, spec)
  | _ => none

/-- Two rows of the inputs match in a join, and the pair passes the filter above it. -/
def pairs (ops : Operations) (env : Env) (l r : Row) : Plan → Bool
  | .join left right spec => spec.admits ops env left.schema right.schema l r
  | .filter (.join left right spec) e => spec.admits ops env left.schema right.schema l r &&
      (e.eval ops env (Plan.join left right spec).schema (l ++ r)).truth == .true
  | _ => false

section

variable (left right : Plan) (leftKey rightKey : Column) (type : JoinType) (residue : List Scalar)

theorem join?_keyJoin {merges : Bool}
    (h : (left.schema.isPrimaryKey leftKey || right.schema.isPrimaryKey rightKey) = merges) :
    ∃ condition, (left.keyJoin right leftKey rightKey type residue).join? = some
      (if merges then left.ordered [⟨leftKey, .asc⟩] else left,
        if merges then right.ordered [⟨rightKey, .asc⟩] else right,
        { type, strategy := if merges then .merge leftKey rightKey else .hash leftKey rightKey,
          condition }) := by
  unfold keyJoin
  dsimp only
  rw [h]
  split
  next htype =>
    subst htype
    cases Scalar.conjunction? residue <;> exact ⟨_, rfl⟩
  · exact ⟨_, rfl⟩

theorem pairs_keyJoin (ops : Operations) (env : Env) (l r : Row) :
    (left.keyJoin right leftKey rightKey type residue).pairs ops env l r ↔
      ops.same (left.schema.read l leftKey) (right.schema.read r rightKey) = .true ∧
      ∀ e ∈ residue, (e.eval ops env (left.schema.merge right.schema) (l ++ r)).truth = .true := by
  rw [← Scalar.truth_conjunction?]
  unfold keyJoin
  dsimp only
  generalize (left.schema.isPrimaryKey leftKey || right.schema.isPrimaryKey rightKey) = merges
  have hleft : (if merges then left.ordered [⟨leftKey, .asc⟩] else left).schema.fields =
      left.schema.fields := by
    split <;> simp [fields_ordered]
  have hright : (if merges then right.ordered [⟨rightKey, .asc⟩] else right).schema.fields =
      right.schema.fields := by
    split <;> simp [fields_ordered]
  generalize (if merges then left.ordered [⟨leftKey, .asc⟩] else left) = L at hleft ⊢
  generalize (if merges then right.ordered [⟨rightKey, .asc⟩] else right) = R at hright ⊢
  have hagrees : JoinStrategy.agrees ops L.schema R.schema l r
      (if merges then .merge leftKey rightKey else .hash leftKey rightKey) ↔
        ops.same (left.schema.read l leftKey) (right.schema.read r rightKey) = .true := by
    rw [← Schema.read_congr hleft, ← Schema.read_congr hright]
    split <;> exact beq_iff_eq
  have heval (s : Schema) (hs : s.fields = L.schema.fields ++ R.schema.fields) (e : Scalar) :
      e.eval ops env s (l ++ r) = e.eval ops env (left.schema.merge right.schema) (l ++ r) :=
    Scalar.eval_of_read fun c _ => Schema.read_congr (hs.trans (congrArg₂ _ hleft hright))
  split
  next htype =>
    subst htype
    cases hresidue : Scalar.conjunction? residue with
    | none => simp [pairs, JoinSpec.admits, hagrees]
    | some e =>
      simp only [pairs, JoinSpec.admits, Option.all_none, Bool.and_true, Bool.and_eq_true,
        hagrees, beq_iff_eq, Option.mem_some_iff, forall_eq']
      rw [heval _ ?_]
      rw [fields_join_both L R rfl, List.map_nil, List.append_nil]
      exact congrArg₂ _ (padded_false _) (padded_false _)
  · cases Scalar.conjunction? residue with
    | none => simp [pairs, JoinSpec.admits, hagrees]
    | some e => simp [pairs, JoinSpec.admits, hagrees, heval (L.schema.merge R.schema) rfl]

end

/-- A plan joins two others under a condition: how rows of the two match in it, and how they are
found. -/
structure Assembles (rt : Runtime) (env : Env) (left right : Plan) (type : JoinType)
    (condition : Option Scalar)
    (plan left' right' : Plan) (spec : JoinSpec) (added added' : Row → Row) : Prop where
  join : plan.join? = some (left', right', spec) ∧ spec.type = type ∧ spec.output = .both
  extendsLeft : ∃ more, left.Extends rt env left' more added
  extendsRight : ∃ more, right.Extends rt env right' more added'
  pairs : ∀ l r, l.length = left.schema.fields.length → r.length = right.schema.fields.length →
    (plan.pairs rt.toOperations env (l ++ added l) (r ++ added' r) ↔
      ∀ e ∈ condition, (e.eval rt.toOperations env (left.schema.merge right.schema)
        (l ++ r)).truth = .true)
  strategy :
    spec.strategy = .nestedLoop [] ∧
      (∀ d ∈ Scalar.conditions condition, ∀ key : JoinKey,
        ¬ key.Equates left.schema right.schema d) ∨
    ∃ (key : JoinKey) (leftKey rightKey : Column),
      (∃ d ∈ Scalar.conditions condition, key.Equates left.schema right.schema d) ∧
      leftKey.Carries left left' added (key.left.eval rt.toOperations env left.schema) ∧
      rightKey.Carries right right' added' (key.right.eval rt.toOperations env right.schema) ∧
      (spec.strategy = .merge leftKey rightKey ∧
        (left.schema.IsKey key.left ∨ right.schema.IsKey key.right) ∨
       spec.strategy = .hash leftKey rightKey ∧
         ¬ (left.schema.IsKey key.left ∨ right.schema.IsKey key.right))

variable {left right plan : Plan} {type : JoinType} {condition : Option Scalar}
    {c : BindContext} {s s' : BindState}

theorem assembles_loopJoin (rt : Runtime) (env : Env)
    (hcondition : ∀ e ∈ condition, ∀ c ∈ e.columns, (left.schema.merge right.schema).contains c)
    (hnone : ∀ d ∈ Scalar.conditions condition,
      JoinKey.ofCondition? left.schema right.schema d = none)
    (h : (left.loopJoin right type (Scalar.conditions condition)).start c s = (.ok plan, s')) :
    ∃ left' right' spec added added',
      Assembles rt env left right type condition plan left' right' spec added added' := by
  unfold loopJoin at h
  split at h
  · cases h
  obtain ⟨kept, s₁, hkept, h⟩ := exists_of_start_bind h
  cases h
  obtain ⟨hfields, hrows, -⟩ := QueryBinder.rows_spooled rt hkept
  refine ⟨left, kept, _, fun _ => [], fun _ => [], ⟨rfl, rfl, rfl⟩, ⟨.empty, .refl left⟩,
    ⟨.empty, by simp [hfields, Schema.empty], by simp [hrows], fun _ => rfl⟩,
      fun l r _ _ => ?_, .inl ⟨rfl, ?_⟩⟩
  · rw [Scalar.truth_conditions, ← Scalar.truth_conjunction?]
    have heval (e : Scalar) : e.eval rt.toOperations env (left.schema.merge kept.schema) (l ++ r) =
        e.eval rt.toOperations env (left.schema.merge right.schema) (l ++ r) :=
      Scalar.eval_of_read fun c _ => Schema.read_congr (congrArg (left.schema.fields ++ ·) hfields)
    cases Scalar.conjunction? (Scalar.conditions condition) <;>
      simp [pairs, JoinSpec.admits, JoinStrategy.agrees, heval]
  · intro d hd key hkey
    have hsome := (JoinKey.ofCondition?_eq_some (Scalar.contains_conditions hcondition hd)).2 hkey
    rw [hnone d hd] at hsome
    cases hsome

theorem assembles_keyJoin (rt : Runtime) (env : Env) (hsymm : ∀ v w, rt.equal v w → rt.equal w v)
    (hleft : left.schema.Keyed) (hright : right.schema.Keyed)
    (hcondition : ∀ e ∈ condition, ∀ c ∈ e.columns, (left.schema.merge right.schema).contains c)
    {key : JoinKey} {residue : List Scalar}
    (he : JoinKey.ofCondition? left.schema right.schema e = some key)
    (hperm : (Scalar.conditions condition).Perm (e :: residue)) {wideLeft wideRight : Plan}
    {leftKey rightKey : Column} {t t' : DataType} {s₁ : BindState}
    (ht : key.left.dataType left.schema = .ok t) (ht' : key.right.dataType right.schema = .ok t')
    (hwideLeft : (left.withColumn key.left).start c s = (.ok (wideLeft, leftKey), s₁))
    (hwideRight : (right.withColumn key.right).start c s₁ = (.ok (wideRight, rightKey), s'))
    (hfree : (left.schema.merge right.schema).Free s.names.exprs s'.names.exprs) :
    ∃ left' right' spec added added', Assembles rt env left right type condition
      (wideLeft.keyJoin wideRight leftKey rightKey type residue)
        left' right' spec added added' := by
  have hs₁ := (tame_withColumn left key.left).exprs_le hwideLeft
  have hs' := (tame_withColumn right key.right).exprs_le hwideRight
  have hfrees := (Schema.free_append rfl).1 hfree
  have hfreeLeft := hfrees.1.mono (Nat.le_refl _) hs'
  have hfreeRight := hfrees.2.mono hs₁ (Nat.le_refl _)
  obtain ⟨more, added, hextends, hmore, hcarries, -⟩ :=
    extends_withColumn rt env ht hwideLeft hfreeLeft
  obtain ⟨more', added', hextends', hmore', hcarries', -⟩ :=
    extends_withColumn rt env ht' hwideRight hfreeRight
  have hcontains {d : Scalar} (hd : d ∈ e :: residue) :=
    Scalar.contains_conditions hcondition (hperm.mem_iff.2 hd)
  have hequates := (JoinKey.ofCondition?_eq_some (hcontains (List.mem_cons_self ..))).1 he
  obtain ⟨_, hjoin⟩ := join?_keyJoin wideLeft wideRight leftKey rightKey type residue rfl
  have hoffers := (Offers.mk hextends hcarries).orderedIf [⟨leftKey, .asc⟩]
  have hoffers' := (Offers.mk hextends' hcarries').orderedIf [⟨rightKey, .asc⟩]
  refine ⟨_, _, _, added, added', ⟨hjoin, rfl, rfl⟩, ⟨more, (hoffers _).rows⟩,
    ⟨more', (hoffers' _).rows⟩,
    fun l r hl hr => ?_, .inr ⟨key, leftKey, rightKey,
      ⟨e, hperm.mem_iff.2 (List.mem_cons_self ..), hequates⟩,
      (hoffers _).key, (hoffers' _).key, ?_⟩⟩
  · rw [Scalar.truth_conditions, pairs_keyJoin, hcarries.read l hl, hcarries'.read r hr,
      ← hequates.truth_iff (hcontains (List.mem_cons_self ..)) hsymm hl]
    simp only [hperm.mem_iff, List.forall_mem_cons]
    refine and_congr_right fun _ => forall₂_congr fun d hd => ?_
    rw [Scalar.eval_of_read fun column hcolumn => ?_]
    have hcolumn := hcontains (List.mem_cons_of_mem _ hd) column hcolumn
    have hlacks := Schema.not_lacks_of_contains hcolumn
    exact Schema.read_widened hextends.fields hextends'.fields hl (hextends.length l) hr
      (hfree.lacks (hmore.mono (Nat.le_refl _) hs') hlacks)
      (hfree.lacks (hmore'.mono hs₁ (Nat.le_refl _)) hlacks) hcolumn
  · have hkeys := or_congr (isPrimaryKey_withColumn hleft hwideLeft hfreeLeft)
      (isPrimaryKey_withColumn hright hwideRight hfreeRight)
    rw [← hkeys, ← Bool.or_eq_true]
    cases hmerges : wideLeft.schema.isPrimaryKey leftKey ||
      wideRight.schema.isPrimaryKey rightKey <;> simp

/-- Rows match in the join of two plans if the condition is TRUE for them. The sides are merged if a
value that is compared is the primary key of its side, hashed if values of the sides are compared
and none of them is, and looped over if there are no such values. -/
theorem joined_assembles (rt : Runtime) (env : Env) (hsymm : ∀ v w, rt.equal v w → rt.equal w v)
    (hleft : left.schema.Keyed) (hright : right.schema.Keyed)
    (hcondition : ∀ e ∈ condition, ∀ c ∈ e.columns, (left.schema.merge right.schema).contains c)
    (hfree : (left.schema.merge right.schema).Free s.names.exprs s'.names.exprs)
    (h : (left.joined right type condition).start c s = (.ok plan, s')) :
    ∃ left' right' spec added added',
      Assembles rt env left right type condition plan left' right' spec added added' := by
  unfold joined at h
  dsimp only at h
  split at h
  next residue hsplit =>
    obtain ⟨rfl, hnone⟩ := JoinKey.of_split_none hsplit
    exact assembles_loopJoin rt env hcondition hnone h
  next key residue hsplit =>
    obtain ⟨e, he, hperm⟩ := JoinKey.of_split_some hsplit
    rw [start_read_bind] at h
    obtain ⟨_, hmatch, h⟩ := exists_of_start_lift_bind h
    obtain ⟨⟨wideLeft, leftKey⟩, s₁, hwideLeft, h⟩ := exists_of_start_bind h
    obtain ⟨⟨wideRight, rightKey⟩, s₂, hwideRight, h⟩ := exists_of_start_bind h
    cases h
    obtain ⟨t, ht, hmatch⟩ := Result.exists_of_bind hmatch
    obtain ⟨t', ht', -⟩ := Result.exists_of_bind hmatch
    exact assembles_keyJoin rt env hsymm hleft hright hcondition he hperm ht
      ht' hwideLeft hwideRight hfree

def comparedWith (name : String) : Plan := .scan
  { entity := "p", relation := "d", source := .entity, primaryKey := none, rowCount := none,
    columns := [⟨name, .int32, true, none⟩, ⟨"y", .int32, true, none⟩] }

def compared : Plan := .scan
  { entity := "q", relation := "a", source := .entity, primaryKey := none, rowCount := none,
    columns := [⟨"z", .int32, true, none⟩] }

def comparison : Scalar :=
  (((Scalar.column (.bare "y")).binary .add (.int 1)).eq (.column (.bare "z"))).and
    ((Scalar.column (.bare "y")).eq (.column (.bare "y")))

def comparedTables : Runtime := .ofTables fun _ => [[.int32 1, .int32 2]]

def comparedContext : BindContext := { catalog := { entities := [] }, options := {} }

theorem compared_assembles : ∃ plan s',
    ((comparedWith "x").joined compared .inner (some comparison)).start comparedContext
    { session := .empty } = (.ok plan, s') ∧
    ∃ left' right' spec added added', Assembles comparedTables .empty (comparedWith "x")
      compared .inner (some comparison) plan left' right' spec added added' := by
  have h := start_eq_value (x := (comparedWith "x").joined compared .inner (some comparison))
    (c := comparedContext) (s := { session := .empty }) (by decide +kernel)
  exact ⟨_, _, h, joined_assembles comparedTables .empty
    (fun v w => by simp [comparedTables, Runtime.ofTables, BEq.comm])
    (by unfold Schema.Keyed; decide) (by unfold Schema.Keyed; decide) (by decide +kernel)
    (by decide +kernel) h⟩

/-- Where a side has a column with the name that is given to the key, no rows match. -/
theorem compared_clash : ∃ plan s' left' right' spec,
    ((comparedWith "Expr1").joined compared .inner (some comparison)).start comparedContext
    { session := .empty } = (.ok plan, s') ∧ plan.join? = some (left', right', spec) ∧
    left'.rows comparedTables .empty = [[.int32 1, .int32 2, .int32 2]] ∧
    (comparison.eval comparedTables.toOperations .empty
      ((comparedWith "Expr1").schema.merge compared.schema)
      [.int32 1, .int32 2, .int32 2]).truth = .true ∧
    plan.pairs comparedTables.toOperations .empty [.int32 1, .int32 2, .int32 2]
      [.int32 2] = false := by
  have h := start_eq_value (x := (comparedWith "Expr1").joined compared .inner (some comparison))
    (c := comparedContext) (s := { session := .empty }) (by decide +kernel)
  exact ⟨_, _, _, _, _, h, rfl, by decide +kernel, by decide +kernel, by decide +kernel⟩

end Plan

end BatchPlan
