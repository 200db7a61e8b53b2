import BatchPlan.Proofs.Binding.Logic

namespace BatchPlan

namespace Scope

section

variable {L : Logic} {w : L.World} {s : Scope} (hs : s.Fits L.toAccount w)

include hs

theorem holds_resolve (c : Column) : L.Holds w (s.resolve c) fun e w' => L.Value w' e := by
  refine .test (by simp) fun own hown => ?_
  split
  next i field =>
    have hfound := Schema.find?_eq_some.1 hown
    exact .pure (Account.value_column.2 fun h =>
      hs.names h field (Schema.mem_of_candidates hfound).1)
  next =>
    refine .test (by simp) fun owner howner => ?_
    split
    next level field =>
      obtain ⟨i, n, rfl, hnearest⟩ := owner?_eq_some.1 howner
      rw [Nat.zero_add]
      exact L.capture hs.outer hnearest
    next => exact .throw (by unfold missing; split <;> simp)

theorem holds_bindIdent (name : Sql.Ident) :
    L.Holds w (s.bindIdent name) fun e w' => L.Value w' e := by
  refine .check (by simp) fun _ => .ite (fun _ => ?_) fun _ => holds_resolve hs _
  exact Logic.Stays.next (L.lookupVariable w _) fun _ hv => .pure hv

theorem holds_bindCompound (parts : List Sql.Ident) :
    L.Holds w (s.bindCompound parts) fun e w' => L.Value w' e := by
  unfold bindCompound
  dsimp only
  split
  · exact .check (by simp) fun _ => holds_resolve hs _
  · exact .throw (by simp)

omit hs in
theorem holds_bind {w : L.World} (hs : s.Fits L.toAccount w) (e : Sql.Expr) :
    L.Holds w (s.bind e) fun e w' => L.Value w' e := by
  obtain ⟨value, hvalue, h⟩ | ⟨name, h⟩ | ⟨parts, h⟩ | h := s.bind_cases e
  · exact h ▸ .pure (hs.computed _ (mem_of_computed? hvalue))
  · exact h ▸ holds_bindIdent hs name
  · exact h ▸ holds_bindCompound hs parts
  · suffices hsteps : ∀ values x, s.Steps e values x → ∀ w, s.Fits L.toAccount w →
        (∀ v ∈ values, L.Value w v) → L.Holds w x fun e w' =>
          L.Value w' e from hsteps _ _ h w hs nofun
    intro values x hx
    induction hx with
    | lift hr hmade =>
      exact fun w _ hvalues => .lift hr fun a ha => L.value_made (hmade a ha) hvalues
    | test hr _ ih => exact fun w hs hvalues => .test hr fun a ha => ih a ha w hs hvalues
    | bind hd _ ih =>
      intro w hs hvalues
      refine (holds_bind hs _).bind fun a w' hw ha => ih a w' (hs.later hw) ?_
      exact List.forall_mem_cons.2 ⟨ha, fun v hv => (hvalues v hv).later hw⟩
termination_by sizeOf e

theorem holds_bindChecked (e : Sql.Expr) : L.Holds w (s.bindChecked e) fun e w' => L.Value w' e :=
  (holds_bind hs e).bind fun _ _ _ he => .ignore (by simp) fun _ _ =>
    L.consult (fun _ => .test (by simp) fun _ _ => .pure he) fun _ _ h => by simp only [h.options]

theorem holds_bindPredicate (e : Sql.Expr) :
    L.Holds w (s.bindPredicate e) fun e w' => L.Value w' e := by
  refine (holds_bindChecked hs e).bind fun _ _ _ he => .test (by simp) fun type _ => ?_
  split
  · exact .pure he
  · exact .pure he
  · exact .throw (by simp)

end

end Scope

theorem JoinKey.mem_of_split {left right : Schema} {conditions residue : List Scalar}
    {key : Option JoinKey} (h : split left right conditions = (key, residue)) :
    (∀ k ∈ key, k.left.binary .eq k.right ∈ conditions ∨ k.right.binary .eq k.left ∈ conditions) ∧
      residue ⊆ conditions := by
  fun_induction split left right conditions generalizing key residue with
  | case1 =>
    cases h
    simp
  | case2 c rest found hfound =>
    cases h
    refine ⟨?_, List.subset_cons_self c rest⟩
    rintro _ ⟨⟩
    unfold ofCondition? at hfound
    split at hfound
    · split at hfound <;> cases hfound <;> simp
    · cases hfound
  | case3 c rest _ found others hsplit ih =>
    cases h
    obtain ⟨hkey, hresidue⟩ := ih hsplit
    exact ⟨fun k hk => (hkey k hk).imp (List.mem_cons_of_mem c) (List.mem_cons_of_mem c),
      List.cons_subset_cons c hresidue⟩

section

variable {L : Logic} {a m w : L.World} {p left right : Plan} {e : Scalar}

theorem Scalar.holds_hoisted (he : L.Value w e) (schema : Schema) :
    L.Holds w (e.asColumn schema) fun r w' =>
      L.Gives w' r.1 ∧ ∀ d ∈ r.2, d.expr = e ∧ L.Defines w' schema d := by
  unfold Scalar.asColumn
  split
  next c => exact .pure ⟨Account.value_column.1 he, nofun⟩
  next e _ =>
    refine .test (by simp) fun t ht => (L.freshExpr w).bind fun name w' hw hname =>
      .pure ⟨hname.coins.gives, ?_⟩
    rintro _ ⟨⟩
    exact ⟨rfl, he.later hw, fun hst =>
      ⟨fun t' ht' => Except.ok.inj (ht.symm.trans ht'), hname.coins hst⟩⟩

theorem Scalar.holds_asColumn (he : L.Value w e) (schema : Schema) :
    L.Holds w (e.asColumn schema) fun r w' => L.Gives w' r.1 ∧ ∀ d ∈ r.2, L.Defines w' schema d :=
  (holds_hoisted he schema).mono fun _ _ _ h => ⟨h.1, fun d hd => (h.2 d hd).2⟩

namespace Plan

theorem holds_withColumn (he : L.Value w e) (p : Plan) : L.Holds w (p.withColumn e) fun r w' =>
    ∃ values, r.1 = p.define values ∧ (∀ d ∈ values, d.expr = e ∧ L.Defines w' p.schema d) ∧
      L.Gives w' r.2 :=
  (Scalar.holds_hoisted he p.schema).bind fun (_, definition) _ _ h =>
    .pure ⟨definition.toList, rfl, by simpa using h.2, h.1⟩

/-- A loop over rows that are kept, unless they are kept already. -/
theorem holds_keep {i : L.World → L.World} (hi : L.Along i) (h : L.Pair a (i w) left right)
    {spec : JoinSpec} (hloop : spec.strategy = .nestedLoop [])
    (hvalues : ∀ e ∈ (Plan.join left right spec).expressions, L.Value (i w) e)
    (hchecks : L.strict → spec.Checks (L.ledger w) left.schema right.schema ∧
      (spec.definitions ≠ [] → right.params = [])) :
    L.Holds w right.spooled fun kept w' => L.Rows a (i w') (.join left kept spec) ∧
    right.Kept kept := by
  have hjoin : L.Rows a (i w) (.join left right spec) := by
    refine L.rows_join h (by rw [hloop]; rfl) hvalues fun hst => ⟨?_, by simp [MergesSorted, hloop]⟩
    rw [hi.ledger]
    exact (hchecks hst).1
  unfold spooled
  split
  · exact .pure ⟨hjoin, .inl rfl⟩
  · exact .pure ⟨hjoin, .inl rfl⟩
  · refine (L.freshSpool w).bind fun id w' hw hid => .pure ⟨?_, .inr ⟨id, rfl⟩⟩
    refine L.rows_keep h (hi.fresh hid) hloop (fun e he => (hvalues e he).later (hi.later hw))
      fun hst => ?_
    rw [hi.ledger]
    exact (hchecks hst).imp_left fun h => h.mono (L.ledger_later hw)

/-- A loop that sets no parameter. -/
theorem holds_loop (h : L.Sides a w left right) (type : JoinType) (condition : Option Scalar)
    (hcondition : ∀ e ∈ condition, L.Value w e) : L.Holds w right.spooled fun kept w' =>
      L.Shows a w' (.join left kept { type, strategy := .nestedLoop [], condition }) := by
  refine (holds_keep L.along_id h.pair rfl ?_ fun _ => ?_).mono
    fun kept w' hw ⟨hrows, hkept⟩ => .join hrows (h.later hw).left (fun hst _ f hf => ?_)
      (List.forall_mem_nil _)
  · simpa [Plan.expressions] using hcondition
  · exact ⟨.loop rfl (List.forall_mem_nil _) (List.forall_mem_nil _), fun h => absurd rfl h⟩
  · exact (h.later hw).right hst f (hkept.fields ▸ hf)

theorem holds_joined (h : L.Sides a w left right) (type : JoinType) {condition : Option Scalar}
    (hcondition : ∀ e ∈ condition, L.Value w e) :
    L.Holds w (left.joined right type condition) fun p w' => L.Shows a w' p := by
  have hconjuncts : ∀ e ∈ (condition.map Scalar.conjuncts).getD [], L.Value w e := by
    cases condition with
    | none => nofun
    | some e => exact Scalar.forall_conjuncts (fun _ _ => Account.value_binary.1) (hcondition e rfl)
  unfold joined
  dsimp only
  split
  next residue hsplit =>
    have hresidue := (JoinKey.mem_of_split hsplit).2
    exact .check (by simp) fun _ => (holds_loop h type _ (Account.value_conjunction? fun e he =>
      hconjuncts e (hresidue he))).bind fun _ _ _ h => .pure h
  next key residue hsplit =>
    obtain ⟨hkey, hresidue⟩ := JoinKey.mem_of_split hsplit
    have hsides : L.Value w key.left ∧ L.Value w key.right := by
      obtain h | h := hkey key rfl
      · exact Account.value_binary.1 (hconjuncts _ h)
      · exact (Account.value_binary.1 (hconjuncts _ h)).symm
    refine L.consult (fun _ => .test (by simp) fun _ _ => ?_) fun _ _ h => by simp only [h.options]
    refine (holds_withColumn hsides.1 left).bind fun (l, leftKey) w₁ h₁ hl =>
      (holds_withColumn (hsides.2.later h₁) right).bind fun (r, rightKey) w₂ h₂ hr => .pure ?_
    obtain ⟨leftValues, rfl, hleft, -⟩ := hl
    obtain ⟨rightValues, rfl, hright, -⟩ := hr
    have h := ((h.later (le_trans h₁ h₂)).define fun d hd => (hleft d hd).2.later h₂).symm.define
      fun d hd => (hright d hd).2
    exact h.symm.keyJoin leftKey rightKey type fun e he =>
      (hconjuncts e (hresidue he)).later (le_trans h₁ h₂)

end Plan

end

end BatchPlan
