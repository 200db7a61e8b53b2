import BatchPlan.Proofs.Binding.Reason

namespace BatchPlan

namespace Scalar

variable {bound : Scalar} {P : Scalar → Prop} {β : Type} {f : Scalar → List β}

def operands : Scalar → List Scalar
  | .column _ | .literal _ | .var .. | .outer .. => []
  | .unary _ e | .cast e _ | .collate e _ => [e]
  | .binary left _ right => [left, right]
  | .call _ args => args
  | .case operand branches otherwise =>
    operand.toList ++ branches.flatMap (fun b => [b.1, b.2]) ++ otherwise.toList
  | .inList e items _ => e :: items
  | .between e low high _ => [e, low, high]

theorem partsOfList_eq (es : List Scalar) : partsOfList es = es.flatMap parts := by
  induction es with
  | nil => rfl
  | cons e rest ih => rw [partsOfList, ih, List.flatMap_cons]

theorem partsOfOption_eq (o : Option Scalar) : partsOfOption o = o.toList.flatMap parts := by
  cases o <;> simp [partsOfOption]

theorem partsOfBranches_eq (bs : List (Scalar × Scalar)) :
    partsOfBranches bs = (bs.flatMap fun b => [b.1, b.2]).flatMap parts := by
  induction bs with
  | nil => rfl
  | cons b rest ih => simp [partsOfBranches, ih]

theorem parts_eq (e : Scalar) : e.parts = e :: e.operands.flatMap parts := by
  cases e <;>
    simp [parts, operands, partsOfList_eq, partsOfOption_eq, partsOfBranches_eq]

/-- An expression is another one, or stands in it at any depth. -/
inductive Within (part : Scalar) : Scalar → Prop
  | self : Within part part
  | operand {d e : Scalar} (hd : d ∈ e.operands) (h : Within part d) : Within part e

theorem sizeOf_lt_of_mem_operands {d e : Scalar} (h : d ∈ e.operands) : sizeOf d < sizeOf e := by
  cases e with
  | call f args =>
    have : sizeOf d < sizeOf args := List.sizeOf_lt_of_mem h
    simp +arith
    omega
  | inList e items negated =>
    obtain rfl | h := List.mem_cons.1 h
    · simp +arith
    · have := List.sizeOf_lt_of_mem h
      simp +arith
      omega
  | case operand branches otherwise =>
    simp only [operands, List.mem_append, List.mem_flatMap, Option.mem_toList] at h
    obtain (rfl | ⟨b, hb, h⟩) | rfl := h
    · simp +arith
    · have hb := List.sizeOf_lt_of_mem hb
      have hsize : sizeOf b = 1 + sizeOf b.1 + sizeOf b.2 := rfl
      obtain rfl | rfl : d = b.1 ∨ d = b.2 := by simpa using h
      all_goals
        simp +arith
        omega
    · simp +arith
  | _ => simp only [operands, List.mem_cons, List.not_mem_nil, or_false] at h <;> grind

theorem mem_parts_iff {part : Scalar} (e : Scalar) : part ∈ e.parts ↔ part.Within e := by
  constructor
  · intro h
    rw [parts_eq, List.mem_cons, List.mem_flatMap] at h
    obtain rfl | ⟨d, hd, h⟩ := h
    · exact .self
    · exact .operand hd ((mem_parts_iff d).1 h)
  · intro h
    induction h with
    | self => exact parts_eq part ▸ List.mem_cons_self
    | @operand d e hd _ ih =>
      rw [parts_eq]
      exact List.mem_cons_of_mem e (List.mem_flatMap.2 ⟨d, hd, ih⟩)
termination_by sizeOf e
decreasing_by exact sizeOf_lt_of_mem_operands hd

theorem forall_conjuncts (hP : ∀ l r, P (.binary l .and r) → P l ∧ P r) {e : Scalar} (h : P e) :
    ∀ d ∈ e.conjuncts, P d := by
  fun_induction conjuncts e with
  | case1 l r ihl ihr =>
    obtain ⟨hl, hr⟩ := hP l r h
    exact List.forall_mem_append.2 ⟨ihl hl, ihr hr⟩
  | case2 => exact List.forall_mem_singleton.2 h

theorem forall_conjunction? (hP : ∀ l r, P l → P r → P (.binary l .and r)) {es : List Scalar}
    (h : ∀ e ∈ es, P e) : ∀ e ∈ conjunction? es, P e := by
  cases es with
  | nil => nofun
  | cons e es =>
    rintro _ ⟨⟩
    rw [List.forall_mem_cons] at h
    obtain ⟨he, hes⟩ := h
    induction es generalizing e with
    | nil => exact he
    | cons e' es ih =>
      rw [List.forall_mem_cons] at hes
      exact ih _ (hP _ _ he hes.1) hes.2

theorem flatMap_conjuncts (hf : ∀ a b, f (.binary a .and b) = f a ++ f b) (e : Scalar) :
    e.conjuncts.flatMap f = f e := by
  fun_induction conjuncts e with
  | case1 l r ihl ihr => rw [List.flatMap_append, ihl, ihr, hf]
  | case2 => simp

theorem flatMap_conjunction? (hf : ∀ a b, f (.binary a .and b) = f a ++ f b) (es : List Scalar) :
    (conjunction? es).toList.flatMap f = es.flatMap f := by
  cases es with
  | nil => rfl
  | cons e es =>
    simp only [conjunction?, Option.toList_some, List.flatMap_cons, List.flatMap_nil,
      List.append_nil]
    induction es generalizing e with
    | nil => simp
    | cons e' es ih => simp [ih, and, hf]

def isLeaf : Scalar → Bool
  | .column _ | .var .. | .outer .. => true
  | _ => false

/-- All that an expression reads is read by one of some others. -/
def MadeOf (values : List Scalar) (e : Scalar) : Prop :=
  ∀ part ∈ e.parts, part.isLeaf → ∃ v ∈ values, part ∈ v.parts

variable {values : List Scalar} {e : Scalar}

theorem madeOf_of_mem (h : e ∈ values) : e.MadeOf values :=
  fun _ hpart _ => ⟨e, h, hpart⟩

theorem madeOf_of_operands (h : ∀ d ∈ e.operands, d.MadeOf values)
    (he : e.isLeaf = false := by rfl) : e.MadeOf values := by
  intro part hpart hleaf
  rw [parts_eq, List.mem_cons, List.mem_flatMap] at hpart
  obtain rfl | ⟨d, hd, hpart⟩ := hpart
  · rw [he] at hleaf
    cases hleaf
  · exact h d hd part hpart hleaf

theorem madeOf_ofUnary {op : Sql.UnaryOp} (h : ofUnary op e = .ok bound) (he : e.MadeOf values) :
    bound.MadeOf values := by
  cases op <;> cases h
  · exact madeOf_of_operands (List.forall_mem_singleton.2 he)
  · exact madeOf_of_operands (List.forall_mem_singleton.2 he)
  · exact he

theorem madeOf_ofDatePart {function : String} {e : Sql.Expr}
    (h : ofDatePart function e = .ok bound) : bound.MadeOf values := by
  unfold ofDatePart at h
  split at h <;> cases h <;> exact madeOf_of_operands nofun

end Scalar

namespace Scope

/-- An action that binds parts of an expression, after some values were bound, and makes a value of
them all. -/
inductive Steps (s : Scope) (e : Sql.Expr) : List Scalar → BindM Scalar → Prop
  | lift {values : List Scalar} {r : Result Scalar} (hr : Reasoned r)
    (h : ∀ a, r = .ok a → a.MadeOf values) : Steps s e values (liftM r)
  | test {α : Type} {values : List Scalar} {r : Result α} {f : α → BindM Scalar} (hr : Reasoned r)
    (hf : ∀ a, r = .ok a → Steps s e values (f a)) : Steps s e values (liftM r >>= f)
  | bind {values : List Scalar} {d : Sql.Expr} {f : Scalar → BindM Scalar}
    (hd : sizeOf d < sizeOf e)
    (hf : ∀ a, Steps s e (a :: values) (f a)) : Steps s e values (s.bind d >>= f)

namespace Steps

variable {s : Scope} {e : Sql.Expr} {values : List Scalar} {f : List Scalar → BindM Scalar}

theorem pure {a : Scalar} (h : a.MadeOf values) : Steps s e values (pure a) :=
  .lift (r := .ok a) (reasoned_ok a) fun _ ha => Except.ok.inj ha ▸ h

theorem make {a : Scalar} (h : ∀ d ∈ a.operands, d ∈ values) (ha : a.isLeaf = false := by rfl) :
    Steps s e values (Pure.pure a) :=
  .pure (Scalar.madeOf_of_operands (fun d hd => Scalar.madeOf_of_mem (h d hd)) ha)

theorem throw {error : PlanError} (h : error.flatten ≠ []) : Steps s e values (throw error) :=
  .lift (r := .error error) ((reasoned_error error).2 h) nofun

def Follows (s : Scope) (e : Sql.Expr) (values : List Scalar) {α : Type} (f : α → BindM Scalar)
    (parts : α → List Scalar) : Prop :=
  ∀ a more, values ⊆ more → parts a ⊆ more → Steps s e more (f a)

theorem list {es : List Sql.Expr} (hes : ∀ d ∈ es, sizeOf d < sizeOf e)
    (hf : Follows s e values f id) : Steps s e values (bindList s es >>= f) := by
  induction es generalizing values f with
  | nil =>
    rw [bindList, pure_bind]
    exact hf [] values (List.Subset.refl _) (List.nil_subset _)
  | cons d rest ih =>
    rw [List.forall_mem_cons] at hes
    simp only [bindList, bind_assoc, pure_bind]
    refine .bind hes.1 fun a => ih hes.2 fun bs more hmore hbs => hf (a :: bs) more ?_ ?_
    · exact fun v hv => hmore (List.mem_cons_of_mem a hv)
    · exact List.cons_subset.2 ⟨hmore List.mem_cons_self, hbs⟩

theorem option {o : Option Sql.Expr} (ho : ∀ d ∈ o, sizeOf d < sizeOf e)
    {f : Option Scalar → BindM Scalar}
    (hf : Follows s e values f Option.toList) : Steps s e values (bindOption s o >>= f) := by
  cases o with
  | none =>
    rw [bindOption, pure_bind]
    exact hf none values (List.Subset.refl _) (List.nil_subset _)
  | some d =>
    simp only [bindOption, bind_assoc, pure_bind]
    exact .bind (ho d rfl) fun a => hf (some a) _ (List.subset_cons_self a values) (by simp)

theorem branches {bs : List (Sql.Expr × Sql.Expr)}
    (hbs : ∀ b ∈ bs, sizeOf b.1 < sizeOf e ∧ sizeOf b.2 < sizeOf e)
    {f : List (Scalar × Scalar) → BindM Scalar}
    (hf : Follows s e values f fun bound => bound.flatMap fun b => [b.1, b.2]) :
    Steps s e values (bindBranches s bs >>= f) := by
  induction bs generalizing values f with
  | nil =>
    rw [bindBranches, pure_bind]
    exact hf [] values (List.Subset.refl _) (List.nil_subset _)
  | cons b rest ih =>
    rw [List.forall_mem_cons] at hbs
    simp only [bindBranches, bind_assoc, pure_bind]
    refine .bind hbs.1.1 fun a => .bind hbs.1.2 fun a' => ih hbs.2 fun bs more hmore hbs =>
      hf ((a, a') :: bs) more ?_ ?_
    · exact fun v hv => hmore (by simp [hv])
    · simpa using ⟨hmore (by simp), hmore (by simp), hbs⟩

theorem arguments {args : List (Sql.Argument Sql.Expr)}
    (hargs : ∀ label d, .value label d ∈ args → sizeOf d < sizeOf e) (datePart : Option String)
    (hf : ∀ bound more, values ⊆ more → (∀ a ∈ bound, a.MadeOf more) → Steps s e more (f bound)) :
    Steps s e values (bindArgumentList s datePart args >>= f) := by
  induction args generalizing values f datePart with
  | nil =>
    rw [bindArgumentList, pure_bind]
    exact hf [] values (List.Subset.refl _) nofun
  | cons arg rest ih =>
    have hrest := fun label d hd => hargs label d (List.mem_cons_of_mem arg hd)
    cases arg with
    | star | tableStar =>
      simp only [bindArgumentList, bindArgument, pure_bind]
      exact ih hrest datePart hf
    | value label d =>
      cases datePart with
      | some function =>
        simp only [bindArgumentList, bindArgument, bind_assoc, pure_bind]
        refine .test (by simp) fun part hpart => ih hrest none fun bound more hmore hbound =>
          hf (part :: bound) more hmore
            (List.forall_mem_cons.2 ⟨Scalar.madeOf_ofDatePart hpart, hbound⟩)
      | none =>
        simp only [bindArgumentList, bindArgument, bind_assoc, pure_bind]
        refine .bind (hargs label d List.mem_cons_self) fun a =>
          ih hrest none fun bound more hmore hbound =>
          hf (a :: bound) more (fun v hv => hmore (List.mem_cons_of_mem a hv))
            (List.forall_mem_cons.2 ⟨Scalar.madeOf_of_mem (hmore List.mem_cons_self), hbound⟩)

end Steps

theorem steps_bind {s : Scope} {e : Sql.Expr} (h : s.computed? e = none)
    (hident : ∀ name, e ≠ .ident name)
    (hcompound : ∀ parts, e ≠ .compound parts) : s.Steps e [] (s.bind e) := by
  rw [bind.eq_def, orComputed, h]
  cases e with
  | ident name => exact absurd rfl (hident name)
  | compound parts => exact absurd rfl (hcompound parts)
  | literal => exact .test (by simp) fun _ _ => .make (by simp [Scalar.operands])
  | typed => exact .make (by simp [Scalar.operands])
  | unary =>
    refine .bind (by simp +arith) fun _ => .lift (by simp) fun _ hr => ?_
    exact Scalar.madeOf_ofUnary hr (Scalar.madeOf_of_mem (by simp))
  | nested e =>
    dsimp only
    rw [← bind_pure (s.bind e)]
    exact .bind (by simp) fun _ => .pure (Scalar.madeOf_of_mem (by simp))
  | isNull | collate | round | trim =>
    exact .bind (by simp +arith) fun _ => .make (by simp [Scalar.operands])
  | cast | convert =>
    exact .bind (by simp +arith) fun _ => .test (by simp) fun _ _ =>
      .make (by simp [Scalar.operands])
  | binary =>
    exact .bind (by simp +arith) fun _ => .bind (by simp +arith) fun _ => .test (by simp) fun _ _ =>
      .make (by simp [Scalar.operands])
  | like =>
    dsimp only
    split
    · exact .throw (by simp)
    · exact .bind (by simp +arith) fun _ => .bind (by simp +arith) fun _ =>
        .make (by simp [Scalar.operands])
  | between =>
    exact .bind (by simp +arith) fun _ => .bind (by simp +arith) fun _ =>
      .bind (by simp +arith) fun _ => .make (by simp [Scalar.operands])
  | inList e items =>
    refine .bind (by simp +arith) fun a => .list (fun d hd => ?_) fun bs more hmore hbs => .make ?_
    · have := List.sizeOf_lt_of_mem hd
      simp
      omega
    · exact List.forall_mem_cons.2 ⟨hmore (by simp), hbs⟩
  | case operand branches otherwise =>
    refine .option (fun d hd => ?_) fun a more _ ha =>
      .branches (fun b hb => ?_) fun bs more' hmore hbs =>
      .option (fun d hd => ?_) fun last more'' hmore' hlast => .make ?_
    · cases hd
      simp +arith
    · have := List.sizeOf_lt_of_mem hb
      obtain ⟨c, r⟩ := b
      simp at this ⊢
      omega
    · cases hd
      simp +arith
    · exact List.forall_mem_append.2
        ⟨List.forall_mem_append.2 ⟨fun d hd => hmore' (hmore (ha hd)), fun d hd => hmore' (hbs hd)⟩,
          hlast⟩
  | substring e start length =>
    refine .bind (by simp +arith) fun a => .option (fun d hd => ?_) fun start more hmore hstart =>
      .option (fun d hd => ?_) fun length more' hmore' hlength => .pure ?_
    · cases hd
      simp +arith
    · cases hd
      simp +arith
    · have hgiven (o : Option Scalar) (n : Int) (ho : o.toList ⊆ more') :
          (o.getD (.int n)).MadeOf more' := by
        cases o with
        | none => exact Scalar.madeOf_of_operands (by simp [Scalar.operands, Scalar.int])
        | some e => exact Scalar.madeOf_of_mem (ho (by simp))
      refine Scalar.madeOf_of_operands
        (List.forall_mem_cons.2 ⟨Scalar.madeOf_of_mem (hmore' (hmore (by simp))),
        List.forall_mem_cons.2 ⟨hgiven start 1 fun d hd => hmore' (hstart hd),
          List.forall_mem_singleton.2 (hgiven length _ hlength)⟩⟩)
  | call c =>
    obtain ⟨name, args, withinGroup, ignoreNulls, window⟩ := c
    dsimp only
    rw [bindCall]
    refine .test (by simp) fun f _ => ?_
    cases args with
    | none | query =>
      rw [bindArguments, pure_bind]
      exact .make (by simp [Scalar.operands])
    | list distinct args clauses =>
      rw [bindArguments]
      refine .arguments (fun label d hd => ?_) _ fun bound more _ hbound => .pure ?_
      · have := List.sizeOf_lt_of_mem hd
        simp at this ⊢
        omega
      · exact Scalar.madeOf_of_operands hbound
  | «exists» | inQuery | subquery | other => exact .throw (by simp [refuseSubquery])

/-- An expression was computed before, or it is a name, or it is bound by its parts. -/
theorem bind_cases (s : Scope) (e : Sql.Expr) :
    (∃ value, s.computed? e = some value ∧ s.bind e = pure value) ∨
      (∃ name, s.bind e = s.bindIdent name) ∨ (∃ parts, s.bind e = s.bindCompound parts) ∨
      s.Steps e [] (s.bind e) := by
  cases h : s.computed? e with
  | some value => exact .inl ⟨value, rfl, by rw [bind.eq_def, orComputed, h]⟩
  | none =>
    refine .inr ?_
    by_cases hname : (∃ name, e = .ident name) ∨ ∃ parts, e = .compound parts
    · obtain ⟨name, rfl⟩ | ⟨parts, rfl⟩ := hname
      · exact .inl ⟨name, by rw [bind.eq_def, orComputed, h]⟩
      · exact .inr (.inl ⟨parts, by rw [bind.eq_def, orComputed, h]⟩)
    · exact .inr (.inr (steps_bind h (fun name he => hname (.inl ⟨name, he⟩))
        fun parts he => hname (.inr ⟨parts, he⟩)))

end Scope

end BatchPlan
