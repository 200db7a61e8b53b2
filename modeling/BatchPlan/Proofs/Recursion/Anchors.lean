import BatchPlan.Proofs.Meaning.Unions
import BatchPlan.Proofs.Recursion.Stack
import BatchPlan.Proofs.Scoping.Mentions

namespace BatchPlan

open BindM

variable {quantifiers : List Sql.SetQuantifier} {name : String} {plans : List QueryPlan}

theorem Sql.SetExpr.unionMembers_spine (body : SetExpr Query) :
    ∃ (first : SetExpr Query) (rest : List (SetQuantifier × SetExpr Query)),
      body.unionMembers = ⟨first, none⟩ :: rest.map (fun m => ⟨m.2, some m.1⟩) ∧
      first.isUnion = false ∧ ∀ m ∈ rest, m.2.isUnion = false := by
  fun_induction unionMembers body with
  | case1 quantifier left right ihl ihr =>
    obtain ⟨first, rest, hleft, hfirst, hrest⟩ := ihl
    obtain ⟨first', rest', hright, hfirst', hrest'⟩ := ihr
    refine ⟨first, rest ++ (quantifier, first') :: rest', ?_, hfirst, ?_⟩
    · rw [hleft, hright]
      simp
    · simp only [List.forall_mem_append, List.forall_mem_cons]
      exact ⟨hrest, hfirst', hrest'⟩
  | case2 body hunion =>
    refine ⟨body, [], rfl, ?_, by simp⟩
    cases body with
    | operation op quantifier left right =>
      cases op with
      | union => exact absurd rfl (hunion quantifier left right)
      | _ => rfl
    | _ => rfl

namespace RecursiveMembers

theorem anchors_of_foldlM {list : List Sql.UnionMember} {ms ms' : RecursiveMembers}
    (h : list.foldlM (add name) ms = .ok ms') :
    ∃ before after, list = before ++ after ∧ ms'.anchors = ms.anchors ++ before ∧
      (ms.steps ≠ [] → before = []) := by
  induction list generalizing ms with
  | nil =>
    cases h
    exact ⟨[], [], rfl, by simp, fun _ => rfl⟩
  | cons m rest ih =>
    rw [List.foldlM_cons] at h
    unfold add at h
    split at h
    · split at h
      · -- a step: no anchor comes after it
        obtain ⟨before, after, rfl, hanchors, hsteps⟩ := ih h
        obtain rfl := hsteps (by simp)
        exact ⟨[], m :: after, rfl, hanchors, fun _ => rfl⟩
      · cases h
    · split at h
      next hnone =>
        obtain ⟨before, after, rfl, hanchors, -⟩ := ih h
        refine ⟨m :: before, after, rfl, by simpa using hanchors, fun hsteps => ?_⟩
        exact absurd (by simpa using hnone) hsteps
      · cases h

theorem exists_chain {q : Sql.Query} {members : RecursiveMembers}
    (h : ofQuery name q = .ok members) :
    ∃ (first : Sql.SetExpr Sql.Query) (rest : List (Sql.SetQuantifier × Sql.SetExpr Sql.Query)),
      members.anchors = ⟨first, none⟩ :: rest.map (fun m => ⟨m.2, some m.1⟩) ∧
      first.isUnion = false ∧ ∀ m ∈ rest, m.2.isUnion = false := by
  simp only [ofQuery, bind, Except.bind, throw, throwThe, MonadExceptOf.throw,
    pure, Except.pure] at h
  split at h
  · cases h
  · split at h
    · cases h
    next ms hms =>
      split at h <;> cases h
      next hne =>
        obtain ⟨before, after, hmembers, hanchors, -⟩ := anchors_of_foldlM hms
        obtain ⟨first, rest, hbody, hfirst, hrest⟩ := q.body.unionMembers_spine
        rw [List.nil_append] at hanchors
        rw [hanchors] at hne ⊢
        rw [hbody] at hmembers
        cases before with
        | nil => simp at hne
        | cons m before =>
          rw [List.cons_append, List.cons.injEq] at hmembers
          obtain ⟨rfl, hmembers⟩ := hmembers
          obtain ⟨rest₁, rest₂, rfl, rfl, -⟩ := List.map_eq_append_iff.1 hmembers
          exact ⟨first, rest₁, rfl, hfirst, fun m hm => hrest m (List.mem_append_left _ hm)⟩

end RecursiveMembers

section

variable {V : Type} [DecidableEq V] (null : V) (leaf : Plan → Multiset (List V))

theorem Sql.SetQuantifier.dedup_combine (q : Sql.SetQuantifier) {left left' : Multiset (List V)}
    (h : left.dedup = left'.dedup) (right : Multiset (List V)) :
    (q.combine left right).dedup = (left' + right).dedup := by
  rw [Multiset.dedup_ext] at h ⊢
  intro row
  rw [combine]
  split <;> simp [h row]

namespace QueryBinder

theorem dedup_chainBag (first : Multiset (List V)) (rest : List (Sql.SetQuantifier × QueryPlan)) :
    (chainBag null leaf first rest).dedup =
    (first + QueryPlan.bags null leaf (rest.map (·.2))).dedup := by
  induction rest using List.reverseRecOn with
  | nil => simp [chainBag, QueryPlan.bags]
  | append_singleton rest m ih =>
    rw [chainBag, List.foldl_concat, List.map_append, List.map_singleton,
      QueryPlan.bags_append_singleton, ← add_assoc]
    exact m.1.dedup_combine ih _

theorem chainBag_of_all (first : Multiset (List V)) {rest : List (Sql.SetQuantifier × QueryPlan)}
    (h : ∀ m ∈ rest, m.1 = .all) :
    chainBag null leaf first rest = first + QueryPlan.bags null leaf (rest.map (·.2)) := by
  induction rest using List.reverseRecOn with
  | nil => simp [chainBag, QueryPlan.bags]
  | append_singleton rest m ih =>
    have hrest := ih fun m hm => h m (List.mem_append_left _ hm)
    have hm : m.1 = .all := h m (by simp)
    rw [chainBag] at hrest
    rw [chainBag, List.foldl_concat, hrest, List.map_append, List.map_singleton,
      QueryPlan.bags_append_singleton, ← add_assoc, hm]
    rfl

theorem ite_dedup_eq_chainBag (first : QueryPlan) (h : quantifiers.length = plans.length) :
    (if ∀ quantifier ∈ quantifiers, quantifier = .all then QueryPlan.bags null leaf (first :: plans)
      else (QueryPlan.bags null leaf (first :: plans)).dedup) =
    if ∀ quantifier ∈ quantifiers, quantifier = .all
      then chainBag null leaf (first.bag null leaf) (quantifiers.zip plans)
      else (chainBag null leaf (first.bag null leaf) (quantifiers.zip plans)).dedup := by
  have hgathered : QueryPlan.bags null leaf (first :: plans) =
      first.bag null leaf + QueryPlan.bags null leaf ((quantifiers.zip plans).map (·.2)) := by
    rw [List.map_snd_zip (Nat.le_of_eq h.symm)]
    exact List.sum_cons
  rw [hgathered]
  split_ifs with hall
  · refine (chainBag_of_all null leaf _ fun m hm => ?_).symm
    exact hall m.1 (List.of_mem_zip hm).1
  · exact (dedup_chainBag null leaf _ _).symm

end QueryBinder

end

namespace QueryBinder

variable {b : QueryBinder} {c : BindContext}

theorem yields_bodies (members : List Sql.UnionMember) (s : BindState) :
    Yields (members.mapM fun m => do return (← b.body m.body []).plan : BindM (List QueryPlan)) c s
      fun plans _ => List.Forall₂ (fun m plan => b.Binds c [] m.body plan) members plans := by
  induction members generalizing s with
  | nil => exact .pure .nil
  | cons m rest ih =>
    rw [List.mapM_cons]
    intro plans s' h
    obtain ⟨plan, s₁, hplan, h⟩ := exists_of_start_bind h
    obtain ⟨bound, s₂, hbound, hplan⟩ := exists_of_start_bind hplan
    cases hplan
    obtain ⟨others, s₃, hothers, h⟩ := exists_of_start_bind h
    cases h
    exact .cons ⟨s, bound, s₂, hbound, rfl⟩ (ih s₂ others s₃ hothers)

/-- The anchor has the rows of all anchors, once each if one of the unions asks for it. -/
theorem yields_anchor (first : Sql.SetExpr Sql.Query)
    (rest : List (Sql.SetQuantifier × Sql.SetExpr Sql.Query)) (s : BindState) :
    Yields (b.anchor (⟨first, none⟩ :: rest.map fun m => ⟨m.2, some m.1⟩)) c s fun anchor _ =>
      ∃ plan plans, b.Binds c [] first plan ∧
        List.Forall₂ (fun m plan => b.Binds c [] m.2 plan) rest plans ∧
        (rest = [] → anchor = plan) ∧
        (rest ≠ [] → ∀ (V : Type) (_ : DecidableEq V) (null : V) (leaf : Plan → Multiset (List V)),
          anchor.bag null leaf =
            if ∀ quantifier ∈ rest.map (·.1), quantifier = .all
            then QueryPlan.bags null leaf (plan :: plans)
            else (QueryPlan.bags null leaf (plan :: plans)).dedup) := by
  refine (yields_bodies _ s).bind fun all s' hall => ?_
  obtain ⟨plan, plans, hplan, hplans, rfl⟩ := List.forall₂_cons_left_iff.1 hall
  have hplans := List.forall₂_map_left_iff.1 hplans
  have hlength : rest.length = plans.length := hplans.length_eq
  have hdistinct : ((rest.map fun m => (⟨m.2, some m.1⟩ : Sql.UnionMember)).any fun m => !m.isAll) =
      !decide (∀ quantifier ∈ rest.map (·.1), quantifier = .all) := by
    rw [Bool.eq_iff_iff]
    simp [Sql.UnionMember.isAll]
  split
  next single hsingle =>
    obtain ⟨rfl, rfl⟩ := List.cons.inj hsingle
    refine .pure ⟨plan, [], hplan, hplans, fun _ => rfl, fun hne => ?_⟩
    exact absurd (List.eq_nil_of_length_eq_zero hlength) hne
  next hmany =>
    refine (QueryPlan.yields_union _ _ c s').mono fun anchor _ hanchor =>
      ⟨plan, plans, hplan, hplans, ?_, fun _ V _ null leaf => ?_⟩
    · rintro rfl
      exact absurd (by rw [List.eq_nil_of_length_eq_zero hlength.symm]) (hmany plan)
    · rw [hanchor V _ null leaf, List.drop_one, List.tail_cons, hdistinct]
      by_cases hall : ∀ quantifier ∈ rest.map (·.1), quantifier = .all
      · rw [if_pos hall, decide_eq_true hall]
        rfl
      · rw [if_neg hall, decide_eq_false hall]
        rfl

theorem yields_unionChain (first : Sql.SetExpr Sql.Query)
    (rest : List (Sql.SetQuantifier × Sql.SetExpr Sql.Query)) (outer : List Level) (s : BindState) :
    Yields (b.unionChain (⟨first, none⟩ :: rest.map fun m => ⟨m.2, some m.1⟩) outer) c s
      fun bound _ => ∃ plan plans, b.Binds c outer first plan ∧
        List.Forall₂ (fun m plan => b.Binds c outer m.2 plan) rest plans ∧
        ∀ (V : Type) (_ : DecidableEq V) (null : V) (leaf : Plan → Multiset (List V)),
          bound.plan.bag null leaf =
            chainBag null leaf (plan.bag null leaf) ((rest.map (·.1)).zip plans) := by
  intro bound s' h
  rw [unionChain, List.foldlM_cons, bind_assoc] at h
  obtain ⟨start, s₁, hstart, h⟩ := exists_of_start_bind h
  obtain ⟨head, s₂, hhead, hstart⟩ := exists_of_start_bind hstart
  cases hstart
  obtain ⟨gathered, s₃, hgathered, h⟩ := exists_of_start_bind h
  obtain ⟨plans, hplans, hrows⟩ := yields_members rest _ _ _ _ s₃ hgathered
  refine ⟨head.plan, plans, ⟨s, head, s₂, hhead, rfl⟩, hplans, fun V inst null leaf => ?_⟩
  rw [← QueryPlan.bags_singleton null leaf head.plan, ← List.nil_append [head.plan],
    ← hrows V inst null leaf]
  dsimp only at h
  split at h
  next plan hplan =>
    cases h
    rw [hplan, QueryPlan.bags_singleton]
  next =>
    obtain ⟨plan, s₄, hplan, h⟩ := exists_of_start_bind h
    cases h
    exact QueryPlan.yields_union gathered.2 false c s₃ plan _ hplan V inst null leaf

/-- The rows of an anchor, compared with those of the same chain outside of a recursive expression.
Wherever the members have the same rows on both sides, the duplicates that the chain leaves are
removed from the anchor if one of the unions asks for it. -/
def MatchesChain (anchor : QueryPlan) (quantifiers : List Sql.SetQuantifier)
    (inside : List QueryPlan) (chain : QueryPlan) (outside : List QueryPlan) : Prop :=
  ∀ (V : Type) (_ : DecidableEq V) (null : V) (leaf : Plan → Multiset (List V)),
    inside.map (·.bag null leaf) = outside.map (·.bag null leaf) →
      anchor.bag null leaf = (if ∀ quantifier ∈ quantifiers,
        quantifier = .all then chain.bag null leaf else (chain.bag null leaf).dedup) ∧
      (anchor.bag null leaf = chain.bag null leaf ↔
        (∀ quantifier ∈ quantifiers, quantifier = .all) ∨ (chain.bag null leaf).Nodup)

theorem matchesChain_of_chainBag {anchor chain first first' : QueryPlan} {plans' : List QueryPlan}
    (hlength : quantifiers.length = plans'.length)
    (hanchor : ∀ (V : Type) (_ : DecidableEq V) (null : V) (leaf : Plan → Multiset (List V)),
      anchor.bag null leaf = if ∀ quantifier ∈ quantifiers, quantifier = .all
        then QueryPlan.bags null leaf (first :: plans)
        else (QueryPlan.bags null leaf (first :: plans)).dedup)
    (hchain : ∀ (V : Type) (_ : DecidableEq V) (null : V) (leaf : Plan → Multiset (List V)),
      chain.bag null leaf = chainBag null leaf (first'.bag null leaf) (quantifiers.zip plans')) :
    MatchesChain anchor quantifiers (first :: plans) chain (first' :: plans') := by
  intro V inst null leaf hsame
  have hgathered : QueryPlan.bags null leaf (first :: plans) =
      QueryPlan.bags null leaf (first' :: plans') :=
    congrArg List.sum hsame
  have hrows : anchor.bag null leaf = if ∀ quantifier ∈ quantifiers, quantifier = .all
      then chain.bag null leaf else (chain.bag null leaf).dedup := by
    rw [hanchor V inst null leaf, hgathered, ite_dedup_eq_chainBag null leaf first' hlength,
      hchain V inst null leaf]
  refine ⟨hrows, ?_⟩
  rw [hrows]
  split_ifs with hall
  · exact iff_of_true rfl (.inl hall)
  · rw [Multiset.dedup_eq_self]
    exact (or_iff_right hall).symm

/-- The anchors of a recursive expression are a chain of unions, and the anchor that is made of them
has the rows of this chain outside of the expression, up to duplicates: they are the same exactly if
no union asks for duplicates to be removed, or if the chain leaves none. -/
theorem anchor_rows {d : CteDefinition} {s s' : BindState} {q : QueryPlan}
    (h : (b.recursiveCte d).start c s = (.ok q, s')) :
    ∃ (r : Recursion) (members : RecursiveMembers) (first : Sql.SetExpr Sql.Query)
      (rest : List (Sql.SetQuantifier × Sql.SetExpr Sql.Query)) (plan : QueryPlan)
      (plans : List QueryPlan),
      q = r.plan ∧ RecursiveMembers.ofQuery d.name d.query = .ok members ∧
      members.anchors = ⟨first, none⟩ :: rest.map (fun m => ⟨m.2, some m.1⟩) ∧
      b.Binds c [] first plan ∧ List.Forall₂ (fun m plan => b.Binds c [] m.2 plan) rest plans ∧
      (rest = [] → r.anchor = plan) ∧
      ∀ (c' : BindContext) (t t' : BindState) (bound : BoundQuery), rest ≠ [] →
        (b.bindBody (first.chain rest) []).start c' t = (.ok bound, t') →
        ∃ plan' plans', b.Binds c' [] first plan' ∧
          List.Forall₂ (fun m plan => b.Binds c' [] m.2 plan) rest plans' ∧
          MatchesChain r.anchor (rest.map (·.1)) (plan :: plans) bound.plan (plan' :: plans') := by
  obtain ⟨members, r, hr, rfl⟩ := exists_of_recursiveCte h
  obtain ⟨names, s₁, -, -, -, hanchor, -⟩ := hr.runs
  obtain ⟨first, rest, hmembers, hfirst, hrest⟩ := RecursiveMembers.exists_chain hr.split
  rw [hmembers] at hanchor
  obtain ⟨plan, plans, hplan, hplans, hsingle, hbag⟩ := yields_anchor first rest s _ s₁ hanchor
  refine ⟨r, members, first, rest, plan, plans, rfl, hr.split, hmembers, hplan, hplans, hsingle,
    fun c' t t' bound hne hbound => ?_⟩
  obtain ⟨quantifier, left, right, hunion⟩ := Sql.SetExpr.exists_chain_eq first hne
  rw [hunion, bindBody, ← hunion, Sql.SetExpr.unionMembers_chain hfirst hrest] at hbound
  obtain ⟨plan', plans', hplan', hplans', hrows⟩ :=
    yields_unionChain first rest [] t bound t' hbound
  exact ⟨plan', plans', hplan', hplans', matchesChain_of_chainBag
    ((List.length_map ..).trans hplans'.length_eq) (hbag hne) hrows⟩

/-- Two anchors without duplicates, one more that repeats the second, and a step. -/
def repeatedAnchor : CteDefinition where
  name := "t"
  columns := ["n"]
  query := (queryOf? ("SELECT 1 UNION SELECT 2 UNION ALL SELECT 2 UNION ALL " ++
    "SELECT n + 1 FROM t WHERE n < 5")).getD default
  visible := []

def chainOf (members : List Sql.UnionMember) : Sql.SetExpr Sql.Query :=
  Sql.SetExpr.chain ((members.head?.map (·.body)).getD (.query default))
    (members.tail.filterMap fun m => m.quantifier.map fun quantifier => (quantifier, m.body))

theorem repeatedAnchor_rows :
    ∃ (r : Recursion) (first : Sql.SetExpr Sql.Query)
      (rest : List (Sql.SetQuantifier × Sql.SetExpr Sql.Query)) (plan plan' : QueryPlan)
      (plans plans' : List QueryPlan) (bound : BoundQuery) (s' t' : BindState),
      ((ofDepth 3).recursiveCte repeatedAnchor).start accounts { session := .empty } =
        (.ok r.plan, s') ∧
      ((ofDepth 3).bindBody (first.chain rest) []).start accounts { session := .empty } =
        (.ok bound, t') ∧
      rest.map (·.1) = [.none, .all] ∧
      MatchesChain r.anchor (rest.map (·.1)) (plan :: plans) bound.plan (plan' :: plans') := by
  have hruns : (((ofDepth 3).recursiveCte repeatedAnchor).start accounts
      { session := .empty }).1.toOption.isSome ∧
      (RecursiveMembers.ofQuery repeatedAnchor.name repeatedAnchor.query).toOption.all
        fun members => members.anchors.filterMap (·.quantifier) = [.none, .all] ∧
        (((ofDepth 3).bindBody (chainOf members.anchors) []).start accounts
          { session := .empty }).1.toOption.isSome := by
    decide +kernel
  have hbuilds := start_eq_value hruns.1
  obtain ⟨r, members, first, rest, plan, plans, hq, hmembers, hchain, -, -, -, hmatches⟩ :=
    anchor_rows hbuilds
  have hanchors := hruns.2
  rw [hmembers] at hanchors
  have hof : chainOf members.anchors = first.chain rest := by
    simp [chainOf, hchain]
  simp only [Except.toOption, Option.all_some, decide_eq_true_eq, hof] at hanchors
  have hquantifiers : rest.map (·.1) = [.none, .all] := by
    simpa [hchain, Function.comp_def] using hanchors.1
  have hbody := start_eq_value hanchors.2
  have hne : rest ≠ [] := by
    rintro rfl
    cases hquantifiers
  obtain ⟨plan', plans', -, -, hmatch⟩ := hmatches _ _ _ _ hne hbody
  exact ⟨r, first, rest, plan, plan', plans, plans', _, _, _, hq ▸ hbuilds,
    hbody, hquantifiers, hmatch⟩

def literalRow : Plan → Multiset (List Value)
  | .compute _ values => {values.map fun d => match d.expr with
    | .literal v => v
    | _ => .null}
  | _ => 0

/-- An anchor after a union without duplicates is lost if it repeats one before it. -/
theorem repeatedAnchor_lost :
    (((ofDepth 3).recursiveCte repeatedAnchor).start accounts
      { session := .empty }).1.toOption.isSome ∧
    (RecursiveMembers.ofQuery repeatedAnchor.name repeatedAnchor.query).toOption.any fun members =>
      (((ofDepth 3).anchor members.anchors).start accounts { session := .empty }).1.toOption.map
        (fun anchor => (anchor.bag .null literalRow).card) = some 2 ∧
      (((ofDepth 3).bindBody (chainOf members.anchors) []).start accounts
        { session := .empty }).1.toOption.map
        (fun bound => (bound.plan.bag .null literalRow).card) = some 3 := by
  decide +kernel

end QueryBinder

end BatchPlan
