import BatchPlan.Program
import BatchPlan.Proofs.Binding.Queries
import BatchPlan.Proofs.Scoping.Agreement
import BatchPlan.Proofs.Correlation.Params

namespace BatchPlan

open BindContext

variable {R : BindContext → BindContext → Prop} {name : String} {q : Sql.Query}
    {ms : RecursiveMembers}

theorem Agrees.answers {n : Nat} {x : BindM BoundQuery} (h : Agrees R n x fun _ => True) (m w : Nat)
    (levels : List Level) : Agrees R n x fun bound =>
    (Account.ofVocabulary .all).Answers m w levels bound :=
  h.weaken fun _ _ => ⟨Plan.usesOnly_all _, fun _ _ => trivial, False.elim⟩

/-- The anchors of a recursive expression are members that do not read it, and its steps are members
that do. -/
structure RecursiveMembers.Sorted (ms : RecursiveMembers) (name : String)
    (members : List Sql.UnionMember) : Prop where
  anchors : ∀ m ∈ ms.anchors, m ∈ members ∧ m.body.reads name = false
  steps : ∀ body ∈ ms.steps, ∃ m ∈ members, m.body = body ∧ m.body.reads name

theorem RecursiveMembers.Sorted.add {ms' : RecursiveMembers} {members : List Sql.UnionMember}
    (h : ms.Sorted name members) {m : Sql.UnionMember} (hm : m ∈ members)
    (hadd : ms.add name m = .ok ms') : ms'.Sorted name members := by
  unfold RecursiveMembers.add at hadd
  split at hadd
  next hreads =>
    split at hadd <;> cases hadd
    exact ⟨h.anchors, List.forall_mem_append.2 ⟨h.steps, by simpa using ⟨m, hm, rfl, hreads⟩⟩⟩
  next hreads =>
    split at hadd <;> cases hadd
    exact ⟨List.forall_mem_append.2 ⟨h.anchors, by simpa using ⟨hm, Bool.eq_false_iff.2 hreads⟩⟩,
      h.steps⟩

theorem RecursiveMembers.sorted_of_ofQuery (h : ofQuery name q = .ok ms) :
    ms.Sorted name q.body.unionMembers := by
  have hfold (members : List Sql.UnionMember) (hmembers : members ⊆ q.body.unionMembers)
      (start : RecursiveMembers) (hstart : start.Sorted name q.body.unionMembers)
      (hms : members.foldlM (RecursiveMembers.add name) start = .ok ms) :
      ms.Sorted name q.body.unionMembers := by
    induction members generalizing start with
    | nil =>
      cases hms
      exact hstart
    | cons m rest ih =>
      rw [List.foldlM_cons] at hms
      obtain ⟨next, hnext, hms⟩ := Result.exists_of_bind hms
      rw [List.cons_subset] at hmembers
      exact ih hmembers.2 next (hstart.add hmembers.1 hnext) hms
  obtain ⟨-, h⟩ := Result.of_check h
  obtain ⟨found, hfound, h⟩ := Result.exists_of_bind h
  obtain ⟨-, h⟩ := Result.of_check h
  cases h
  exact hfold _ (List.Subset.refl _) {} ⟨nofun, nofun⟩ hfound

namespace BindContext

variable {N : String → Prop} {c₁ c₂ : BindContext}

theorem SameView.push (h : SameView N c₁ c₂) (r : RecursiveReference) :
    SameView (fun name => N name ∨ Text.sameAscii r.name name)
      { c₁ with recursive := r :: c₁.recursive } { c₂ with recursive := r :: c₂.recursive } where
  toSameSettings := ⟨h.catalog, h.options, h.recursionHint⟩
  inQuery := h.inQuery
  ctes := h.ctes
  mentions d hd name hname := .inl (h.mentions d hd name hname)
  recursive name hname := by
    unfold recursiveReference?
    rw [List.find?_cons, List.find?_cons]
    split
    · rfl
    next hown =>
      simp only [hown] at hname
      exact h.recursive name (hname.resolve_right Bool.false_ne_true)

theorem Alike.enter (h : Alike N c₁ c₂) {ctes : List CteDefinition}
    (hctes : ∀ d ∈ ctes, ∀ name, d.Mentions name → N name) (deeper : Nat) :
    SameView N { c₁ with ctes, depth := c₁.depth + deeper }
      { c₂ with ctes, depth := c₂.depth + deeper } where
  toSameSettings := ⟨h.catalog, h.options, h.recursionHint⟩
  inQuery := ⟨Nat.add_pos_left h.inQuery.1 deeper, Nat.add_pos_left h.inQuery.2 deeper⟩
  recursive := h.recursive
  ctes := rfl
  mentions := hctes

end BindContext

namespace QueryBinder

/-- Nested queries are bound alike in places that agree on the names they mention. -/
structure Coincides (b : QueryBinder) : Prop where
  query : ∀ {N : String → Prop} {n : Nat} {q : Sql.Query} {levels : List Level},
    (∀ name, q.Mentions name → N name) → levels.length ≤ n + 1 →
    Agrees (SameView N) n (b.query q levels) fun _ => True
  body : ∀ {N : String → Prop} {n : Nat} {e : Sql.SetExpr Sql.Query} {levels : List Level},
    (∀ name, e.Mentions name → N name) → levels.length ≤ n + 1 →
    Agrees (SameView N) n (b.body e levels) fun _ => True

section

variable {b : QueryBinder} (hb : b.Coincides) {N : String → Prop} {n : Nat} {levels : List Level}
  {d : CteDefinition}

include hb

theorem agrees_step {r : RecursiveReference} {steps : List (Sql.SetExpr Sql.Query)}
    (hsteps : ∀ body ∈ steps, ∀ name, body.Mentions name → N name ∨ Text.sameAscii r.name name) :
    Agrees (SameView N) n (b.step r steps) fun _ => True := by
  let N' := fun name => N name ∨ Text.sameAscii r.name name
  have hplans : (Logic.agreement N').Holds n
      (steps.mapM fun body => return (← b.body body []).plan) _ :=
    holds_members id fun body hbody w _ =>
      (hb.body (N := N') (hsteps body hbody) (Nat.zero_le _)).answers w w []
  rw [step, BindM.stepping_eq]
  refine .bind (.withReader hplans fun c₁ c₂ hc => hc.push r) fun plans hplans => ?_
  change (Logic.agreement N).Holds n _ fun _ _ => True
  refine .bind (.forM (S := fun _ => True) fun _ _ _ _ => .lift (by simp) fun _ _ => trivial)
    fun _ w hw _ => ?_
  subst hw
  split
  · exact .pure trivial
  · exact (QueryPlan.holds_union (Logic.agreement N).along_id.toBeside hplans.1 _).mono
      fun _ _ _ _ => trivial

theorem agrees_recursiveCte (hd : ∀ name, d.Mentions name → N name)
    (hreads : d.query.reads d.name) : Agrees (SameView N) n (b.recursiveCte d) fun _ => True := by
  refine Logic.Holds.test (L := .agreement N) (w := n) (G := fun _ _ => True)
    (by simp) fun members hmembers => ?_
  obtain ⟨hanchors, hsteps⟩ := RecursiveMembers.sorted_of_ofQuery hmembers
  refine .bind (L := .agreement N) (w := n) (holds_anchor (L := .agreement N) fun m hm w _ =>
    (hb.body (fun name hname => hd name ?_) (Nat.zero_le _)).answers w w [])
      fun anchor _ _ hanchor =>
    .test (by simp) fun names _ => (holds_ofAnchor _ _ _).bind fun columns _ _ _ =>
    ((Logic.agreement N).freshParam _ .int32).bind fun param _ _ _ => .bind (F := fun _ _ => True)
      (agrees_step hb fun body hbody name hname => ?_) fun step _ _ _ =>
    (holds_recursiveStack (L := .agreement N) hanchor step.root.usesOnly_all nofun nofun nofun).mono
      fun _ _ _ _ => trivial
  · obtain ⟨hmember, hown⟩ := hanchors m hm
    exact .own (.member hreads hmember hname (by simp [hown]))
  · -- the name of the expression itself stands for its row in a step
    obtain ⟨m, hmember, rfl, -⟩ := hsteps body hbody
    cases hown : Text.sameAscii d.name name with
    | true => exact .inr rfl
    | false => exact .inl (hd name (.own (.member hreads hmember hname fun _ => hown)))

theorem agrees_cte (hd : ∀ name, d.Mentions name → N name) :
    Agrees (Alike N) n (b.cte d) fun _ => True := by
  have hvisible : ∀ e ∈ d.visible, ∀ name, e.Mentions name → N name :=
    fun e he name hname => hd name (.visible he hname)
  rw [cte, BindM.amidst_eq]
  refine .withReader (S := SameView N) ?_ fun c₁ c₂ hc => hc.enter hvisible 0
  split
  next hreads => exact agrees_recursiveCte hb hd hreads
  next hreads =>
    refine (hb.query (fun name hname => hd name (.own (.plain ?_ hname))) (Nat.zero_le _)).bind
      fun _ _ => .pure trivial
    exact Bool.eq_false_iff.2 hreads

/-- A bare name is first of all that of a recursive row, then that of an expression in view. -/
theorem agrees_namedTable {name : Sql.ObjectName} (hname : name.parts.length = 1 → N name.base)
    (tableAlias : Option Sql.TableAlias) :
    Agrees (SameView N) n (b.namedTable name tableAlias) fun _ => True := by
  have hquery (columns : List String) :
      Agrees (SameView N) n (b.namedQuery? name columns) fun _ => True := by
    refine Logic.Holds.ite (L := .agreement N) (w := n) (F := fun _ _ => True)
      (fun _ => .pure trivial) fun hbare => Agrees.read fun c₁ c₂ hc => ?_
    have hbare : name.parts.length = 1 := by simpa using hbare
    refine ⟨?_, ?_⟩
    · unfold BindContext.cte?
      rw [hc.recursive _ (hname hbare), hc.ctes]
    · split
      · exact .pure trivial
      next d _ hd =>
        have hmem : d ∈ c₁.ctes := List.mem_of_find?_eq_some hd
        exact ((agrees_cte hb (hc.mentions d hmem)).mono fun _ _ h => h.toAlike).bind fun _ _ =>
          .pure trivial
      · exact .pure trivial
  refine (hquery _).bind fun found _ => ?_
  split
  · exact .lift fun _ _ => trivial
  · change (Logic.agreement N).Holds n _ fun _ _ => True
    refine .check (by simp) fun _ => ?_
    exact (stays_bindStored (L := .agreement N) n _ _).next (G := fun _ _ => True)
      fun _ _ => .pure trivial

theorem serves_agreement : (Logic.agreement N).Serves b (fun q => ∀ name, q.Mentions name → N name)
    fun t => t.parts.length = 1 → N t.base where
  query hq hn := (hb.query hq hn).answers _ _ _
  table tableAlias hname := (agrees_namedTable hb hname tableAlias).weaken fun _ _ =>
    ⟨Plan.usesOnly_all _, nofun⟩

omit hb in
theorem agrees_checkPlacement (t : QueryTail) (hasTop : Bool)
    (hR : ∀ c₁ c₂, R c₁ c₂ → t.orderBy = [] ∨ 1 < c₁.depth ∧ 1 < c₂.depth) :
    Agrees R n (t.checkPlacement hasTop) fun _ => True := by
  refine .read fun c₁ c₂ hc => ⟨?_, ?_⟩
  · obtain h | h := hR c₁ c₂ hc
    · simp [h]
    · simp [h.1, h.2]
  · split
    · exact .throw _
    · exact .pure trivial

theorem agrees_select {s : Sql.Select Sql.Query} {tail : QueryTail} {outer : List Level}
    (hview : ∀ c₁ c₂, R c₁ c₂ → SameView N c₁ c₂)
    (hplace : ∀ c₁ c₂, R c₁ c₂ → tail.orderBy = [] ∨ 1 < c₁.depth ∧ 1 < c₂.depth)
    (hs : ∀ name, (Sql.SetExpr.select s).Mentions name → N name)
    (htail : ∀ e ∈ tail.exprs, ∀ q ∈ e.queries, ∀ name, q.Mentions name → N name)
    (hn : outer.length ≤ n + 1) : Agrees R n (b.select s tail outer) fun _ => True := by
  have hblock : Agrees (SameView N) (n + 1) (b.block s tail outer) _ :=
    holds_block (w := n + 1) (serves_agreement hb)
      (fun q hq name hname => hs name (.query hq hname))
      (fun t ht hbare => hs _ (.table ht hbare)) htail hn (Nat.succ_le_succ hn)
  exact .bind (.lift (F := fun _ => True) fun _ _ => trivial) fun _ _ =>
    (agrees_checkPlacement tail _ hplace).bind fun _ _ => (hblock.mono hview).enclosed.bind
    fun (_, _) _ => .pure trivial

theorem agrees_bindBody {body : Sql.SetExpr Sql.Query} (hbody : ∀ name, body.Mentions name → N name)
    (hn : levels.length ≤ n + 1) : Agrees (SameView N) n (b.bindBody body levels)
      fun _ => True := by
  unfold bindBody
  split
  · exact agrees_select hb (fun _ _ h => h) (fun _ _ _ => .inl rfl) hbody nofun hn
  next q =>
    exact hb.query (fun name hname => hbody name (.query (by simp [Sql.SetExpr.queries]) hname)) hn
  · exact (holds_bindValues (L := .agreement N) (w := n) _ hn).weaken fun _ _ => trivial
  · refine (holds_unionChain (L := .agreement N) (w := n) fun m hm _ hw => ?_).weaken
      fun _ _ => trivial
    subst hw
    exact (hb.body (fun name hname => hbody name (.of_member hm hname)) hn).answers _ _ _
  next op quantifier left right _ =>
    have hside {e : Sql.SetExpr Sql.Query} (htables : e.tables ⊆ left.tables ++ right.tables)
        (hqueries : e.queries ⊆ left.queries ++ right.queries) :=
      (hb.body (N := N) (n := n) (fun name hname => hbody name (hname.mono htables hqueries))
        hn).answers n n levels
    refine (holds_matching (L := .agreement N) (w := n) op quantifier
      (hside (List.subset_append_left _ _) (List.subset_append_left _ _)) fun _ hw => ?_).weaken
      fun _ _ => trivial
    subst hw
    exact hside (List.subset_append_right _ _) (List.subset_append_right _ _)
  · exact .throw _

theorem agrees_bindQuery (hq : ∀ name, q.Mentions name → N name) (hn : levels.length ≤ n + 1) :
    Agrees (SameView N) n (b.bindQuery q levels) fun _ => True := by
  -- inside of the query the depth is at least two in both runs
  let Deeper (c₁ c₂ : BindContext) : Prop := SameView N c₁ c₂ ∧ 1 < c₁.depth ∧ 1 < c₂.depth
  have htail : ∀ e ∈ (QueryTail.ofQuery q).exprs, ∀ inner ∈ e.queries, ∀ name,
      inner.Mentions name → N name :=
    List.forall_mem_map.2 fun o ho inner hinner name hname => hq name (.order ho hinner hname)
  have happly (bound : BoundQuery) : Agrees Deeper n ((QueryTail.ofQuery q).apply bound)
      fun _ => True := by
    refine (agrees_checkPlacement _ _ fun _ _ h => .inr h.2).bind fun _ _ =>
      Agrees.mono (R := SameView N) ?_ fun _ _ h => h.1
    exact (Logic.stays_tests (L := .agreement N) (w := n) (by simp)).next
      (G := fun _ _ => True) fun _ _ =>
      (QueryTail.holds_limitRows (a := n) _ (Account.along_id _) (Plan.usesOnly_all _)).bind
      fun _ _ _ _ => .pure trivial
  refine Logic.Holds.check (L := .agreement N) (w := n) (G := fun _ _ => True) (by simp) fun _ => ?_
  dsimp only
  split
  · exact .throw (by simp)
  · rw [BindM.nested_eq]
    refine .read fun c₁ c₂ hc => ⟨by rw [hc.ctes], ?_⟩
    refine Logic.Holds.test (L := .agreement N) (w := n) (G := fun _ _ => True)
      (by simp) fun ctes hctes => ?_
    have hmentions := CteDefinition.mentions_of_registered hctes hc.mentions
      fun c hc name hname => hq name (.cte hc hname)
    refine Agrees.withReader (S := Deeper) ?_ fun c₁ c₂ hc => ⟨hc.enter hmentions 1, by
      have h := hc.inQuery
      exact ⟨Nat.succ_lt_succ h.1, Nat.succ_lt_succ h.2⟩⟩
    split
    next s hselect =>
      exact agrees_select hb (fun _ _ h => h.1) (fun _ _ h => .inr h.2)
        (fun name hname => hq name (.body (hselect ▸ hname))) htail hn
    next =>
      exact ((hb.body (fun name hname => hq name (.body hname)) hn).mono fun _ _ h => h.1).bind
        fun bound _ => happly bound

end

theorem coincides_ofDepth (depth : Nat) : (ofDepth depth).Coincides := by
  induction depth with
  | zero => exact ⟨fun _ _ => .throw _, fun _ _ => .throw _⟩
  | succ depth ih => exact ⟨agrees_bindQuery ih, agrees_bindBody ih⟩

/-- An expression is the same at two places that agree on the recursive rows that it mentions,
whatever else is in view there and whatever was read of the queries around. -/
theorem cte_start_of_alike (depth : Nat) (d : CteDefinition) (c₁ c₂ : BindContext)
    (s₁ s₂ : BindState) (hc : Alike d.Mentions c₁ c₂) (hsession : s₁.session = s₂.session)
    (hdeclared : s₁.declared = s₂.declared) (hnames : s₁.names = s₂.names) :
    ∃ r s₁' s₂', ((ofDepth depth).cte d).start c₁ s₁ = (r, s₁') ∧
      ((ofDepth depth).cte d).start c₂ s₂ = (r, s₂') ∧ s₁'.names = s₂'.names := by
  have hagrees : Agrees (Alike d.Mentions) 0 ((ofDepth depth).cte d) fun _ => True :=
    agrees_cte (coincides_ofDepth depth) fun _ hname => hname
  obtain ⟨r, s₁', s₂', h₁, h₂, hs, -⟩ := hagrees.of_start c₁ c₂ s₁ s₂ hc
    ⟨hsession, hdeclared, hnames, rfl⟩
  exact ⟨r, s₁', s₂', h₁, h₂, hs.names⟩

def countdown : CteDefinition where
  name := "t"
  columns := []
  query := match Sql.parseStatement "SELECT 3 AS n UNION ALL SELECT n - 1 FROM t WHERE n > 0" with
    | .ok (.query q) => q
    | _ => default
  visible := []

def foreignStep : BindContext :=
  { catalog := {}, options := {}, ctes := [countdown],
    recursive := [⟨"t", [⟨"n", .utf8, true, "@Expr1"⟩]⟩],
    depth := 2 }

/-- The expression mentions no row but its own, so that another row of the same name does not
matter. -/
theorem countdown_same_in_foreignStep :
    ∃ r s₁' s₂', ((ofDepth 3).cte countdown).start foreignStep
      { session := .empty, captured := [[]] } = (r, s₁') ∧
      ((ofDepth 3).cte countdown).start { catalog := {}, options := {}, depth := 1 }
        { session := .empty } = (r, s₂') ∧
      s₁'.names = s₂'.names ∧ r.toOption.isSome := by
  have hmentions : ∀ name, ¬countdown.Mentions name :=
    CteDefinition.not_mentions_of_members rfl (by decide +kernel) (by decide +kernel)
  obtain ⟨r, s₁', s₂', h₁, h₂, hnames⟩ := cte_start_of_alike 3 countdown foreignStep
    { catalog := {}, options := {}, depth := 1 } { session := .empty, captured := [[]] }
    { session := .empty }
    ⟨⟨rfl, rfl, rfl⟩, by decide, fun name h => absurd h (hmentions name)⟩ rfl rfl rfl
  refine ⟨r, s₁', s₂', h₁, h₂, hnames, ?_⟩
  have hok : (((ofDepth 3).cte countdown).start { catalog := {}, options := {}, depth := 1 }
      { session := .empty }).1.toOption.isSome := by decide +kernel
  rwa [h₂] at hok

def accountNames : CteDefinition where
  name := "x"
  columns := []
  query := match Sql.parseStatement "SELECT name FROM account" with
    | .ok (.query q) => q
    | _ => default
  visible := []

def accountCatalog : Catalog :=
  { entities := [(Entity.new "account" "accountid").withAttribute
    { name := "name", type := .string }] }

def accountStep : BindContext :=
  { catalog := accountCatalog, options := {},
    recursive := [⟨"account", [⟨"name", .utf8, true, "@Expr1"⟩]⟩], depth := 1 }

/-- In the step of an expression that is called `account` the rows of that expression take the place
of the entity, in an expression that was defined before it. -/
theorem accountNames_differ_in_accountStep :
    (((ofDepth 2).cte accountNames).start accountStep { session := .empty }).1.toOption.map
        (·.root.name) = some "Alias" ∧
      (((ofDepth 2).cte accountNames).start { accountStep with recursive := [] }
        { session := .empty }).1.toOption.map (·.root.name) = some "Scan" := by
  decide +kernel

end QueryBinder

end BatchPlan
