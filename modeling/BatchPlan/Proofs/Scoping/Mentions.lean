import BatchPlan.Proofs.Binding.Blocks

namespace BatchPlan

namespace Sql

variable {body : SetExpr Query} {m : UnionMember} {name : String}

def SetExpr.tables : SetExpr Query → List ObjectName
  | .select s => s.tables
  | .operation _ _ left right => left.tables ++ right.tables
  | .query _ | .values .. | .other _ => []

def SetExpr.queries : SetExpr Query → List Query
  | .select s => s.queries
  | .query q => [q]
  | .operation _ _ left right => left.queries ++ right.queries
  | .values .. | .other _ => []

theorem SetExpr.subset_of_mem_unionMembers (hm : m ∈ body.unionMembers) :
    m.body.tables ⊆ body.tables ∧ m.body.queries ⊆ body.queries := by
  fun_induction unionMembers body generalizing m with
  | case1 quantifier left right ihl ihr =>
    obtain hm | hm := List.mem_append.1 hm
    · obtain ⟨htables, hqueries⟩ := ihl hm
      exact ⟨List.subset_append_of_subset_left _ htables,
        List.subset_append_of_subset_left _ hqueries⟩
    · -- the first member on the right is there with another quantifier
      have hmember : ∃ m' ∈ right.unionMembers, m'.body = m.body := by
        split at hm
        · cases hm
        next first rest hright =>
          obtain rfl | hm := List.mem_cons.1 hm
          · exact ⟨first, by simp [hright], rfl⟩
          · exact ⟨m, by simp [hright, hm], rfl⟩
      obtain ⟨m', hm', hbody⟩ := hmember
      obtain ⟨htables, hqueries⟩ := ihr hm'
      rw [hbody] at htables hqueries
      exact ⟨List.subset_append_of_subset_right _ htables,
        List.subset_append_of_subset_right _ hqueries⟩
  | case2 body _ =>
    cases List.mem_singleton.1 hm
    exact ⟨List.Subset.refl _, List.Subset.refl _⟩

mutual

/-- A query mentions a table by its bare name. -/
inductive Query.Mentions : Query → String → Prop
  | cte {q : Query} {c : Cte Query} {name : String} (hc : c ∈ q.ctes)
      (h : c.query.MentionsBeside c.tableAlias.name.value name) : q.Mentions name
  | body {q : Query} {name : String} (h : q.body.Mentions name) : q.Mentions name
  | order {q inner : Query} {o : OrderItem Expr} {name : String} (ho : o ∈ q.orderBy)
      (hinner : inner ∈ o.expr.queries) (h : inner.Mentions name) : q.Mentions name

inductive SetExpr.Mentions : SetExpr Query → String → Prop
  | table {body : SetExpr Query} {t : ObjectName} (ht : t ∈ body.tables)
    (hbare : t.parts.length = 1) : body.Mentions t.base
  | query {body : SetExpr Query} {q : Query} {name : String} (hq : q ∈ body.queries)
      (h : q.Mentions name) : body.Mentions name

/-- The query of an expression mentions a table other than the row of the expression itself. -/
inductive Query.MentionsBeside : Query → String → String → Prop
  | plain {q : Query} {own name : String} (hq : q.reads own = false) (h : q.Mentions name) :
      q.MentionsBeside own name
  | member {q : Query} {own name : String} {m : UnionMember} (hq : q.reads own)
      (hm : m ∈ q.body.unionMembers) (h : m.body.Mentions name)
      (hown : m.body.reads own → Text.sameAscii own name = false) : q.MentionsBeside own name

end

theorem SetExpr.Mentions.mono {body' : SetExpr Query} (h : body.Mentions name)
    (htables : body.tables ⊆ body'.tables) (hqueries : body.queries ⊆ body'.queries) :
    body'.Mentions name := by
  cases h with
  | table ht hbare => exact .table (htables ht) hbare
  | query hq h => exact .query (hqueries hq) h

theorem SetExpr.Mentions.of_member (hm : m ∈ body.unionMembers) (h : m.body.Mentions name) :
    body.Mentions name :=
  h.mono (subset_of_mem_unionMembers hm).1 (subset_of_mem_unionMembers hm).2

end Sql

/-- An expression mentions a table itself, or by one of those in view at its definition. -/
inductive CteDefinition.Mentions : CteDefinition → String → Prop
  | own {d : CteDefinition} {name : String} (h : d.query.MentionsBeside d.name name) :
  d.Mentions name
  | visible {d e : CteDefinition} {name : String} (he : e ∈ d.visible) (h : e.Mentions name) :
      d.Mentions name

/-- The expressions in view after a WITH clause mention what those before and the clause mention. -/
theorem CteDefinition.mentions_of_registered {visible ctes : List CteDefinition}
    {seen : List String}
    {clause : List (Sql.Cte Sql.Query)} (h : BindM.registered visible seen clause = .ok ctes)
    {N : String → Prop} (hvisible : ∀ d ∈ visible, ∀ name, d.Mentions name → N name)
    (hclause : ∀ c ∈ clause, ∀ name, c.query.MentionsBeside c.tableAlias.name.value name → N name) :
    ∀ d ∈ ctes, ∀ name, d.Mentions name → N name := by
  induction clause generalizing visible seen with
  | nil =>
    cases h
    exact hvisible
  | cons c rest ih =>
    rw [List.forall_mem_cons] at hclause
    simp only [BindM.registered, bind, Except.bind, throw, throwThe, MonadExceptOf.throw] at h
    split at h
    · cases h
    · split at h
      · cases h
      · refine ih h (List.forall_mem_cons.2 ⟨fun name hname => ?_, hvisible⟩) hclause.2
        cases hname with
        | own hown => exact hclause.1 name hown
        | visible he hname => exact hvisible _ he name hname

/-- An expression mentions no row if its members read no table but the expression itself. -/
theorem CteDefinition.not_mentions_of_members {d : CteDefinition} (hvisible : d.visible = [])
    (hreads : d.query.reads d.name)
    (hmembers : d.query.body.unionMembers.all fun m => m.body.queries.isEmpty &&
      m.body.tables.all fun t => m.body.reads d.name && Text.sameAscii d.name t.base)
    (name : String) : ¬d.Mentions name := by
  intro h
  cases h with
  | visible he _ => rw [hvisible] at he; cases he
  | own h =>
    cases h with
    | plain hq _ => rw [hreads] at hq; cases hq
    | member _ hm h hown =>
      have hmember := List.all_eq_true.1 hmembers _ hm
      rw [Bool.and_eq_true, List.isEmpty_iff, List.all_eq_true] at hmember
      cases h with
      | table ht _ =>
        have htable := Bool.and_eq_true_iff.1 (hmember.2 _ ht)
        rw [hown htable.1] at htable
        cases htable.2
      | query hq _ => rw [hmember.1] at hq; cases hq

end BatchPlan
