import BatchPlan.Binding.Select

namespace BatchPlan.Sql

variable {c : Call Expr} {calls : List (Call Expr)} {kept : List (String × Call Expr)}
  {x : String × Call Expr} {part : Expr}

section

variable {Q : Type}

theorem ExprOf.all_outermost (p : ExprOf Q → Bool) (e : ExprOf Q) : (e.outermost p).all p := by
  -- the cases are those of the search; each adds up the parts of its operands
  apply ExprOf.outermost.induct p (fun e => (e.outermost p).all p)
    (fun c => (outermostOfCall p c).all p)
    (fun window => (outermostOfOver p window).all p) (fun w => (outermostOfWindow p w).all p)
    (fun items => (outermostOfOrder p items).all p) (fun o => (outermostOfItem p o).all p)
    (fun es => (outermostOfList p es).all p) (fun args => (outermostOfArguments p args).all p)
    (fun args => (outermostOfArgumentList p args).all p) (fun a => (outermostOfArgument p a).all p)
    (fun branches => (outermostOfResults p branches).all p)
    (fun branches => (outermostOfConditions p branches).all p) fun e =>
    (outermostOfOption p e).all p
  case case1 =>
    intro e he
    rw [outermost.eq_def, if_pos he, List.all_cons, he]
    rfl
  all_goals
    intros
    first
    | rw [outermost.eq_def, if_neg ‹_›]
      simp only [List.all_append, List.all_nil, Bool.and_self, *]
    | simp only [outermostOfCall, outermostOfOver, outermostOfWindow, outermostOfOrder,
      outermostOfItem,
        outermostOfList, outermostOfArguments, outermostOfArgumentList, outermostOfArgument,
          outermostOfResults,
        outermostOfConditions, outermostOfOption, List.all_append, List.all_nil, Bool.and_self, *]

theorem ExprOf.of_mem_outermost (p : ExprOf Q → Bool) (e : ExprOf Q) :
    ∀ part ∈ e.outermost p, p part :=
  List.all_eq_true.1 (e.all_outermost p)

end

def ExprOf.callParts (q : Call Expr → Bool) (e : Expr) : List Expr :=
  e.outermost fun e => e.call?.any q

def ExprOf.aggregateParts (e : Expr) : List Expr :=
  e.callParts Call.isAggregate

def ExprOf.windowParts (e : Expr) : List Expr :=
  e.callParts fun c => c.window.isSome

def ExprOf.subqueryParts (e : Expr) : List Expr :=
  e.outermost ExprOf.isSubquery

/-- The parts of an expression that get a column of their own. -/
def ExprOf.computedParts (e : Expr) : List Expr :=
  e.aggregateParts ++ e.windowParts ++ e.subqueryParts

namespace Select

/-- The expressions of a block in which parts are computed ahead. -/
def clauses (s : Select Query) (tail : QueryTail) : List Expr :=
  s.condition.toList ++ s.having.toList ++ s.exprs ++ tail.exprs

def computedParts (s : Select Query) (tail : QueryTail) : List Expr :=
  s.groupBy ++ (s.clauses tail).flatMap (·.computedParts)

variable {s : Select Query} {tail : QueryTail} {e : Expr}

theorem mem_clauses : e ∈ s.clauses tail ↔
    e ∈ s.condition ∨ e ∈ s.having ∨ e ∈ s.exprs ∨ e ∈ tail.exprs := by
  simp [clauses]

theorem mem_computedParts (he : e ∈ s.clauses tail) (h : part ∈ e.computedParts) :
    part ∈ s.computedParts tail :=
  List.mem_append_right _ (List.mem_flatMap.2 ⟨e, he, h⟩)

theorem aggregateParts_subset (he : e ∈ s.clauses tail) : e.aggregateParts ⊆ s.computedParts tail :=
  fun _ h => mem_computedParts he (List.mem_append_left _ (List.mem_append_left _ h))

theorem windowParts_subset (he : e ∈ s.clauses tail) : e.windowParts ⊆ s.computedParts tail :=
  fun _ h => mem_computedParts he (List.mem_append_left _ (List.mem_append_right _ h))

theorem subqueryParts_subset (he : e ∈ s.clauses tail) : e.subqueryParts ⊆ s.computedParts tail :=
  fun _ h => mem_computedParts he (List.mem_append_right _ h)

end Select

def addCall (kept : List (String × Call Expr)) (c : Call Expr) : List (String × Call Expr) :=
  let key := ExprOf.key (.call c)
  if kept.any fun k => k.1 == key then kept else kept ++ [(key, c)]

theorem distinctCalls_eq (calls : List (Call Expr)) :
    distinctCalls calls = (calls.foldl addCall []).map (·.2) := rfl

theorem subset_addCall (kept : List (String × Call Expr)) (c : Call Expr) :
    kept ⊆ addCall kept c := by
  unfold addCall
  dsimp only
  split
  · exact List.Subset.refl _
  · exact List.subset_append_left _ _

theorem mem_addCall (h : x ∈ addCall kept c) : x ∈ kept ∨ x = (ExprOf.key (.call c), c) := by
  unfold addCall at h
  dsimp only at h
  split at h
  · exact .inl h
  · simpa using h

theorem exists_mem_addCall (kept : List (String × Call Expr)) (c : Call Expr) :
    ∃ x ∈ addCall kept c, x.1 = ExprOf.key (.call c) := by
  unfold addCall
  dsimp only
  split
  next h => simpa using h
  next => exact ⟨(_, c), List.mem_append_right _ List.mem_cons_self, rfl⟩

theorem subset_foldl_addCall (calls : List (Call Expr)) (kept : List (String × Call Expr)) :
    kept ⊆ calls.foldl addCall kept := by
  induction calls generalizing kept with
  | nil => exact List.Subset.refl _
  | cons c rest ih => exact List.Subset.trans (subset_addCall kept c) (ih _)

theorem mem_foldl_addCall (h : x ∈ calls.foldl addCall kept) :
    x ∈ kept ∨ x.2 ∈ calls ∧ x.1 = ExprOf.key (.call x.2) := by
  induction calls generalizing kept with
  | nil => exact .inl h
  | cons c rest ih =>
    obtain h | ⟨h, hkey⟩ := ih h
    · obtain h | rfl := mem_addCall h
      · exact .inl h
      · exact .inr ⟨List.mem_cons_self, rfl⟩
    · exact .inr ⟨List.mem_cons_of_mem _ h, hkey⟩

theorem exists_mem_foldl_addCall (kept : List (String × Call Expr)) (h : c ∈ calls) :
    ∃ x ∈ calls.foldl addCall kept, x.1 = ExprOf.key (.call c) := by
  induction calls generalizing kept with
  | nil => cases h
  | cons c' rest ih =>
    obtain rfl | h := List.mem_cons.1 h
    · obtain ⟨x, hx, hkey⟩ := exists_mem_addCall kept c
      exact ⟨x, subset_foldl_addCall rest _ hx, hkey⟩
    · exact ih _ h

theorem exists_mem_distinctCalls (h : c ∈ calls) :
    ∃ c' ∈ distinctCalls calls, ExprOf.key (.call c') = ExprOf.key (.call c) := by
  rw [distinctCalls_eq]
  obtain ⟨x, hx, hkey⟩ := exists_mem_foldl_addCall [] h
  obtain hnil | ⟨-, hown⟩ := mem_foldl_addCall hx
  · cases hnil
  · exact ⟨x.2, List.mem_map_of_mem hx, hown ▸ hkey⟩

theorem mem_of_mem_distinctCalls (h : c ∈ distinctCalls calls) : c ∈ calls := by
  rw [distinctCalls_eq] at h
  obtain ⟨x, hx, rfl⟩ := List.mem_map.1 h
  obtain hnil | ⟨hx, -⟩ := mem_foldl_addCall hx
  · cases hnil
  · exact hx

section

variable {q : Call Expr → Bool} {es : List Expr}

theorem exists_part_of_call
    (h : c ∈ distinctCalls (es.flatMap fun e => (e.callParts q).filterMap ExprOf.call?)) :
    ∃ e ∈ es, .call c ∈ e.callParts q := by
  obtain ⟨e, he, hc⟩ := List.mem_flatMap.1 (mem_of_mem_distinctCalls h)
  obtain ⟨part, hpart, hcall⟩ := List.mem_filterMap.1 hc
  cases part with
  | call c' =>
    cases hcall
    exact ⟨e, he, hpart⟩
  | _ => cases hcall

theorem exists_call_of_part {e : Expr} (he : e ∈ es) (hpart : part ∈ e.callParts q) :
    ∃ c ∈ distinctCalls (es.flatMap fun e => (e.callParts q).filterMap ExprOf.call?),
      ExprOf.key (.call c) = part.key := by
  have hcall : part.call?.any q := ExprOf.of_mem_outermost _ e part hpart
  cases part with
  | call c =>
    refine exists_mem_distinctCalls (List.mem_flatMap.2 ⟨e, he, ?_⟩)
    exact List.mem_filterMap.2 ⟨.call c, hpart, rfl⟩
  | _ => cases hcall

end

namespace Select

variable {s : Select Query} {tail : QueryTail}

theorem call_mem_computedParts (h : c ∈ s.aggregates tail.exprs) :
    .call c ∈ s.computedParts tail := by
  obtain ⟨e, he, hpart⟩ := exists_part_of_call h
  refine aggregateParts_subset (mem_clauses.2 ?_) hpart
  simp only [List.mem_append, Option.mem_toList] at he
  obtain (he | he) | he := he
  · exact .inr (.inr (.inl he))
  · exact .inr (.inl he)
  · exact .inr (.inr (.inr he))

theorem not_grouped (h : s.groups tail.exprs = .ok false) : s.having = none ∧
    ∀ e ∈ s.exprs ++ tail.exprs, e.aggregateParts = [] := by
  unfold groups at h
  split at h
  · cases h
  · simp only [Except.ok.injEq, Bool.or_eq_false_iff, Option.isSome_eq_false_iff,
      Option.isNone_iff_eq_none, Bool.not_eq_false', List.isEmpty_iff] at h
    refine ⟨h.1.2, fun e he => List.eq_nil_iff_forall_not_mem.2 fun part hpart => ?_⟩
    obtain ⟨c, hc, -⟩ : ∃ c ∈ aggregateCalls (s.exprs ++ tail.exprs), _ :=
      exists_call_of_part he hpart
    exact List.not_mem_nil (h.2 ▸ hc)

end Select

end BatchPlan.Sql
