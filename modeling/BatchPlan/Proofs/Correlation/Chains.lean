import BatchPlan.Proofs.Binding.Expressions
import BatchPlan.Proofs.Scoping.Shadowing
import Mathlib.Data.List.Pairwise

namespace BatchPlan

open BindM

variable {s : Scope}

/-- A name is looked up in query `k`. The queries inside of it keep what they have booked. -/
def callAt (chain : List Level) (k : Fin chain.length) (c : Column) (context : BindContext)
    (st : BindState) : Result Scalar × BindState :=
  let run := (Scope.resolve { toLevel := chain.get k, outer := chain.drop (k + 1) } c).start context
    { st with captured := st.captured.drop k }
  (run.1, { run.2 with captured := st.captured.take k ++ run.2.captured })

/-- Names are looked up one after the other. Before each call, others may have been given names. -/
inductive Calls (chain : List Level) (context : BindContext) : BindState → BindState → Prop
  | refl (st : BindState) : Calls chain context st st
  | call {st st' : BindState} (earlier : Calls chain context st st') (names : NameSupply)
      (hnames : st'.names.exprs ≤ names.exprs) (k : Fin chain.length) (c : Column) :
      Calls chain context st (callAt chain k c context { st' with names }).2

namespace BindState

def list (st : BindState) (i : Nat) : List Captured :=
  st.captured.getD i []

def booking (st : BindState) (found : Nat × Field) : Captured :=
  ⟨⟨"@" ++ exprName (st.names.exprs + 1), found.2.column⟩, found.2.dataType⟩

def book (st : BindState) (i : Nat) (found : Nat × Field) : BindState :=
  { st with
    names := { st.names with exprs := st.names.exprs + 1 }
    captured := st.captured.modify i (· ++ [st.booking found]) }

end BindState

variable {chain levels : List Level} {context : BindContext} {st st' : BindState} {c c' : Column}
  {i j : Nat} {k : Fin chain.length} {found : Nat × Field} {e : Captured}

theorem start_resolve_nearest (h : Nearest c s.levels (i + 1) found) :
    (s.resolve c).start context st = (capture i found.2.column found.2.dataType).start
      context st := by
  cases h with
  | outside hl h =>
    unfold Scope.resolve
    rw [start_bind, start_lift, Schema.find?_eq_none.2 hl]
    dsimp only
    rw [start_bind, start_lift, Scope.owner?_eq_some.2 ⟨i, found.1, (Nat.zero_add i).symm, h⟩]

theorem start_resolve_other (h : ∀ i found, ¬ Nearest c s.levels (i + 1) found) :
    ∃ r, (∀ p t, r ≠ .ok (.outer p t)) ∧ (s.resolve c).start context st = (r, st) := by
  by_cases hlacks : s.schema.Lacks c
  · unfold Scope.resolve
    rw [start_bind, start_lift, Schema.find?_eq_none.2 hlacks]
    dsimp only
    rw [start_bind, start_lift]
    rcases howner : Scope.owner? c 0 s.outer with e | _ | owner
    · exact ⟨.error e, by simp, rfl⟩
    · exact ⟨.error (s.missing c), by simp, rfl⟩
    · obtain ⟨i, n, -, hnearest⟩ := Scope.owner?_eq_some.1 howner
      exact absurd (.outside hlacks hnearest) (h i _)
  · obtain ⟨i, f, -, hrun⟩ | ⟨-, hrun⟩ := Scope.start_resolve_own context st hlacks
    · exact ⟨.ok (.column f.column), by simp, hrun⟩
    · exact ⟨.error (.ambiguousColumn c.text), by simp, hrun⟩

theorem start_capture_cases (level : Nat) (found : Nat × Field) (st : BindState) :
    (∃ e ∈ st.list level, e.binding.column = found.2.column ∧
      (capture level found.2.column found.2.dataType).start context st =
        (.ok (.outer e.binding.param e.dataType), st)) ∨
    (∀ e ∈ st.list level, e.binding.column ≠ found.2.column) ∧
      (capture level found.2.column found.2.dataType).start context st =
        (.ok (.outer (st.booking found).binding.param found.2.dataType), st.book level found) := by
  unfold capture
  rw [start_get_bind]
  dsimp only
  split
  next e he =>
    have hcolumn := List.find?_some he
    exact .inl ⟨e, List.mem_of_find?_eq_some he, by simpa using hcolumn, rfl⟩
  next he => exact .inr ⟨by simpa [BindState.list] using he, rfl⟩

theorem take_append_modify {α : Type} (xs : List α) (k i : Nat) (f : α → α) :
    xs.take k ++ (xs.drop k).modify i f = xs.modify (k + i) f := by
  induction k generalizing xs with
  | zero => simp
  | succ k ih =>
    cases xs with
    | nil => simp
    | cons x xs => simpa [Nat.add_right_comm] using ih xs

/-- A call that reaches an enclosing query finds a booking, or makes one where the column has
none. -/
theorem callAt_nearest (context : BindContext) (st : BindState)
    (h : Nearest c (chain.drop k) (i + 1) found) :
    (∃ e ∈ st.list (k + i), e.binding.column = found.2.column ∧
      callAt chain k c context st = (.ok (.outer e.binding.param e.dataType), st)) ∨
    (∀ e ∈ st.list (k + i), e.binding.column ≠ found.2.column) ∧ callAt chain k c context st =
      (.ok (.outer (st.booking found).binding.param found.2.dataType), st.book (k + i) found) := by
  have hlist : BindState.list { st with captured := st.captured.drop k } i = st.list (k + i) := by
    simp [BindState.list]
  rw [List.drop_eq_getElem_cons k.2] at h
  unfold callAt
  rw [start_resolve_nearest h, ← hlist]
  obtain ⟨e, he, hcolumn, hstart⟩ | ⟨hnone, hstart⟩ := start_capture_cases i found _
  · rw [hstart]
    exact .inl ⟨e, he, hcolumn, by simp⟩
  · rw [hstart]
    exact .inr ⟨hnone, by simp [BindState.book, take_append_modify, BindState.booking]⟩

theorem callAt_other (context : BindContext) (st : BindState)
    (h : ∀ i found, ¬ Nearest c (chain.drop k) (i + 1) found) :
    (∀ p t, (callAt chain k c context st).1 ≠ .ok (.outer p t)) ∧
    (callAt chain k c context st).2 = st := by
  rw [List.drop_eq_getElem_cons k.2] at h
  obtain ⟨r, hr, hrun⟩ := start_resolve_other (s := ⟨chain.get k, chain.drop (k + 1)⟩) h
  unfold callAt
  rw [hrun]
  exact ⟨hr, by simp⟩

def Captured.Differ (e e' : Captured) : Prop :=
  e.binding.param ≠ e'.binding.param ∧ e.binding.column ≠ e'.binding.column

instance : Std.Symm Captured.Differ :=
  ⟨fun _ _ h => ⟨h.1.symm, h.2.symm⟩⟩

/-- Fields of one schema that names tell apart have different columns. -/
theorem Schema.found_unique {s : Schema} {found' : Nat × Field} (h : s.candidates c = [found])
    (h' : s.candidates c' = [found']) (hcolumn : found.2.column = found'.2.column) :
    found = found' := by
  have hfound := Schema.mem_candidates.1 (h ▸ List.mem_singleton_self found)
  have hfound' := Schema.mem_candidates.1 (h' ▸ List.mem_singleton_self found')
  have hanswers : found.2.answersTo = found'.2.answersTo := by
    obtain ⟨hrelation, hname⟩ := Column.mk.injEq .. ▸ hcolumn
    unfold Field.answersTo
    rw [hcolumn, hrelation, hname]
  have hmem : found ∈ s.candidates c' := Schema.mem_candidates.2 ⟨hfound.1, hanswers ▸ hfound'.2⟩
  exact List.mem_singleton.1 (h' ▸ hmem)

theorem list_book (hi : i < st.captured.length) (j : Nat) :
    (st.book i found).list j = st.list j ++ if i = j then [st.booking found] else [] := by
  by_cases h : i = j
  · subst h
    simp [BindState.list, BindState.book, hi]
  · simp [BindState.list, BindState.book, h]

theorem mem_list_book (hi : i < st.captured.length) :
    e ∈ (st.book i found).list j ↔ e ∈ st.list j ∨ i = j ∧ e = st.booking found := by
  rw [list_book hi]
  grind

/-- Each booking stands for a field that a name tells apart, in the query around its own. -/
structure Booked (chain : List Level) (st : BindState) : Prop where
  length : st.captured.length = chain.length
  owned : ∀ i, ∀ e ∈ st.list i, ∃ l c found, chain[i + 1]? = some l ∧
    l.schema.candidates c = [found] ∧
    e.binding.column = found.2.column ∧ e.dataType = found.2.dataType
  supplied : ∀ i, ∀ e ∈ st.list i, ∃ n ≤ st.names.exprs, e.binding.param = "@" ++ exprName n
  apart : ∀ i j, ∀ e ∈ st.list i, ∀ e' ∈ st.list j, e.binding.param = e'.binding.param → i = j
  distinct : ∀ i, (st.list i).Pairwise Captured.Differ

namespace Booked

theorem lt_length (h : Booked chain st) (hfound : Nearest c (chain.drop k) (i + 1) found) :
    k + i < st.captured.length := by
  obtain ⟨l, hl, -⟩ := hfound.owner
  have hlt := (List.getElem?_eq_some_iff.1 hl).1
  rw [List.length_drop] at hlt
  have := h.length
  omega

theorem fresh (h : Booked chain st) (he : e ∈ st.list i) :
    e.binding.param ≠ (st.booking found).binding.param := by
  obtain ⟨n, hn, hparam⟩ := h.supplied i e he
  intro heq
  have : n = st.names.exprs + 1 := by
    refine toDigits_injective ?_
    simpa [BindState.booking, exprName] using congrArg String.toList (hparam.symm.trans heq)
  omega

theorem book (h : Booked chain st) (hfound : Nearest c (chain.drop k) (i + 1) found)
    (hnone : ∀ e ∈ st.list (k + i), e.binding.column ≠ found.2.column) :
    Booked chain (st.book (k + i) found) := by
  have hi := h.lt_length hfound
  refine ⟨?_, fun j e he => ?_, fun j e he => ?_, fun j j' e he e' he' heq => ?_, fun j => ?_⟩
  · simpa [BindState.book] using h.length
  · obtain he | ⟨rfl, rfl⟩ := (mem_list_book hi).1 he
    · exact h.owned j e he
    · obtain ⟨l, hl, hfound⟩ := hfound.owner
      exact ⟨l, c, found, by rwa [List.getElem?_drop] at hl, hfound, rfl, rfl⟩
  · obtain he | ⟨rfl, rfl⟩ := (mem_list_book hi).1 he
    · obtain ⟨n, hn, hparam⟩ := h.supplied j e he
      exact ⟨n, Nat.le_succ_of_le hn, hparam⟩
    · exact ⟨_, Nat.le_refl _, rfl⟩
  · rw [mem_list_book hi] at he he'
    grind [h.apart j j', h.fresh]
  · rw [list_book hi, List.pairwise_append]
    refine ⟨h.distinct j, by split <;> simp, fun e he e' he' => ?_⟩
    obtain ⟨rfl, rfl⟩ : k + i = j ∧ e' = st.booking found := by grind
    exact ⟨h.fresh he, hnone e he⟩

/-- What one call keeps, adds and answers. -/
theorem callAt_eq (h : Booked chain st) (context : BindContext)
    (hfound : Nearest c (chain.drop k) (i + 1) found) :
    Booked chain (callAt chain k c context st).2 ∧
    (∀ j, ∃ more, (callAt chain k c context st).2.list j = st.list j ++ more ∧
      (j ≠ k + i → more = [])) ∧
    ∃ p, ⟨⟨p, found.2.column⟩, found.2.dataType⟩ ∈ (callAt chain k c context st).2.list (k + i) ∧
      (callAt chain k c context st).1 = .ok (.outer p found.2.dataType) := by
  obtain ⟨e, he, hcolumn, hcall⟩ | ⟨hnone, hcall⟩ := callAt_nearest context st hfound
  · rw [hcall]
    obtain ⟨l, hl, hcandidates⟩ := hfound.owner
    obtain ⟨l', c', found', hl', hcandidates', hcolumn', htype⟩ := h.owned _ e he
    obtain rfl : l = l' := Option.some.inj (by rw [← hl, ← hl', List.getElem?_drop]; rfl)
    obtain rfl := Schema.found_unique hcandidates hcandidates' (hcolumn.symm.trans hcolumn')
    refine ⟨h, fun j => ⟨[], by simp⟩, e.binding.param, ?_, by rw [htype]⟩
    rwa [← hcolumn, ← htype]
  · rw [hcall]
    have hi := h.lt_length hfound
    refine ⟨h.book hfound hnone, fun j => ⟨_, list_book hi j, fun hj => if_neg (Ne.symm hj)⟩,
      _, ?_, rfl⟩
    exact (mem_list_book hi).2 (.inr ⟨rfl, rfl⟩)

theorem of_empty (h : st.captured = chain.map fun _ => []) : Booked chain st := by
  have hlist (i : Nat) : st.list i = [] := by
    rw [BindState.list, h, List.getD_eq_getElem?_getD, List.getElem?_map]
    cases chain[i]? <;> rfl
  constructor
  · simp [h]
  all_goals simp [hlist]

end Booked

theorem Calls.booked (h : Calls chain context st st') (hst : Booked chain st) :
    Booked chain st' ∧ ∀ i, st.list i ⊆ st'.list i := by
  induction h with
  | refl => exact ⟨hst, fun _ => List.Subset.refl _⟩
  | @call st' _ names hnames k c ih =>
    have hnamed : Booked chain { st' with names } := by
      refine ⟨ih.1.length, ih.1.owned, fun i e he => ?_, ih.1.apart, ih.1.distinct⟩
      obtain ⟨n, hn, hparam⟩ := ih.1.supplied i e he
      exact ⟨n, Nat.le_trans hn hnames, hparam⟩
    by_cases hreach : ∃ i found, Nearest c (chain.drop k) (i + 1) found
    · obtain ⟨i, found, hfound⟩ := hreach
      obtain ⟨hbooked, hmore, -⟩ := hnamed.callAt_eq context hfound
      refine ⟨hbooked, fun j => ?_⟩
      obtain ⟨more, hmore, -⟩ := hmore j
      exact hmore ▸ List.subset_append_of_subset_left _ (ih.2 j)
    · rw [(callAt_other _ _ fun i found h => hreach ⟨i, found, h⟩).2]
      exact ⟨hnamed, ih.2⟩

/-- Names are looked up in the queries of a chain, and at the start nothing is booked. A parameter
that is returned is booked on one query only, right inside of the nearest one that has the column.
It stands for that field and has its type, the lists of other queries do not change, and every name
that leads to this field from then on gives this parameter. -/
theorem calls_book (chain : List Level) (context : BindContext) (first st : BindState)
    (hfirst : first.captured = chain.map fun _ => []) (hcalls : Calls chain context first st) :
    (∀ i, (st.list i).Pairwise Captured.Differ) ∧
    ∀ (k : Fin chain.length) (c : Column) (p : String) (t : DataType) (st' : BindState),
      callAt chain k c context st = (.ok (.outer p t), st') →
      ∃ i found, Nearest c (chain.drop k) (i + 1) found ∧ t = found.2.dataType ∧
        ⟨⟨p, found.2.column⟩, t⟩ ∈ st'.list (k + i) ∧
        (∀ j, ∀ e ∈ st'.list j, e.binding.param = p → j = k + i) ∧
        (∀ j, j ≠ k + i → st'.list j = st.list j) ∧
        ∀ later, Calls chain context st' later → ∀ c', Nearest c' (chain.drop k) (i + 1) found →
          (callAt chain k c' context later).1 = .ok (.outer p t) := by
  obtain ⟨hbooked, -⟩ := hcalls.booked (.of_empty hfirst)
  refine ⟨hbooked.distinct, fun k c p t st' hcall => ?_⟩
  by_cases hreach : ∃ i found, Nearest c (chain.drop k) (i + 1) found
  · obtain ⟨i, found, hfound⟩ := hreach
    obtain ⟨hbooked', hmore, p', hmem, hp⟩ := hbooked.callAt_eq context hfound
    rw [hcall] at hbooked' hmore hmem hp
    cases hp
    refine ⟨i, found, hfound, rfl, hmem, fun j e he heq => hbooked'.apart _ _ e he _ hmem heq,
      fun j hj => ?_, fun later hlater c' hc' => ?_⟩
    · obtain ⟨more, hmore, hnone⟩ := hmore j
      rw [hmore, hnone hj, List.append_nil]
    · -- The booking is still there, and no other of its list has this column.
      obtain ⟨hlater, hkept⟩ := hlater.booked hbooked'
      obtain ⟨hafter, hmore, p', hmem', hp'⟩ := hlater.callAt_eq context hc'
      obtain ⟨more, hmore, -⟩ := hmore (k + i)
      have hmem : ⟨⟨p, found.2.column⟩, found.2.dataType⟩ ∈
          (callAt chain k c' context later).2.list (k + i) :=
        hmore ▸ List.mem_append_left _ (hkept _ hmem)
      by_cases heq : p' = p
      · rw [hp', heq]
      · have hdiffer := (hafter.distinct (k + i)).forall hmem' hmem (by simpa using heq)
        exact absurd rfl hdiffer.2
  · exact absurd (congrArg Prod.fst hcall)
      ((callAt_other _ _ fun i found h => hreach ⟨i, found, h⟩).1 p t)

/-- A query over `c`, in one over `b`, in one over `a`. -/
def nested : List Level :=
  ["c", "b", "a"].map fun relation =>
    { schema := .ofFields
        [{ name := "x" ++ relation, dataType := .int32, relation := some relation }] }

def unbooked : BindState := { session := .empty, captured := [[], [], []] }

theorem nested_books : ∃ i found, Nearest (.bare "xa") nested (i + 1) found ∧
    ⟨⟨"@Expr1", found.2.column⟩, .int32⟩ ∈
      (callAt nested ⟨0, by decide⟩ (.bare "xa") Scope.noEntities unbooked).2.list (0 + i) := by
  have hbook := (calls_book nested Scope.noEntities unbooked unbooked rfl (.refl _)).2
  obtain ⟨i, found, hfound, -, hmem, -⟩ := hbook ⟨0, by decide⟩ (.bare "xa") "@Expr1" .int32 _ rfl
  exact ⟨i, found, hfound, hmem⟩

end BatchPlan
