import BatchPlan.Proofs.Binding.Gives
import BatchPlan.Proofs.Joining.Conditions
import BatchPlan.Proofs.Substitution.Blocks
import Mathlib.Data.List.Nodup

namespace BatchPlan

open BindM

variable {i first n : Nat} {c : BindContext} {s : Schema} {f : Field} {α β : Type}
    {l : List α} {b : β}

/-- Both values are NULL, or neither is and they are equal. -/
def Operations.Matches (ops : Operations) (v w : Value) : Prop :=
  v = .null ∧ w = .null ∨ v ≠ .null ∧ w ≠ .null ∧ ops.equal v w

/-- The rows of a join that hands on left rows: those with a match, or those without one. -/
def Plan.matched (rt : Runtime) (env : Env) : Plan → List Row
  | .join left right spec => (left.rows rt env).filter fun l =>
      ((right.rows rt env).any (spec.admits rt.toOperations env left.schema right.schema l)) !=
        spec.anti
  | _ => []

def Plan.tellsApart : Plan → Bool
  | .join left right spec =>
    spec.condition.all fun e => e.columns.all (left.schema.merge right.schema).contains
  | _ => true

theorem QueryPlan.truth_sameValue (ops : Operations) (env : Env) (s : Schema)
    (row : Row) (a b : Column) :
    ((sameValue (.column a) (.column b)).eval ops env s row).truth = .true ↔
      ops.Matches (s.read row a) (s.read row b) := by
  simp only [sameValue, Scalar.or, Scalar.and, Scalar.eq, Scalar.isNull, Scalar.eval,
    Operations.Matches]
  have hnull : Value.null.truth = .unknown := rfl
  by_cases ha : s.read row a = .null <;> by_cases hb : s.read row b = .null <;>
    simp [Operations.binary, Operations.unary, Value.strict₂, hnull, ha, hb]

theorem QueryPlan.columns_sameValue (a b : Column) :
    (sameValue (.column a) (.column b)).columns = [a, b, a, b] := by
  have hcolumn (c : Column) : (Scalar.column c).columns = [c] := rfl
  have hnull (c : Column) : (Scalar.unary .isNull (.column c)).columns = [c] := rfl
  simp only [sameValue, Scalar.or, Scalar.and, Scalar.eq, Scalar.isNull,
    Scalar.columns_binary, hcolumn, hnull, List.cons_append, List.nil_append]

theorem Scalar.columns_of_conjunction? {P : Column → Prop} {es : List Scalar}
    (h : ∀ e ∈ conjunction? es, ∀ c ∈ e.columns, P c) : ∀ e ∈ es, ∀ c ∈ e.columns, P c := by
  intro e he c hc
  have hmem := List.mem_flatMap.2 ⟨e, he, hc⟩
  rw [← flatMap_conjunction? fun _ _ => columns_binary ..] at hmem
  obtain ⟨d, hd, hc⟩ := List.mem_flatMap.1 hmem
  exact h d (Option.mem_toList.1 hd) c hc

theorem map_some_filterMap {f : α → Option β} (h : ∀ a ∈ l, (f a).isSome) :
    (l.filterMap f).map some = l.map f := by
  induction l with
  | nil => rfl
  | cons a l ih =>
    rw [List.forall_mem_cons] at h
    obtain ⟨b, hb⟩ := Option.isSome_iff_exists.1 h.1
    rw [List.filterMap_cons_some hb, List.map_cons, List.map_cons, ih h.2, hb]

theorem getElem?_filterMap_of_isSome {f : α → Option β} (h : ∀ a ∈ l, (f a).isSome) {a : α}
    (ha : l[i]? = some a) (hb : f a = some b) : (l.filterMap f)[i]? = some b := by
  have hplace := congrArg (·[i]?) (map_some_filterMap h)
  simpa [ha, hb] using hplace

theorem Schema.read_of_answersTo {c : Column} {row : Row} (hc : s.contains c)
    (hf : s.fields[i]? = some f)
    (hanswers : f.answersTo c.relation.isSome (Text.lower c.text)) :
    s.read row c = row[i]?.getD .null := by
  obtain ⟨j, g, hcandidates⟩ := contains_iff.1 hc
  have hmem : (i, f) ∈ s.candidates c := mem_candidates.2 ⟨hf, hanswers⟩
  rw [hcandidates, List.mem_singleton] at hmem
  cases hmem
  exact read_of_candidates hcandidates

theorem Schema.contains_of_dataType {c : Column} {type : DataType}
    (h : (Scalar.column c).dataType s = .ok type) : s.contains c := by
  rw [Scalar.dataType] at h
  obtain ⟨found, hfound, -⟩ := Result.exists_of_bind h
  exact contains_iff.2 ⟨_, _, candidates_of_resolve hfound⟩

theorem exists_of_mapM_freshExpr {xs : List α} {names : List String} {s s' : BindState}
    (h : (xs.mapM fun _ => freshExpr).start c s = (.ok names, s')) :
    names = (List.range' (s.names.exprs + 1) xs.length).map exprName := by
  induction xs generalizing names s with
  | nil =>
    cases h
    rfl
  | cons x xs ih =>
    rw [List.mapM_cons] at h
    obtain ⟨name, s₁, hname, h⟩ := exists_of_start_bind h
    obtain ⟨rfl, rfl⟩ := start_freshExpr hname
    obtain ⟨rest, s₂, hrest, h⟩ := exists_of_start_bind h
    cases h
    rw [ih hrest, List.length_cons, List.range'_succ, List.map_cons]

theorem exists_of_start_check {p : Prop} [Decidable p] {e : PlanError}
    {f : α → BindM β} {y : BindM β}
    {s s' : BindState} (h : (if p then (throw e : BindM α) >>= f else y).start c s = (.ok b, s')) :
    ¬p ∧ y.start c s = (.ok b, s') := by
  split at h
  · cases h
  · exact ⟨‹_›, h⟩

theorem toNat_lt_of_mem_exprName {d : Char} (h : d ∈ (exprName n).toList) : d.toNat < 0x80 := by
  rw [exprName, String.toList_append, toList_toString, List.mem_append] at h
  obtain h | h := h
  · have hstem : ∀ d ∈ "Expr".toList, d.toNat < 0x80 := by simp
    exact hstem d h
  · have hdigit : 48 ≤ d.val ∧ d.val ≤ 57 := by
      simpa [Char.isDigit] using Nat.isDigit_of_mem_toDigits (by omega) (by omega) h
    exact Nat.lt_of_le_of_lt hdigit.2 (by decide)

theorem lower_qualified_exprName_inj {k m : Nat} :
    Text.lower (Column.qualified (exprName k) (exprName m)).text =
      Text.lower (Column.qualified (exprName k) (exprName n)).text ↔ m = n := by
  refine ⟨fun h => toDigits_injective ?_, fun h => h ▸ rfl⟩
  have hstem : ∀ d ∈ (exprName k ++ ".Expr").toList, d.toNat < 0x80 := by
    rw [String.toList_append]
    exact List.forall_mem_append.2 ⟨fun d => toNat_lt_of_mem_exprName, by simp⟩
  have htext (n : Nat) : (Column.qualified (exprName k) (exprName n)).text =
      (exprName k ++ ".Expr") ++ toString n := by
    simp only [Column.text, Column.qualified, exprName, String.append_assoc]
    rfl
  rw [htext, htext, lower_numbered hstem, lower_numbered hstem] at h
  simpa [toList_toString] using congrArg String.toList h

namespace QueryPlan

variable {left right q : QueryPlan} {except : Bool} {c : BindContext} {s s' : BindState}
    {name : String}

def matchNames (left : QueryPlan) (first : Nat) : List String :=
  (List.range' (first + 2) left.columns.length).map exprName

def matchColumn (first : Nat) (name : String) : Column :=
  .qualified (exprName (first + 1)) name

/-- The columns of both queries at one place hold the same value. -/
def matchConditions (left : QueryPlan) (first : Nat) : List Scalar :=
  (left.columns.zip (left.matchNames first)).map fun entry =>
    sameValue (.column entry.1.source) (.column (matchColumn first entry.2))

def distinctRows (left : QueryPlan) : Plan :=
  .distinct left.root (left.columns.map (·.source))

theorem length_matchNames (left : QueryPlan) (first : Nat) :
    (left.matchNames first).length = left.columns.length := by
  simp [matchNames]

def matchJoin (conditions : List Scalar) (except : Bool) : JoinSpec :=
  { type := if except then .leftOuter else .inner, strategy := .nestedLoop [], output := .left,
    anti := except, condition := Scalar.conjunction? conditions }

/-- The right side and the conditions: an intersection and a difference have them in common. -/
def matchSide (left right : QueryPlan) : BindM (Plan × List Scalar) := do
  if left.columns.length != right.columns.length then throw widthError
  let relation ← freshExpr
  let names ← right.columns.mapM fun _ => freshExpr
  let source ← right.named relation names
  let conditions ← (left.columns.zip names).mapM fun (output, name) => do
    let l := Scalar.column output.source
    let r := Scalar.column (.qualified relation name)
    (← l.dataType left.schema).checkComparable (← r.dataType source.plan.schema)
    return sameValue l r
  return (← source.plan.spooled, conditions)

theorem matching_eq (left right : QueryPlan) (except : Bool) :
    left.matching right except = left.matchSide right >>= fun side =>
      pure ⟨.join left.distinctRows side.1 (matchJoin side.2 except), left.columns⟩ := by
  unfold matching matchSide
  dsimp only
  split
  · rfl
  · simp only [bind_assoc, pure_bind]
    rfl

/-- The right side of an intersection or a difference: a query under generated names. -/
structure MatchSide (left right : QueryPlan) (first : Nat) (kept : Plan)
    (columns : List AliasColumn) : Prop where
  names : columns.map (·.name) = left.matchNames first
  fields : kept.schema.fields =
    (Plan.rename right.root (exprName (first + 1)) columns).schema.fields
  contains : ∀ name ∈ left.matchNames first, kept.schema.contains (matchColumn first name)

theorem exists_of_matchSide {kept : Plan} {conditions : List Scalar}
    (h : (left.matchSide right).start c s = (.ok (kept, conditions), s')) :
    conditions = left.matchConditions s.names.exprs ∧
      (∀ o ∈ left.columns, left.root.schema.contains o.source) ∧
      ∃ columns, MatchSide left right s.names.exprs kept columns := by
  obtain ⟨hwidth, h⟩ := exists_of_start_check h
  obtain ⟨relation, s₁, hrelation, h⟩ := exists_of_start_bind h
  obtain ⟨rfl, rfl⟩ := start_freshExpr hrelation
  obtain ⟨names, s₂, hnames, h⟩ := exists_of_start_bind h
  have hwidth : left.columns.length = right.columns.length := by simpa using hwidth
  obtain rfl : names = left.matchNames s.names.exprs :=
    (exists_of_mapM_freshExpr hnames).trans (by rw [matchNames, hwidth])
  obtain ⟨source, hsource, h⟩ := exists_of_start_lift_bind h
  obtain ⟨conditions, s₃, hconditions, h⟩ := exists_of_start_bind h
  obtain ⟨kept, s₄, hkept, h⟩ := exists_of_start_bind h
  cases h
  -- the right query under generated names
  obtain ⟨-, hsource⟩ := Result.of_check hsource
  obtain ⟨columns, hcolumns, hsource⟩ := Result.exists_of_bind hsource
  cases hsource
  have hnamed : columns.map (·.name) = left.matchNames s.names.exprs := by
    rw [AliasColumn.list_eq hcolumns, List.map_map]
    cases hright : right.columns with
    | nil => simp [matchNames, hwidth, hright]
    | cons o rest =>
      rw [if_neg (by simp [matchNames, hwidth, hright])]
      exact List.map_fst_zip (by simp [matchNames, hwidth, hright])
  have hfields := (QueryBinder.rows_spooled (.ofTables fun _ => []) hkept).1
  have hcontains (d : Column) : kept.schema.contains d =
      (Plan.rename right.root (exprName (s.names.exprs + 1)) columns).schema.contains d := by
    simp only [Schema.contains, Schema.index?, Schema.candidates, hfields]
  -- the conditions and the checks before them
  have hconditions : List.Forall₂ (fun (entry : OutputColumn × String) e =>
      (left.root.schema.contains entry.1.source ∧
        kept.schema.contains (matchColumn s.names.exprs entry.2)) ∧
      sameValue (.column entry.1.source) (.column (matchColumn s.names.exprs entry.2)) = e)
      (left.columns.zip (left.matchNames s.names.exprs)) conditions := by
    refine Gives.mapM (fun entry _ => ?_) c s₂ conditions s₃ hconditions
    exact (Gives.result _).bind fun _ hl => (Gives.result _).bind fun _ hr => .after fun _ => .pure
      ⟨⟨Schema.contains_of_dataType hl, (hcontains _).trans (Schema.contains_of_dataType hr)⟩, rfl⟩
  rw [List.forall₂_and_left, ← List.forall₂_map_left_iff, List.forall₂_eq_eq_eq] at hconditions
  obtain ⟨hchecked, rfl⟩ := hconditions
  refine ⟨rfl, fun o ho => ?_, columns, hnamed, hfields, fun name hname => ?_⟩
  · rw [← List.map_fst_zip (Nat.le_of_eq (left.length_matchNames s.names.exprs).symm)] at ho
    obtain ⟨entry, hentry, rfl⟩ := List.mem_map.1 ho
    exact (hchecked entry hentry).1
  · rw [← List.map_snd_zip (Nat.le_of_eq (left.length_matchNames s.names.exprs))] at hname
    obtain ⟨entry, hentry, rfl⟩ := List.mem_map.1 hname
    exact (hchecked entry hentry).2

theorem nodup_matchNames (left : QueryPlan) (first : Nat) : (left.matchNames first).Nodup :=
  List.Nodup.map (fun _ _ h => lower_exprName_inj.1 (congrArg Text.lower h)) List.nodup_range'

theorem eq_of_lower_matchColumn {a b : String} (ha : a ∈ left.matchNames first)
    (hb : b ∈ left.matchNames first)
    (h : Text.lower (matchColumn first a).text = Text.lower (matchColumn first b).text) :
    a = b := by
  obtain ⟨m, -, rfl⟩ := List.mem_map.1 ha
  obtain ⟨n, -, rfl⟩ := List.mem_map.1 hb
  exact congrArg exprName (lower_qualified_exprName_inj.1 h)

def matchField? (right : QueryPlan) (first : Nat) (a : AliasColumn) : Option Field :=
  (right.root.schema.field? a.source).map fun f =>
    { f with name := a.name, relation := some (exprName (first + 1)), visible := a.visible }

theorem column_of_matchField? {a : AliasColumn} (h : right.matchField? first a = some f) :
    f.column = matchColumn first a.name := by
  obtain ⟨f, -, rfl⟩ := Option.map_eq_some_iff.1 h
  rfl

section

variable {first : Nat} {kept : Plan} {columns : List AliasColumn}

theorem MatchSide.filterMap_fields (h : MatchSide left right first kept columns) :
    kept.schema.fields = columns.filterMap (right.matchField? first) := by
  rw [h.fields]
  change (List.filterMap _ columns).map _ = _
  rw [List.map_filterMap]
  refine List.filterMap_congr fun a _ => ?_
  rw [matchField?, Option.map_map]
  rfl

/-- No column of the right side is lost: its name is found, and no other column has it. -/
theorem MatchSide.isSome_matchField? (h : MatchSide left right first kept columns) :
    ∀ a ∈ columns, (right.matchField? first a).isSome := by
  intro a ha
  have hname : ∀ b ∈ columns, b.name ∈ left.matchNames first := fun b hb =>
    h.names ▸ List.mem_map_of_mem hb
  have hfound := Schema.not_lacks_of_contains (h.contains _ (hname a ha))
  simp only [Schema.lacks_iff, not_forall, Bool.not_eq_false] at hfound
  obtain ⟨f, hf, hanswers⟩ := hfound
  rw [h.filterMap_fields] at hf
  obtain ⟨b, hb, hbf⟩ := List.mem_filterMap.1 hf
  have hcolumn := column_of_matchField? hbf
  have hlower : Text.lower (matchColumn first b.name).text =
      Text.lower (matchColumn first a.name).text := by
    have hqualified : (matchColumn first a.name).relation.isSome := rfl
    rw [Field.answersTo, hcolumn, if_pos hqualified, Bool.and_eq_true, beq_iff_eq] at hanswers
    exact hanswers.2
  have hnodup : (columns.map (·.name)).Nodup := h.names ▸ left.nodup_matchNames first
  obtain rfl : b = a := List.inj_on_of_nodup_map hnodup hb ha
    (eq_of_lower_matchColumn (hname b hb) (hname a ha) hlower)
  exact Option.isSome_iff_exists.2 ⟨f, hbf⟩

theorem MatchSide.getElem?_fields (h : MatchSide left right first kept columns)
    (hname : (left.matchNames first)[i]? = some name) :
    ∃ f, kept.schema.fields[i]? = some f ∧ f.column = matchColumn first name := by
  rw [← h.names, List.getElem?_map, Option.map_eq_some_iff] at hname
  obtain ⟨a, ha, rfl⟩ := hname
  obtain ⟨f, hf⟩ := Option.isSome_iff_exists.1 (h.isSome_matchField? a (List.mem_of_getElem? ha))
  refine ⟨f, ?_, column_of_matchField? hf⟩
  rw [h.filterMap_fields]
  exact getElem?_filterMap_of_isSome h.isSome_matchField? ha hf

end

section

variable (hleft : ∀ o ∈ left.columns, left.root.schema.contains o.source) {o : OutputColumn}

include hleft

theorem isSome_field?_source : ∀ d ∈ left.columns.map (·.source),
    (left.root.schema.field? d).isSome := by
  refine List.forall_mem_map.2 fun o ho => ?_
  obtain ⟨i, f, hf⟩ := Schema.contains_iff.1 (hleft o ho)
  exact Option.isSome_iff_exists.2 ⟨f, Schema.field?_eq_some.2 ⟨i, hf⟩⟩

theorem getElem?_distinctRows (ho : left.columns[i]? = some o) :
    ∃ f, left.distinctRows.schema.fields[i]? = some f ∧
      f.answersTo o.source.relation.isSome (Text.lower o.source.text) := by
  obtain ⟨j, f, hf⟩ := Schema.contains_iff.1 (hleft o (List.mem_of_getElem? ho))
  refine ⟨f, ?_, (Schema.mem_candidates.1 (hf ▸ List.mem_singleton_self (j, f))).2⟩
  exact getElem?_filterMap_of_isSome (isSome_field?_source hleft)
    (by rw [List.getElem?_map, ho]; rfl) (Schema.field?_eq_some.2 ⟨j, hf⟩)

theorem length_distinctRows : left.distinctRows.schema.fields.length = left.columns.length := by
  have hlength := congrArg List.length (map_some_filterMap (isSome_field?_source hleft))
  rwa [List.length_map, List.length_map, List.length_map] at hlength

variable {first : Nat} {kept : Plan} {columns : List AliasColumn}
  (hside : MatchSide left right first kept columns)
  (hcolumns : ∀ e ∈ Scalar.conjunction? (left.matchConditions first), ∀ d ∈ e.columns,
    (left.distinctRows.schema.merge kept.schema).contains d)
  {l r : Row} (hl : l.length = left.columns.length)

include hside hcolumns hl

theorem read_match (ho : left.columns[i]? = some o)
    (hname : (left.matchNames first)[i]? = some name) :
    (left.distinctRows.schema.merge kept.schema).read (l ++ r) o.source = l[i]?.getD .null ∧
      (left.distinctRows.schema.merge kept.schema).read (l ++ r) (matchColumn first name) =
        r[i]?.getD .null := by
  have hi : i < left.columns.length := (List.getElem?_eq_some_iff.1 ho).1
  have hmem : (o, name) ∈ left.columns.zip (left.matchNames first) :=
    List.mem_of_getElem? (List.getElem?_zip_eq_some.2 ⟨ho, hname⟩)
  have hcontains := Scalar.columns_of_conjunction? hcolumns _ (List.mem_map_of_mem hmem)
  rw [columns_sameValue] at hcontains
  obtain ⟨f, hf, hanswers⟩ := getElem?_distinctRows hleft ho
  obtain ⟨g, hg, hcolumn⟩ := hside.getElem?_fields hname
  have hlength := length_distinctRows hleft
  constructor
  · rw [Schema.read_of_answersTo (hcontains _ (by simp)) (i := i) (f := f) _ hanswers,
      List.getElem?_append_left (hl ▸ hi)]
    exact (List.getElem?_append_left (hlength ▸ hi)).trans hf
  · rw [Schema.read_of_answersTo (hcontains _ (by simp)) (i := left.columns.length + i) (f := g) _
      (hcolumn ▸ g.answersTo_column), ← hl, List.getElem?_append_right (Nat.le_add_right ..),
      Nat.add_sub_cancel_left]
    refine (List.getElem?_append_right (by omega)).trans ?_
    rw [hlength, Nat.add_sub_cancel_left]
    exact hg

theorem truth_matchConditions (ops : Operations) (env : Env) (hr : r.length = left.columns.length) :
    (∀ e ∈ Scalar.conjunction? (left.matchConditions first),
      (e.eval ops env (left.distinctRows.schema.merge kept.schema) (l ++ r)).truth = .true) ↔
      List.Forall₂ ops.Matches l r := by
  rw [Scalar.truth_conjunction?, matchConditions, List.forall_mem_map, List.forall₂_iff_get]
  simp only [truth_sameValue, List.get_eq_getElem]
  have hnames := left.length_matchNames first
  constructor
  · refine fun h => ⟨hl.trans hr.symm, fun i hi hi' => ?_⟩
    have ho := List.getElem?_eq_getElem (hl ▸ hi)
    have hname := List.getElem?_eq_getElem (hnames.trans hl.symm ▸ hi)
    obtain ⟨hleft, hright⟩ := read_match hleft hside hcolumns hl ho hname (r := r)
    have hmatches := h (_, _) (List.mem_of_getElem? (List.getElem?_zip_eq_some.2 ⟨ho, hname⟩))
    rw [hleft, hright] at hmatches
    simpa [hi, hi'] using hmatches
  · rintro ⟨-, h⟩ ⟨o, name⟩ hentry
    obtain ⟨i, hentry⟩ := List.mem_iff_getElem?.1 hentry
    obtain ⟨ho, hname⟩ := List.getElem?_zip_eq_some.1 hentry
    have hi : i < left.columns.length := (List.getElem?_eq_some_iff.1 ho).1
    obtain ⟨hleft, hright⟩ := read_match hleft hside hcolumns hl ho hname (r := r)
    rw [hleft, hright, List.getElem?_eq_getElem (hl ▸ hi), List.getElem?_eq_getElem (hr ▸ hi)]
    exact h i (hl ▸ hi) (hr ▸ hi)

end

end QueryPlan

theorem Plan.matched_perm (rt : Runtime) (env : Env) (left right : Plan)
    (conditions : List Scalar) :
    let both := Plan.join left right (QueryPlan.matchJoin conditions false)
    let only := Plan.join left right (QueryPlan.matchJoin conditions true)
    (∀ row ∈ both.matched rt env, row ∉ only.matched rt env) ∧
      (both.matched rt env ++ only.matched rt env).Perm (left.rows rt env) := by
  let found (l : Row) : Bool := (right.rows rt env).any
    ((QueryPlan.matchJoin conditions false).admits rt.toOperations env left.schema right.schema l)
  have hboth : (Plan.join left right (QueryPlan.matchJoin conditions false)).matched rt env =
      (left.rows rt env).filter found := List.filter_congr fun l _ => Bool.bne_false _
  have honly : (Plan.join left right (QueryPlan.matchJoin conditions true)).matched rt env =
      (left.rows rt env).filter (!found ·) := List.filter_congr fun l _ => Bool.bne_true _
  dsimp only
  rw [hboth, honly]
  refine ⟨fun row hrow hrow' => ?_, List.filter_append_perm _ _⟩
  have hnone := (List.mem_filter.1 hrow').2
  simp [(List.mem_filter.1 hrow).2] at hnone

/-- An intersection and a difference that split the distinct rows of a query. Their conditions are
TRUE for rows that hold the same values, and where one has a row the other has not. -/
structure Plan.Splits (rt : Runtime) (env : Env) (q : QueryPlan) (kept : Plan)
    (semi anti : JoinSpec) (both only : Plan) : Prop where
  intersection : both = .join q.distinctRows kept semi
  difference : only = .join q.distinctRows kept anti
  condition : anti.condition = semi.condition
  isSome : q.columns ≠ [] → semi.condition.isSome
  truth : ∀ l r : Row, l.length = q.columns.length → r.length = q.columns.length →
    ((∀ e ∈ semi.condition, (e.eval rt.toOperations env (q.distinctRows.schema.merge kept.schema)
      (l ++ r)).truth = .true) ↔ List.Forall₂ rt.Matches l r)
  disjoint : ∀ row ∈ both.matched rt env, row ∉ only.matched rt env
  perm : (both.matched rt env ++ only.matched rt env).Perm (q.distinctRows.rows rt env)

namespace QueryBinder

/-- An intersection and a difference of the same two queries split the distinct rows of the left
one, if the columns of their condition can be told apart. -/
theorem matching_splits (rt : Runtime) (env : Env) {b : QueryBinder}
    {quantifier : Sql.SetQuantifier}
    {left right : Sql.SetExpr Sql.Query} {outer : List Level} {c : BindContext}
    {s s₁ s₂ : BindState} {both only : BoundQuery}
    (hboth : (b.matching .intersect quantifier left right outer).start c s = (.ok both, s₁))
    (honly : (b.matching .except quantifier left right outer).start c s = (.ok only, s₂))
    (hcolumns : both.plan.root.tellsApart) :
    ∃ operand s₃ kept semi anti, (b.body left outer).start c s = (.ok operand, s₃) ∧
      Plan.Splits rt env operand.plan kept semi anti both.plan.root only.plan.root := by
  obtain ⟨-, hboth⟩ := exists_of_start_check hboth
  obtain ⟨operand, s₃, hoperand, hboth⟩ := exists_of_start_bind hboth
  obtain ⟨other, s₄, hother, hboth⟩ := exists_of_start_bind hboth
  obtain ⟨-, honly⟩ := exists_of_start_check honly
  obtain ⟨_, _, hsame, honly⟩ := exists_of_start_bind honly
  cases hoperand.symm.trans hsame
  obtain ⟨_, _, hsame, honly⟩ := exists_of_start_bind honly
  cases hother.symm.trans hsame
  -- both join the same rows
  rw [QueryPlan.matching_eq] at hboth honly
  obtain ⟨plan, s₅, hplan, hboth⟩ := exists_of_start_bind hboth
  cases hboth
  obtain ⟨⟨kept, conditions⟩, s₆, hside, hplan⟩ := exists_of_start_bind hplan
  cases hplan
  obtain ⟨plan, s₇, hplan, honly⟩ := exists_of_start_bind honly
  cases honly
  obtain ⟨_, _, hsame, hplan⟩ := exists_of_start_bind hplan
  cases hside.symm.trans hsame
  cases hplan
  obtain ⟨rfl, hleft, columns, hside⟩ := QueryPlan.exists_of_matchSide hside
  simp only [Plan.tellsApart, QueryPlan.matchJoin, Option.all_eq_true, List.all_eq_true] at hcolumns
  obtain ⟨hdisjoint, hperm⟩ := Plan.matched_perm rt env operand.plan.distinctRows kept
    (operand.plan.matchConditions s₄.names.exprs)
  refine ⟨operand, s₃, kept, _, _, hoperand, rfl, rfl, rfl, fun hne =>
    ?_, fun l r hl hr => ?_, hdisjoint, hperm⟩
  · cases hwidth : operand.plan.columns with
    | nil => exact absurd hwidth hne
    | cons o rest =>
      simp [QueryPlan.matchJoin, QueryPlan.matchConditions, QueryPlan.matchNames,
        hwidth, List.range'_succ, Scalar.conjunction?]
  · exact QueryPlan.truth_matchConditions hleft hside hcolumns hl rt.toOperations env hr

def operandsOf? (text : String) : Option (Sql.SetExpr Sql.Query × Sql.SetExpr Sql.Query) :=
  match queryOf? text with
  | some q => match q.body with
    | .operation _ _ left right => some (left, right)
    | _ => none
  | none => none

def combined (op : Sql.SetOp) (operands : Sql.SetExpr Sql.Query × Sql.SetExpr Sql.Query) :
    BindM BoundQuery :=
  (ofDepth 3).matching op .none operands.1 operands.2 []

def turnedAccounts : String :=
  "SELECT accountid, name FROM account EXCEPT SELECT name, accountid FROM account"

def twoAccounts : Runtime :=
  .ofTables fun _ => [[.text "a", .null], [.text "b", .text "c"]]

theorem turnedAccounts_splits : ∃ operands both only s₁ s₂,
    operandsOf? turnedAccounts = some operands ∧
    (combined .intersect operands).start accounts { session := .empty } = (.ok both, s₁) ∧
    (combined .except operands).start accounts { session := .empty } = (.ok only, s₂) ∧
    both.plan.root.tellsApart ∧
    ∃ operand s₃ kept semi anti,
      ((ofDepth 3).body operands.1 []).start accounts { session := .empty } = (.ok operand, s₃) ∧
      Plan.Splits twoAccounts .empty operand.plan kept semi anti both.plan.root only.plan.root := by
  have h : (operandsOf? turnedAccounts).any fun operands =>
      ((combined .intersect operands).start accounts { session := .empty }).1.toOption.isSome &&
      ((combined .except operands).start accounts { session := .empty }).1.toOption.isSome &&
      ((combined .intersect operands).value accounts
        { session := .empty }).plan.root.tellsApart := by
    decide +kernel
  obtain ⟨operands, hoperands, h⟩ := (Option.any_eq_true ..).1 h
  simp only [Bool.and_eq_true] at h
  obtain ⟨⟨hboth, honly⟩, hcolumns⟩ := h
  have hboth := start_eq_value hboth
  have honly := start_eq_value honly
  exact ⟨operands, _, _, _, _, hoperands, hboth, honly, hcolumns,
    matching_splits twoAccounts .empty hboth honly hcolumns⟩

def repeatedNames : String :=
  "SELECT name, name FROM account EXCEPT SELECT name, name FROM account"

/-- Rows with the same values do not match where a column of the left query is listed twice. -/
theorem repeatedNames_miss : ∃ operands both s' p kept spec e,
    operandsOf? repeatedNames = some operands ∧
    (combined .intersect operands).start accounts { session := .empty } = (.ok both, s') ∧
    both.plan.root.join? = some (p, kept, spec) ∧ spec.condition = some e ∧
    (e.eval twoAccounts.toOperations .empty (p.schema.merge kept.schema)
      [.text "c", .text "c", .text "c", .text "c"]).truth = .unknown := by
  have h : (operandsOf? repeatedNames).any fun operands =>
      ((combined .intersect operands).start accounts { session := .empty }).1.toOption.isSome &&
      (((combined .intersect operands).value accounts { session := .empty }).plan.root.join?.any
        fun join => join.2.2.condition.any fun e => (e.eval twoAccounts.toOperations .empty
          (join.1.schema.merge join.2.1.schema)
          [.text "c", .text "c", .text "c", .text "c"]).truth == .unknown) := by
    decide +kernel
  obtain ⟨operands, hoperands, h⟩ := (Option.any_eq_true ..).1 h
  simp only [Bool.and_eq_true] at h
  obtain ⟨hboth, h⟩ := h
  obtain ⟨join, hjoin, h⟩ := (Option.any_eq_true ..).1 h
  obtain ⟨e, he, h⟩ := (Option.any_eq_true ..).1 h
  exact ⟨operands, _, _, join.1, join.2.1, join.2.2, e, hoperands, start_eq_value hboth, hjoin, he,
    eq_of_beq h⟩

end QueryBinder

end BatchPlan
