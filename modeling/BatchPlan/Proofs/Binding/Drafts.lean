import BatchPlan.Proofs.Binding.Queries
import BatchPlan.Proofs.Caching.Rebuild

namespace BatchPlan

variable {P : InsertTarget → Prop} {statement : Sql.Statement} {draft : BindM Draft}

/-- A plan of a statement, and the root that is made of it when it is finished. -/
structure Draft where
  plan : QueryPlan
  root : QueryPlan → RootNode

theorem QueryPlan.holds_finish {L : Logic} {w : L.World} {q : QueryPlan}
    {F : QueryPlan → L.World → Prop}
    (hints : Hints) (h : ∀ o root, q.root.Improved o root → F { q with root } w) :
    L.Holds w (q.finish hints) F := by
  refine L.consult (fun c => ?_) fun c c' hc => by rw [hc.options]
  refine .bind (F := fun root w' => w' = w ∧ q.root.Improved c.options root)
    (.counted (fun _ hroot => ⟨rfl, Plan.improved_of_ite hroot⟩) ⟨rfl, .inl rfl⟩) ?_
  rintro root _ _ ⟨rfl, hroot⟩
  exact .test (by simp) fun _ _ => .pure (h _ root hroot)

def Draft.finish (d : Draft) (hints : Hints) : BindM RootNode :=
  return d.root (← d.plan.finish hints)

namespace QueryBinder

section

variable (b : QueryBinder)

def valueDraft (e : Sql.Expr) (bind : Scope → Sql.Expr → BindM Scalar) : BindM QueryPlan := do
  let k ← b.subqueries [e] ⟨.oneRow, .empty⟩
  let (plan, source) ← k.plan.withColumn (← bind (k.withPlan k.plan).scope e)
  return ⟨plan, [⟨"", source⟩]⟩

def insertDraft (i : Sql.Insert) : BindM Draft := do
  let name := i.table.base
  let target ← InsertTarget.find name
  let columns ← target.listed name i.columns
  match i.source with
  | none => throw (.unsupported "INSERT ... DEFAULT VALUES")
  | some query =>
    let plan := (← b.query query []).plan
    if plan.columns.length != columns.length then
      throw (insertWidthError columns.length plan.columns.length)
    let schema := plan.schema
    (plan.columns.zip columns).forM fun (output, _, type) => do
      type.checkAssignable (← schema.resolve output.source).2.dataType
    return ⟨plan, .insert target.name (columns.map (·.1))⟩

def updateDraft (u : Sql.Update) : BindM Draft := do
  if u.source.isSome then throw (.refuse "UPDATE ... FROM" "Use a subquery in the WHERE clause")
  if u.returning.isSome then throw (.unsupported "UPDATE ... RETURNING")
  let rows ← b.changedRows u.table u.condition "UPDATE"
  let entity ← (← read).catalog.lookup rows.entity
  let targets ← updateTargets entity [] u.assignments
  let values := u.assignments.map (·.value)
  let k ← b.subqueries values rows.block
  let bound ← (values.zip targets).mapM fun (e, target) => k.scope.bindAssignment e target
  let plan : QueryPlan :=
    ⟨k.plan.define (bound.filterMap (·.2)), ⟨entity.primaryKey, rows.key⟩ :: bound.map (·.1)⟩
  return ⟨plan, .update rows.entity entity.primaryKey (targets.map (·.name))⟩

def deleteDraft (d : Sql.Delete) : BindM Draft := do
  if !d.tables.isEmpty || d.hasUsing then
    throw (.refuse "DELETE with multiple tables" "Use a subquery in the WHERE clause")
  match d.sources with
  | [table] =>
    let rows ← b.changedRows table d.condition "DELETE"
    return ⟨⟨rows.block.plan, [⟨rows.primaryKey, rows.key⟩]⟩, .delete rows.entity rows.primaryKey⟩
  | _ => throw (.refuse "DELETE from multiple tables" "Use a subquery in the WHERE clause")

/-- How the plan of a statement is made, if it has one. -/
def draft? : Sql.Statement → Option (BindM Draft)
  | .query q => some do return ⟨(← b.query q []).plan, .select⟩
  | .insert i => some (b.insertDraft i)
  | .update u => some (b.updateDraft u)
  | .delete d => some (b.deleteDraft d)
  | _ => none

theorem valuePlan_eq (e : Sql.Expr) (bind : Scope → Sql.Expr → BindM Scalar) :
    b.valuePlan e bind = b.valueDraft e bind >>= fun q => q.finish {} := by
  simp only [valuePlan, valueDraft, bind_assoc, pure_bind]

theorem insert_eq (hints : Hints) (i : Sql.Insert) :
    b.insert hints i = b.insertDraft i >>= fun d => d.finish hints := by
  unfold insert insertDraft
  cases i.source with
  | none =>
    simp only [bind_assoc]
    rfl
  | some query =>
    simp only [bind_assoc]
    refine bind_congr fun target => bind_congr fun columns => bind_congr fun bound => ?_
    split
    · rfl
    · simp only [bind_assoc, pure_bind]
      rfl

theorem update_eq (hints : Hints) (u : Sql.Update) :
    b.update hints u = b.updateDraft u >>= fun d => d.finish hints := by
  unfold update updateDraft
  dsimp only
  cases u.source.isSome with
  | true => rfl
  | false =>
    cases u.returning.isSome with
    | true => rfl
    | false =>
      simp only [Bool.false_eq_true, if_false, bind_assoc, pure_bind]
      rfl

theorem delete_eq (hints : Hints) (d : Sql.Delete) :
    b.delete hints d = b.deleteDraft d >>= fun d => d.finish hints := by
  unfold delete deleteDraft
  dsimp only
  cases !d.tables.isEmpty || d.hasUsing with
  | true => rfl
  | false =>
    rcases d.sources with _ | ⟨table, _ | _⟩
    · rfl
    · simp only [Bool.false_eq_true, if_false, bind_assoc, pure_bind]
      rfl
    · rfl

theorem statement_eq (h : b.draft? statement = some draft) (hints : Hints) :
    b.statement hints statement = do return [← (← draft).finish hints] := by
  cases statement with
  | query q =>
    cases h
    simp only [statement, Draft.finish, bind_assoc, pure_bind]
  | insert i =>
    cases h
    simp only [statement, insert_eq, bind_assoc]
  | update u =>
    cases h
    simp only [statement, update_eq, bind_assoc]
  | delete d =>
    cases h
    simp only [statement, delete_eq, bind_assoc]
  | _ => cases h

end

end QueryBinder

/-- The roots that are made of drafts. Rows are inserted into listed columns of a target that
satisfies `P`. -/
inductive Draft.Ends (P : InsertTarget → Prop) : (QueryPlan → RootNode) → Prop
  | select : Ends P .select
  | insert {t : InsertTarget} {name : String} {names : List Sql.Ident}
    {columns : List (String × DataType)}
    (ht : P t) (h : t.listed name names = .ok columns) : Ends P (.insert t.name (columns.map (·.1)))
  | update (entity key : String) (columns : List String) : Ends P (.update entity key columns)
  | delete (entity key : String) : Ends P (.delete entity key)

theorem Draft.Ends.plan? {root : QueryPlan → RootNode} (h : Ends P root) (plan : QueryPlan) :
    (root plan).plan? = some plan := by
  cases h <;> rfl

variable {L : Logic} {w : L.World}

theorem InsertTarget.stays_find (w : L.World) (name : String) :
    L.Stays w (InsertTarget.find name) fun _ => True := by
  unfold find
  split
  next hname => exact Logic.Stays.next (L.tempTable w name hname) fun _ _ => .pure ⟨rfl, trivial⟩
  · exact L.consult (fun _ => .test (by simp) fun _ _ => .pure ⟨rfl, trivial⟩) fun _ _ h => by
      simp only [h.catalog]

theorem holds_bindThrow (args : Sql.ThrowArguments) :
    L.Holds w (bindThrow args) fun plan w' => L.Rows w w' plan.root := by
  have hargument (w : L.World) (name : String) (numeric : Bool) (e : Sql.Expr) :
      L.Holds w (bindThrowArgument name numeric e) fun r w' => ∀ d ∈ r.2, L.Defines w' .empty d :=
    (Scope.holds_bindChecked (Scope.fits_empty w) e).bind fun _ _ _ hbound =>
      .test (by simp) fun _ _ =>
      .check (by simp) fun _ => (Scalar.holds_asColumn hbound _).bind fun (_, _) _ _ h => .pure h.2
  refine (hargument w _ _ _).bind fun number w₁ h₁ hnumber =>
    (hargument w₁ _ _ _).bind fun message w₂ h₂ hmessage =>
    (hargument w₂ _ _ _).bind fun state w₃ h₃ hstate => .pure ?_
  have hall : ∀ r ∈ [number, message, state], ∀ d ∈ r.2, L.Defines w₃ .empty d := by
    simp only [List.forall_mem_cons, List.not_mem_nil, false_implies, implies_true, and_true]
    exact ⟨fun d hd => (hnumber d hd).later (le_trans h₂ h₃), fun d hd =>
      (hmessage d hd).later h₃, hstate⟩
  have hvalues : ∀ d ∈ [number, message, state].filterMap (·.2), L.Defines w₃ .empty d := by
    intro d hd
    obtain ⟨r, hr, hd⟩ := List.mem_filterMap.1 hd
    exact hall r hr d hd
  exact (Account.shows_oneRow (le_trans h₁ (le_trans h₂ h₃))).rows.above rfl rfl
    (List.forall_mem_map.2 fun d hd => (hvalues d hd).value) fun hst d hd =>
    ((hvalues d hd).checks hst).records

/-- A draft with its rows. -/
structure Draft.Fits (P : InsertTarget → Prop) (d : Draft) (A : Account) (a w : A.World) :
    Prop where
  rows : A.Rows a w d.plan.root
  ends : Draft.Ends P d.root

namespace QueryBinder

variable (hL : L.Roams) {b : QueryBinder} (hb : L.Binds b)

include hL hb

theorem holds_valueDraft (e : Sql.Expr) {bind : Scope → Sql.Expr → BindM Scalar}
    (hbind : ∀ {s : Scope} {w : L.World}, s.Fits L.toAccount w →
      L.Holds w (bind s e) fun value w' => L.Value w' value) :
    L.Holds w (b.valueDraft e bind) fun plan w' => L.Rows w w' plan.root := by
  have hstart : Block.Fits ⟨.oneRow, .empty⟩ L.toAccount w w :=
    ⟨Account.shows_oneRow (le_refl w), Scope.fits_empty w, fun _ => rfl⟩
  refine (holds_subqueries (serves hL hb) hstart fun _ _ _ _ => trivial).bind fun k w₁ _ hk =>
    (hbind (Block.Fits.withPlan hk.scope hk.plan).scope).bind fun _ w₂ h₂ hvalue =>
    (Plan.holds_withColumn hvalue k.plan).bind
      fun (_, _) w₃ h₃ ⟨values, hplan, hvalues, _⟩ => .pure ?_
  dsimp only at hplan
  subst hplan
  exact ((hk.later h₂).later h₃).plan.rows.define (fun d hd => (hvalues d hd).2.value)
    fun d hd => (hvalues d hd).2

theorem holds_changedRows (s : Sql.Source Sql.Query) (condition : Option Sql.Expr)
    (statement : String) :
    L.Holds w (b.changedRows s condition statement) fun rows w' =>
      rows.block.Fits L.toAccount w w' := by
  refine .test (by simp) fun (name, tableAlias) _ => .check (by simp) fun _ =>
    (holds_namedTable hL hb name tableAlias).bind fun source w₁ _ hsource => ?_
  have hblock : Block.Fits ⟨source.plan, { schema := source.plan.schema, tables := source.tables }⟩
      L.toAccount w w₁ :=
    ⟨hsource, ⟨L.sees_nil w₁, nofun, hsource.names⟩, fun _ => rfl⟩
  split
  · split
    · exact .throw (by simp)
    · dsimp only
      split
      · exact (holds_restrict (serves hL hb) hblock fun _ _ => trivial).bind fun _ _ _ h => .pure h
      · rw [pure_bind]
        exact .pure hblock
  · exact .throw (by simp)

theorem holds_draft (hfind : ∀ (w : L.World) (name : String), L.Stays w (InsertTarget.find name) P)
    (h : b.draft? statement = some draft) :
    L.Holds w draft fun d w' => d.Fits P L.toAccount w w' := by
  cases statement with
  | query q =>
    cases h
    exact (hb.query q (L.around_nil w)).bind fun _ _ _ h => .pure ⟨h.top, .select⟩
  | insert i =>
    cases h
    refine (hfind w _).next fun target htarget => .test (by simp) fun columns hcolumns => ?_
    split
    · exact .throw (by simp)
    · exact (hb.query _ (L.around_nil w)).bind fun bound w₁ _ hbound => .check (by simp) fun _ =>
        .bind (.forM (S := fun _ => True) fun _ _ _ _ => .test (by simp) fun _ _ =>
          .lift (by simp) fun _ _ => trivial)
        fun _ _ h₂ _ => .pure ⟨hbound.top.later h₂, .insert htarget hcolumns⟩
  | update u =>
    cases h
    refine .check (by simp) fun _ => .check (by simp) fun _ => (holds_changedRows hL hb _ _ _).bind
      fun rows w₁ _ hrows => L.consult (fun c => ?_) fun _ _ h => by simp only [h.catalog]
    refine .test (by simp) fun entity _ => .test (by simp) fun targets _ =>
      (holds_subqueries (serves hL hb) hrows fun _ _ _ _ => trivial).bind fun k w₂ _ hk => ?_
    have hassignment (r : Sql.Expr × Attribute) (w' : L.World) (hw : w₂ ≤ w') :
        L.Holds w' (k.scope.bindAssignment r.1 r.2) fun r w'' =>
          ∀ d ∈ r.2, L.Defines w'' k.plan.schema d :=
      (Scope.holds_bindChecked (hk.later hw).scope _).bind fun _ _ _ hbound =>
        .test (by simp) fun _ _ =>
        .test (by simp) fun _ _ => (Scalar.holds_asColumn hbound _).bind fun (_, _) _ _ h =>
        .pure fun d hd => (h.2 d hd).of_eq hk.schema
    refine .bind (.mapM (fun hw h d hd => (h d hd).later hw) fun r _ w' hw => hassignment r w' hw)
      fun bound w₃ h₃ hbound => .pure ?_
    have hdefinitions : ∀ d ∈ bound.filterMap (·.2), L.Defines w₃ k.plan.schema d := by
      intro d hd
      obtain ⟨r, hr, hd⟩ := List.mem_filterMap.1 hd
      exact hbound r hr d hd
    exact ⟨(hk.later h₃).plan.rows.define (fun d hd => (hdefinitions d hd).value) hdefinitions,
      .update _ _ _⟩
  | delete d =>
    cases h
    refine .check (by simp) fun _ => ?_
    split
    · exact (holds_changedRows hL hb _ _ _).bind fun _ _ _ h => .pure ⟨h.plan.rows, .delete _ _⟩
    · exact .throw (by simp)
  | _ => cases h

variable (hfinish : ∀ {a w : L.World} {q : QueryPlan} (hints : Hints), L.Rows a w q.root →
  L.Holds w (q.finish hints) fun plan w' => L.Rows a w' plan.root)

include hfinish

theorem holds_value (e : Sql.Expr) : L.Holds w (b.value e) fun plan w' =>
    L.Rows w w' plan.root := by
  rw [value, valuePlan_eq]
  exact (holds_valueDraft hL hb e fun hs => Scope.holds_bindChecked hs e).bind
    fun _ _ _ h => hfinish _ h

theorem holds_condition (e : Sql.Expr) :
    L.Holds w (b.condition e) fun plan w' => L.Rows w w' plan.root := by
  rw [condition, valuePlan_eq]
  exact (holds_valueDraft hL hb e fun hs => Scope.holds_bindPredicate hs e).bind
    fun _ _ _ h => hfinish _ h

theorem holds_assignedValue (target : DataType) (e : Sql.Expr) :
    L.Holds w (b.assignedValue target e) fun plan w' => L.Rows w w' plan.root :=
  (holds_value hL hb hfinish e).bind fun _ _ _ h => .test (by simp) fun _ _ =>
    .test (by simp) fun _ _ => .pure h

theorem holds_finishedDraft (hfind : ∀ (w : L.World) (name : String),
    L.Stays w (InsertTarget.find name) P) (hints : Hints) (h : b.draft? statement = some draft) :
    L.Holds w (draft >>= fun d => d.finish hints) fun node w' => ∃ root plan, Draft.Ends P root ∧
      node = root plan ∧ L.Rows w w' plan.root :=
  (holds_draft hL hb hfind h).bind fun d _ _ hd =>
  (hfinish hints hd.rows).bind fun plan _ _ hplan =>
    .pure ⟨d.root, plan, hd.ends, rfl, hplan⟩

end QueryBinder

end BatchPlan
