import BatchPlan.Proofs.Binding.Clauses

namespace BatchPlan

variable {levels outer : List Level}

namespace Sql

variable {Q : Type}

def ExprOf.query? : ExprOf Q → Option Q
  | .subquery q | .exists q _ | .inQuery _ q _ => some q
  | _ => none

/-- The outermost queries in an expression. -/
def ExprOf.queries (e : ExprOf Q) : List Q :=
  (e.outermost ExprOf.isSubquery).filterMap ExprOf.query?

/-- The tables that a source names, calls of table functions apart. -/
def Source.tables : Source Q → List ObjectName
  | .table name args _ _ => match args with
    | .list .. => []
    | _ => [name]
  | .join left _ right _ _ => left.tables ++ right.tables
  | .nested inner _ => inner.tables
  | .derived .. | .other _ => []

def Source.queries : Source Q → List Q
  | .derived _ query _ => [query]
  | .join left _ right _ _ => left.queries ++ right.queries
  | .nested inner _ => inner.queries
  | .table .. | .other _ => []

/-- The expressions of a block that may hold subqueries, those of its order apart. -/
def Select.queryExprs (s : Select Query) : List Expr :=
  s.condition.toList ++ s.having.toList ++ s.exprs

def Select.tables (s : Select Query) : List ObjectName :=
  s.sources.flatMap Source.tables

def Select.queries (s : Select Query) : List Query :=
  s.sources.flatMap Source.queries ++ s.queryExprs.flatMap ExprOf.queries

end Sql

/-- A binder of nested queries that a logic vouches for: those that `A` admits and the tables that
`T` admits. -/
structure Logic.Serves (L : Logic) (b : QueryBinder) (A : Sql.Query → Prop)
    (T : Sql.ObjectName → Prop) : Prop where
  query : ∀ {w : L.World} {q : Sql.Query} {levels : List Level}, A q → L.Around w levels →
    L.Holds w (b.query q levels) fun bound w' => L.Answers w w' levels bound
  table : ∀ {w : L.World} {name : Sql.ObjectName} (tableAlias : Option Sql.TableAlias), T name →
    L.Holds w (b.namedTable name tableAlias) fun r w' => L.Shows w w' r.plan

variable {L : Logic} {a m w : L.World}

theorem stays_bindStored (w : L.World) (name : Sql.ObjectName) (relation : String) :
    L.Stays w (bindStored name relation) L.Stored := by
  refine .ite (fun htemporary => Logic.Stays.next (L.tempTable w _ htemporary)
    fun _ ht => .pure ⟨rfl, ht relation⟩) fun _ => ?_
  split
  next => exact .throw (by simp)
  next source hsource =>
    refine L.consult (fun _ => .test (by simp) fun e _ => .test (by simp) fun _ _ =>
      .pure ⟨rfl, L.entity e relation ?_⟩) fun _ _ h => by simp only [h.catalog]
    rintro rfl
    unfold ScanSource.ofSchema? at hsource
    split at hsource
    · cases hsource
    · split at hsource <;> cases hsource

theorem holds_bindTableCall (name : Sql.ObjectName) (args : List (Sql.Argument Sql.Expr))
    (tableAlias : Option Sql.TableAlias) (h : L.Feeds w levels) :
    L.Holds w (bindTableCall name args tableAlias levels) fun r w' => L.Shows w w' r.plan := by
  have harg (function : String) (a : Sql.Argument Sql.Expr) {w : L.World} (h : L.Sees w levels) :
      L.Holds w (bindTableArgument (.ofSchema .empty levels) function a)
        fun e w' => L.Value w' e := by
    unfold bindTableArgument
    split
    · exact Scope.holds_bindChecked (Scope.fits_ofEmpty h) _
    · exact .throw (by simp)
  unfold bindTableCall
  dsimp only
  split
  · exact .throw (by simp)
  · refine (L.enclosed (.mapM (fun hw h => h.later hw) fun a _ _ hw =>
      harg _ a (L.sees_later hw (L.sees_inside [] (L.around_of_feeds h))))).bind
      fun (_, _) w₁ h₁ ⟨hargs, howned⟩ => (L.absorb (L.feeds_later h₁ h) howned).bind
        fun _ w₂ h₂ habsorbed =>
      (Logic.stays_mapM (H := fun _ => True) fun _ _ =>
        .lift (by simp) fun _ _ => ⟨rfl, trivial⟩).next
      fun _ _ => .test (by simp) fun _ _ => .pure ⟨L.rows_leaf (le_trans h₁ h₂) rfl rfl nofun ?_
        fun _ => trivial, fun _ => List.forall_mem_singleton.2 (Ledger.gives_qualified _ _)⟩
    exact fun e he => habsorbed.1 e (hargs e he)

namespace Relation

variable {left right : Relation} (hleft : L.Shows a m left.plan) (hm : m ≤ w)

include hleft hm

theorem holds_joinOn (hright : L.Shows m w right.plan) (type : JoinType)
    (condition : Option Sql.Expr) (h : L.Feeds w levels) :
    L.Holds w (left.joinOn right type condition levels) fun r w' => L.Shows a w' r.plan := by
  have hjoin {outer inner : Plan} (hsides : L.Sides a w outer inner) (type : JoinType) :
    L.Holds w (do
        let predicate ← condition.mapM fun e => do
          let r ← BindM.enclosed
            ((Scope.ofSchema (outer.schema.merge inner.schema) levels).bindPredicate e)
          BindM.absorb r.2
          return r.1
        let plan ← outer.joined inner type predicate
        return (⟨plan, left.tables ++ right.tables⟩ : Relation)) fun r w' =>
          L.Shows a w' r.plan := by
    have hscope : (Scope.ofSchema (outer.schema.merge inner.schema) levels).Fits L.toAccount
        (L.inside (L.query levels) [] w) := by
      refine Scope.fits_ofSchema (L.sees_inside [] (L.around_of_feeds h)) fun hst => ?_
      rw [L.ledger_inside]
      exact List.forall_mem_append.2 ⟨hsides.left hst, hsides.right hst⟩
    exact .bind (.optionMapM fun e _ => (L.enclosed (Scope.holds_bindPredicate hscope e)).bind
      fun r w₁ h₁ hr =>
        (L.absorb (L.feeds_later h₁ h) hr.2).bind fun _ _ _ habsorbed => .pure (habsorbed.1 _ hr.1))
      fun predicate w₁ h₁ hpredicate => (Plan.holds_joined (hsides.later h₁) _ hpredicate).bind
      fun _ _ _ h => .pure h
  have hsides := hleft.sides hright hm
  -- a right outer join has its sides the other way round
  unfold Relation.joinOn
  by_cases htype : type = .rightOuter
  · simp only [htype]
    exact hjoin hsides.symm _
  · simp only [htype]
    exact hjoin hsides _

theorem holds_cross (hright : L.Shows m w right.plan) :
    L.Holds w (left.cross right) fun r w' => L.Shows a w' r.plan :=
  (Plan.holds_loop (hleft.sides hright hm) .inner none nofun).bind fun _ _ _ h => .pure h

theorem holds_apply {v : L.View} (type : JoinType) {captured : List Captured}
    (hright : L.Shows (L.inside v captured m) (L.inside v captured w) right.plan)
    (hsets : L.strict → ∀ e ∈ captured, (L.ledger w).Sets left.plan.schema e.binding) :
    L.Holds w (left.apply right type captured) fun r w' => L.Shows a w' r.plan := by
  have hleft' := (hleft.later hm).names
  have hnames := hright.names
  rw [L.ledger_inside] at hnames
  refine .ite (fun h => ?_) fun _ =>
    .pure (.join (L.rows_loop hleft.rows hright.rows rfl nofun fun hst => ?_) hleft'
    (fun hst _ => hnames hst) nofun)
  · have hright := L.rows_uncorrelated hright.rows (by simpa using ((Bool.and_eq_true _ _).mp h).2)
    exact (Plan.holds_loop ⟨L.pair hleft.rows hright, hleft', hnames⟩ type none nofun).bind
      fun _ _ _ h => .pure h
  · exact ⟨.loop rfl (List.forall_mem_map.2 (hsets hst)) nofun, nofun⟩

end Relation

theorem Plan.resolve_summary {p : Plan} {v : AggregateValue} {values : List AggregateValue}
    (hv : v ∈ values)
    {found : Nat × Field} (h : (p.summary values).schema.resolve (.bare v.name) = .ok found) :
    found.2.dataType = v.dataType := by
  have hmem : AggregateValue.field v ∈ (p.summary values).schema.fields :=
    List.mem_append_right _ (List.mem_map_of_mem hv)
  rw [Schema.resolve_column (f := AggregateValue.field v) hmem h]
  rfl

namespace QueryBinder

variable {b : QueryBinder} {A : Sql.Query → Prop} {T : Sql.ObjectName → Prop} (hb : L.Serves b A T)

include hb

theorem holds_source (source : Sql.Source Sql.Query) (h : L.Feeds w levels)
    (hA : ∀ q ∈ source.queries, A q) (hT : ∀ t ∈ source.tables, T t) :
    L.Holds w (b.source levels source) fun r w' => L.Shows w w' r.plan := by
  induction source generalizing w levels with
  | table name args tableAlias _ =>
    unfold source
    unfold Sql.Source.tables at hT
    split
    · exact holds_bindTableCall _ _ _ h
    · split at hT
      · simp_all
      · exact hb.table tableAlias (hT name (by simp))
  | derived _ query tableAlias =>
    unfold source
    split
    · exact .throw (by simp)
    · exact (hb.query (hA query (by simp [Sql.Source.queries])) (L.around_of_feeds h)).bind
        fun _ w₁ h₁ hbound => (L.absorb (L.feeds_later h₁ h) hbound.owned).bind
          fun _ w₂ _ habsorbed =>
        .lift (by simp) fun _ => QueryPlan.shows_named (habsorbed.2 w _ hbound.rows)
  | nested inner tableAlias ih =>
    unfold source
    exact .ite (fun _ => .throw (by simp)) fun _ => ih h hA hT
  | join left kind right form condition ihl ihr =>
    rw [Sql.Source.queries, List.forall_mem_append] at hA
    rw [Sql.Source.tables, List.forall_mem_append] at hT
    unfold source
    refine (ihl h hA.1 hT.1).bind fun left w₁ h₁ hleft => ?_
    have h := L.feeds_later h₁ h
    have happly (type : JoinType) : L.Holds w₁ (BindM.enclosed
        (b.source ({ schema := left.plan.schema } :: levels) right) >>= fun r =>
          left.apply r.1 type r.2) fun r w' => L.Shows w w' r.plan := by
      refine (L.enclosed (ihr (L.feeds_apply _ [] h) hA.2 hT.2)).bind fun r w₂ h₂ hr =>
        Relation.holds_apply hleft h₂ _ ⟨L.rows_more (List.Subset.refl _) hr.1.rows, hr.1.names⟩
          fun hst e he => ?_
      obtain ⟨hvisible | hvisible, htypes⟩ := L.lends_apply hst (hr.2 e he)
      · exact ⟨e.dataType, htypes, Schema.passes_of_offers (.refl _) hvisible⟩
      · exact ⟨e.dataType, htypes, Schema.passes_of_hides hvisible.1 _⟩
    have hjoin (type : JoinType) :
        L.Holds w₁ (liftM (checkConstraint form.constraint condition) >>= fun _ =>
          b.source levels right >>= fun right => left.joinOn right type condition levels)
          fun r w' => L.Shows w w' r.plan :=
      .test (by simp) fun _ _ => (ihr h hA.2 hT.2).bind fun _ _ hw hright =>
        Relation.holds_joinOn hleft hw hright _ _ (L.feeds_later hw h)
    cases kind with
    | inner | left | right | full => exact hjoin _
    | cross =>
      exact (ihr h hA.2 hT.2).bind fun _ _ hw hright => Relation.holds_cross hleft hw hright
    | crossApply | outerApply => exact happly _
    | leftSemi | rightSemi | leftAnti | rightAnti | nearest => exact .throw (by simp)
  | other form =>
    unfold source
    exact .throw (by simp)

theorem holds_sources {sources : List (Sql.Source Sql.Query)} (h : L.Feeds w levels)
    (hA : ∀ s ∈ sources, ∀ q ∈ s.queries, A q) (hT : ∀ s ∈ sources, ∀ t ∈ s.tables, T t) :
    L.Holds w (b.sources levels sources) fun r w' => L.Shows w w' r.plan := by
  cases sources with
  | nil => exact .pure (Account.shows_oneRow (le_refl w))
  | cons first rest =>
    rw [List.forall_mem_cons] at hA hT
    exact (holds_source hb first h hA.1 hT.1).bind fun _ w₁ h₁ hfirst => .foldlM hfirst
      fun _ w₂ h₂ hleft s hs => (holds_source hb s (L.feeds_later (le_trans h₁ h₂) h) (hA.2 s hs)
        (hT.2 s hs)).bind fun _ _ h₃ h => Relation.holds_cross hleft h₃ h

section

variable {k : Block} (hk : k.Fits L.toAccount a w) {inner : InnerQuery} {plan : Plan}
variable {query : Sql.Query} {name : String}

include hk

omit hb in
theorem around_levels : L.Around w k.scope.levels :=
  L.around_of_sees _ hk.scope.outer

omit hb in
/-- The columns of a row that a subquery reads are set from the row, also if it gets more
columns. -/
theorem sets_levels {left : Plan} (hleft : k.plan.schema.Extends left.schema)
    {ledger : Ledger} (hst : L.strict)
    (e : Captured) (he : ledger.Lends (Visible k.scope.levels 0) e) :
    ledger.Sets left.schema e.binding :=
  ⟨e.dataType, he.2, Schema.passes_of_offers (l := k.scope.toLevel) (hk.schema hst ▸ hleft) he.1⟩

omit hb hk in
theorem defines_foundFlag (hname : L.Coins w name) (s : Schema) :
    ∀ d ∈ [foundFlag name], L.Defines w s d :=
  List.forall_mem_singleton.2 (Account.defines_literal (v := .int32 1) rfl rfl hname)

theorem holds_exists_ (hq : A query) (negated : Bool) :
    L.Holds w (b.exists_ query negated k) fun r w' => L.Shows a w' r.1 ∧ L.Value w' r.2 := by
  refine (hb.query hq (around_levels hk)).bind fun bound w₁ h₁ hbound => (L.freshExpr w₁).bind
    fun flag w₂ h₂ hflag =>
      (InnerQuery.holds_joinTo hk.plan.rows (hk.plan.later (le_trans h₁ h₂)).names
      ((hbound.inner.later h₂).above rfl rfl ?_ (fun _ => ?_) fun h => ?_)
      (sets_levels hk (.refl _)) (by simp) (defines_foundFlag hflag.coins _)).bind
    fun _ _ h₃ hplan => .pure ⟨hplan.1, ?_⟩
  · exact List.forall_mem_singleton.2 (Account.value_literal _)
  · trivial
  · simpa [Scalar.int, InnerQuery.ofBound] using h
  · have hflag := (hflag.coins.later h₃).gives
    cases negated <;> simp [Scalar.isNull, Scalar.isNotNull, hflag]

omit hb hk in
theorem holds_membership (hplan : L.Rows a m plan)
    (hnames : L.strict → plan.schema.Named (L.ledger w)) (hinner : L.Inner m w levels inner)
    (hsets : L.strict → ∀ e, (L.ledger w).Lends (Visible levels 0) e →
      (L.ledger w).Sets plan.schema e.binding)
    {outerColumn innerColumn : Column} (houter : L.Gives w outerColumn)
    (hcolumn : L.Gives w innerColumn) (hname : L.Coins w name) :
    L.Holds w (membership inner plan outerColumn innerColumn [foundFlag name]) fun p w' =>
      L.Shows a w' p ∧ plan.schema.Extends p.schema := by
  have hflag (s : Schema) := defines_foundFlag hname s
  have hvalues : ∀ e ∈ [foundFlag name].map (·.expr), L.Value w e :=
    List.forall_mem_singleton.2 (Account.value_literal _)
  have hrecords (hst : L.strict) (s : Schema) : ∀ d ∈ [foundFlag name], d.Records s :=
    fun d hd => ((hflag s d hd).checks hst).records
  refine .ite (fun _ => ?_) fun hcorrelated => ?_
  · refine InnerQuery.holds_joinTo hplan hnames hinner hsets ?_ (hflag _)
    rintro _ ⟨⟩
    simp [Scalar.eq, houter, hcolumn]
  · have hroot := hinner.plain (Bool.eq_false_iff.2 hcorrelated)
    refine .ite (fun _ => .pure ?_) fun _ => .pure ?_
    · refine ⟨.join (L.rows_join (L.pair (hplan.ordered _) (hroot.ordered _)) rfl hvalues fun hst =>
        ⟨.keyed (.inl rfl) (hrecords hst _), ?_⟩) (fun hst => ?_) (fun _ h => absurd rfl h)
        (List.forall_mem_singleton.2 hname), (plan.extends_ordered _).trans (Plan.extends_join rfl)⟩
      · rintro l r ⟨⟩
        exact ⟨Plan.sortedBy_ordered _ _, Plan.sortedBy_ordered _ _⟩
      · exact (hnames hst).same (Plan.fields_ordered _ _)
    · have hdistinct : L.Rows m w (.distinct inner.root [innerColumn]) :=
        hroot.above rfl rfl (List.forall_mem_nil _) fun _ => trivial
      exact ⟨.join (L.rows_join (L.pair hplan hdistinct) rfl hvalues fun hst =>
        ⟨.keyed (.inr rfl) (hrecords hst _), by simp [Plan.MergesSorted]⟩) hnames
        (fun _ h => absurd rfl h) (List.forall_mem_singleton.2 hname), Plan.extends_join rfl⟩

omit hb hk in
theorem ofSingle_eq {bound : BoundQuery} (h : InnerQuery.ofSingle bound = .ok inner) :
    inner = .ofBound bound := by
  unfold InnerQuery.ofSingle at h
  split at h <;> cases h
  rfl

omit hb hk in
theorem exists_of_value {bound : BoundQuery} {c : Column}
    (h : (InnerQuery.ofBound bound).value = .ok c) : ∃ o ∈ bound.plan.columns, o.source = c := by
  unfold InnerQuery.value at h
  split at h
  next found hfound =>
    cases h
    obtain ⟨o, ho, rfl⟩ := Option.map_eq_some_iff.1 hfound
    exact ⟨o, List.mem_of_head? ho, rfl⟩
  next => cases h

/-- Rows with a value and a flag that says whether it was found. -/
structure Flags (L : Logic) (a w : L.World) (schema : Schema) (plan : Plan)
    (column : Column) (flag : Scalar) : Prop where
  shown : L.Shows a w plan
  gives : L.Gives w column
  value : L.Value w flag
  keeps : L.strict → schema.Extends plan.schema

theorem holds_flagged (e : Sql.Expr) (hq : A query) :
    L.Holds w (b.flagged e query k) fun found w' =>
      Flags L a w' k.plan.schema found.plan found.column found.flag := by
  refine (Scope.holds_bindChecked hk.scope e).bind fun bound w₁ h₁ he => ?_
  have hk := hk.later h₁
  refine (hb.query hq (around_levels hk)).bind fun _ w₂ h₂ hbound =>
    .test (by simp) fun inner hinner => ?_
  obtain rfl := ofSingle_eq hinner
  refine .test (by simp) fun column hcolumn => .ignore (by simp) fun _ _ =>
    .test (by simp) fun (_, _) _ =>
    L.consult (fun _ => .test (by simp) fun _ _ => (Plan.holds_withColumn (he.later h₂) k.plan).bind
      fun (_, outerColumn) w₃ h₃ hplan => (L.freshExpr w₃).bind fun name w₄ h₄ hname => ?_)
    fun _ _ h => by simp only [h.options]
  obtain ⟨values, rfl, hvalues, houter⟩ := hplan
  obtain ⟨o, ho, rfl⟩ := exists_of_value hcolumn
  have hextends := k.plan.extends_define values
  have hw := le_trans h₃ h₄
  have hplan : L.Rows a w₁ (k.plan.define values) :=
    hk.plan.rows.define (fun d hd => (hvalues d hd).1 ▸ he) fun d hd => (hvalues d hd).2
  have hnames (hst : L.strict) : (k.plan.define values).schema.Named (L.ledger w₄) :=
    Account.named_define ((hk.plan.later (le_trans h₂ hw)).names hst)
      (fun d hd => (hvalues d hd).2.later h₄) hst
  have hcolumn : L.Gives w₄ o.source := fun hst => (hbound.listed hst o ho).mono (L.ledger_later hw)
  have houter := houter.later h₄
  refine (holds_membership hplan hnames (hbound.inner.later hw)
    (sets_levels hk hextends) houter hcolumn hname.coins).bind fun _ _ h₅ hjoined =>
      .pure ⟨hjoined.1, houter.later h₅, ?_, fun _ => hextends.trans hjoined.2⟩
  exact Account.value_column.2 (hname.coins.later h₅).gives

theorem holds_notInWithNulls (hq : A query) {outerColumn : Column} {flag : Scalar}
    (hfound : Flags L a w k.plan.schema plan outerColumn flag) :
    L.Holds w (b.notInWithNulls query k plan outerColumn flag) fun r w' =>
      L.Shows a w' r.1 ∧ L.Value w' r.2 := by
  refine (hb.query hq (around_levels hk)).bind fun bound w₁ h₁ hbound =>
    .test (by simp) fun column hcolumn =>
    (L.freshExpr w₁).bind fun rows w₂ h₂ hrows => (L.freshExpr w₂).bind fun values w₃ h₃ hvalues =>
    (L.freshExpr w₃).bind fun rowsOut w₄ h₄ hrowsOut =>
    (L.freshExpr w₄).bind fun valuesOut w₅ h₅ hvaluesOut => ?_
  obtain ⟨o, ho, rfl⟩ := exists_of_value hcolumn
  have h₃₅ := le_trans h₄ h₅
  have h₁₅ := le_trans h₂ (le_trans h₃ h₃₅)
  have hw := le_trans h₁ h₁₅
  have hrows := hrows.coins.later (le_trans h₃ h₃₅)
  have hvalues := hvalues.coins.later h₃₅
  have hcounts : ∀ v ∈ [AggregateValue.rowCount rows, .valueCount values o.source],
      L.Sums w₅ bound.plan.root.schema v := by
    refine List.forall_mem_cons.2 ⟨Account.sums_rowCount hrows, List.forall_mem_singleton.2
      ⟨List.forall_mem_singleton.2 (Account.value_column.2 fun hst => ?_),
        fun hst s hs => ⟨fun _ _ => rfl, hvalues hst⟩⟩⟩
    exact (hbound.listed hst o ho).mono (L.ledger_later h₁₅)
  refine (InnerQuery.holds_joinTo hfound.shown.rows (hfound.shown.later hw).names
    ((hbound.inner.later h₁₅).above rfl rfl (Account.values_aggregate hcounts)
      (Account.records_aggregate hcounts) fun h => ?_)
    (fun hst => sets_levels hk (hfound.keeps hst) hst) (by simp)
    (List.forall_mem_cons.2 ⟨Account.defines_column hrows.gives (fun _ _ h => ?_)
      (hrowsOut.coins.later h₅),
      List.forall_mem_singleton.2 (Account.defines_column hvalues.gives (fun _ _ h => ?_)
        hvaluesOut.coins)⟩)).bind
    fun _ w₆ h₆ hjoined => .pure ⟨hjoined.1, ?_⟩
  · simpa [AggregateValue.rowCount, AggregateValue.valueCount, InnerQuery.ofBound] using h
  · exact Plan.resolve_summary (v := .rowCount rows) (by simp) h
  · exact Plan.resolve_summary (v := .valueCount values o.source) (by simp) h
  · have hrow := (hrowsOut.coins.later (le_trans h₅ h₆)).gives
    have hvalue := (hvaluesOut.coins.later h₆).gives
    have hcolumn := hfound.gives.later (le_trans hw h₆)
    have hflag := hfound.value.later (le_trans hw h₆)
    simp [Scalar.and, Scalar.or, Scalar.eq, Scalar.isNull, Scalar.isNotNull,
      Scalar.int, hrow, hvalue, hcolumn, hflag]

theorem holds_in_ (e : Sql.Expr) (hq : A query) (negated : Bool) :
    L.Holds w (b.in_ e query negated k) fun r w' => L.Shows a w' r.1 ∧ L.Value w' r.2 :=
  (holds_flagged hb hk e hq).bind fun _ _ hw h => .ite
    (fun _ => .pure ⟨h.shown, Account.value_unary.2 h.value⟩) fun _ => .ite
    (fun _ => .pure ⟨h.shown, Account.value_unary.2 h.value⟩) fun _ =>
      holds_notInWithNulls hb (hk.later hw) hq h

/-- A subquery with a value of a type. -/
structure Supplies (L : Logic) (a w : L.World) (levels : List Level) (q : InnerQuery)
    (c : Column) (t : DataType) : Prop extends L.Inner a w levels q where
  column : L.Gives w c
  type : ∀ found, q.root.schema.resolve c = .ok found → found.2.dataType = t

omit hb hk in
theorem holds_firstValue {column : Column} {t : DataType}
    (hinner : Supplies L m w levels inner column t) :
    L.Holds w (firstValue inner column t) fun r w' => Supplies L m w' levels r.1 r.2 t := by
  refine (L.freshExpr w).bind fun first w₁ h₁ hfirst =>
    (L.freshExpr w₁).bind fun count w₂ h₂ hcount => .pure ?_
  have hfirst := hfirst.coins.later h₂
  have hcount := hcount.coins
  have hcolumn := hinner.column.later (le_trans h₁ h₂)
  have htop : L.Inner m w₂ levels { inner with root := .top inner.root (.int 2) false false } := by
    refine (hinner.toInner.later (le_trans h₁ h₂)).above rfl rfl ?_ (fun _ => trivial) fun h => ?_
    · exact List.forall_mem_singleton.2 (Account.value_literal _)
    · simpa [Scalar.int] using h
  have hsummary : L.Inner m w₂ levels { inner with
      root := (Plan.top inner.root (.int 2) false false).summary
        [{ name := first, function := .first, args := [.column column], dataType := t },
          .rowCount count] } := by
    refine htop.above rfl rfl (List.forall_mem_singleton.2 (Account.value_column.2 hcolumn))
      (fun _ =>
      List.forall_mem_cons.2 ⟨fun t' ht => ?_, List.forall_mem_singleton.2 rfl⟩) fun h => ?_
    · rw [Scalar.dataType] at ht
      obtain ⟨found, hfound, ht⟩ := Result.exists_of_bind ht
      cases ht
      exact (hinner.type found hfound).symm
    · simpa [AggregateValue.rowCount] using h
  refine ⟨hsummary.above rfl rfl ?_ (fun _ => trivial) fun h => ?_, hfirst.gives,
    fun found => Plan.resolve_summary (List.mem_cons_self ..)⟩
  · exact List.forall_mem_singleton.2 (by simp [Scalar.ltEq, Scalar.int, hcount.gives])
  · simpa [Scalar.ltEq, Scalar.int] using h

theorem holds_scalar (hq : A query) :
    L.Holds w (b.scalar query k) fun r w' => L.Shows a w' r.1 ∧ L.Value w' r.2 := by
  refine (hb.query hq (around_levels hk)).bind fun bound w₁ h₁ hbound =>
    .test (by simp) fun inner hinner => ?_
  obtain rfl := ofSingle_eq hinner
  refine .test (by simp) fun column hcolumn => .test (by simp) fun (_, field) hfound => ?_
  have hjoin (found : InnerQuery × Column) (w₂ : L.World) (h₂ : w₁ ≤ w₂)
      (h : Supplies L w w₂ k.scope.levels found.1 found.2 field.dataType) : L.Holds w₂ (do
        let name ← BindM.freshExpr
        let plan ← found.1.joinTo k.plan none
          [{ name, expr := .column found.2, dataType := field.dataType }]
        return (plan, Scalar.column (.bare name))) fun r w' => L.Shows a w' r.1 ∧
          L.Value w' r.2 := by
    refine (L.freshExpr w₂).bind fun name w₃ h₃ hname => ?_
    refine (InnerQuery.holds_joinTo hk.plan.rows
      (hk.plan.later (le_trans h₁ (le_trans h₂ h₃))).names
      (h.toInner.later h₃) (sets_levels hk (.refl _)) (by simp) (List.forall_mem_singleton.2
        (Account.defines_column (h.column.later h₃) (fun _ => h.type) hname.coins))).bind
          fun _ _ h₄ hplan =>
      .pure ⟨hplan.1, Account.value_column.2 (hname.coins.later h₄).gives⟩
  obtain ⟨o, ho, rfl⟩ := exists_of_value hcolumn
  have hvalue : Supplies L w w₁ k.scope.levels (.ofBound bound) o.source field.dataType := by
    refine ⟨hbound.inner, fun hst => hbound.listed hst o ho, fun found h => ?_⟩
    rw [hfound] at h
    cases h
    rfl
  refine .bind (F := fun _ w' => w' = w₁) (.counted (fun _ _ => rfl) rfl) fun most w' _ hw => ?_
  cases hw
  refine .ite (fun _ => ?_) fun _ => (holds_firstValue hvalue).bind hjoin
  rw [pure_bind]
  exact hjoin (.ofBound bound, o.source) w₁ le_rfl hvalue

theorem holds_subquery {e : Sql.Expr} (he : ∀ q ∈ e.query?, A q) :
    L.Holds w (b.subquery k e) fun k w' => k.Fits L.toAccount a w' := by
  have hadd (r : Plan × Scalar) (w' : L.World) (hw : w ≤ w')
    (hr : L.Shows a w' r.1 ∧ L.Value w' r.2) :
      L.Holds w' (pure (⟨r.1, (k.scope.withSchema r.1.schema).addComputed e.key r.2⟩ : Block))
        fun k w' => k.Fits L.toAccount a w' :=
    .pure (.addComputed (hk.scope.later hw) hr.1 _ hr.2)
  refine .ite (fun _ => .pure hk) fun _ => ?_
  split
  · exact .mapped (holds_exists_ hb hk (he _ rfl) _) hadd
  · exact .mapped (holds_in_ hb hk _ (he _ rfl) _) hadd
  · exact .mapped (holds_scalar hb hk (he _ rfl)) hadd
  · rw [pure_bind]
    exact .pure hk

theorem holds_subqueries {es : List Sql.Expr} (hes : ∀ e ∈ es, ∀ q ∈ e.queries, A q) :
    L.Holds w (b.subqueries es k) fun k w' => k.Fits L.toAccount a w' := by
  refine .foldlM hk fun k _ _ hk e he => holds_subquery hb hk fun q hq => ?_
  obtain ⟨whole, hwhole, he⟩ := List.mem_flatMap.1 he
  exact hes whole hwhole q (List.mem_filterMap.2 ⟨e, he, hq⟩)

theorem holds_restrict {condition : Sql.Expr} (hcondition : ∀ q ∈ condition.queries, A q) :
    L.Holds w (b.restrict condition k) fun k w' => k.Fits L.toAccount a w' := by
  refine (holds_subqueries hb hk (List.forall_mem_singleton.2 hcondition)).bind fun _ _ _ hk =>
    (Scope.holds_bindPredicate hk.scope condition).bind fun _ _ hw he => .pure ?_
  have hk := hk.later hw
  exact .withPlan hk.scope
    (hk.plan.same (hk.plan.rows.above rfl rfl (List.forall_mem_singleton.2 he)
    fun _ => trivial) rfl)

end

section

variable {s : Sql.Select Sql.Query} (hA : ∀ q ∈ s.queries, A q)

include hA

omit hb in
theorem admits_of_queryExprs : ∀ e ∈ s.queryExprs, ∀ q ∈ e.queries, A q :=
  fun e he q hq => hA q (List.mem_append_right _ (List.mem_flatMap.2 ⟨e, he, hq⟩))

theorem holds_start (hT : ∀ t ∈ s.tables, T t) (hsees : L.Sees w outer)
    (hfeeds : L.Feeds w (Scope.ofSchema .empty outer).levels) :
    L.Holds w (b.start s outer) fun k w' => k.Fits L.toAccount w w' := by
  refine (holds_sources hb hfeeds (fun source hsource q hq => ?_)
    fun source hsource t ht => hT t (List.mem_flatMap.2 ⟨source, hsource, ht⟩)).bind
    fun _ _ hw h => .pure ⟨h, ⟨L.sees_later hw hsees, nofun, h.names⟩, fun _ => rfl⟩
  exact hA q (List.mem_append_left _ (List.mem_flatMap.2 ⟨source, hsource, hq⟩))

variable {p : Progress} (hp : p.block.Fits L.toAccount a w)

include hp

theorem holds_filtering : L.Holds w (b.filtering s p) fun p w' =>
    p.block.Fits L.toAccount a w' := by
  unfold filtering
  split
  next condition hcondition =>
    refine Progress.holds_extend hp fun hk => .check (by simp) fun _ => holds_restrict hb hk ?_
    exact admits_of_queryExprs hA condition (by simp [Sql.Select.queryExprs, hcondition])
  next => exact .pure hp

theorem holds_grouping (tail : QueryTail) :
    L.Holds w (b.grouping s tail p) fun p w' => p.block.Fits L.toAccount a w' := by
  refine .test (by simp) fun _ _ => .ite (fun _ => .pure hp) fun _ =>
    (L.attempt (Block.holds_group hp _ _)).bind fun grouped w₁ h₁ hgrouped => ?_
  have hp := hp.later h₁
  split
  next => exact Progress.holds_abandon (Progress.fits_record hp (by simp)) s tail
  next k =>
    have hk := Progress.fits_record hp hgrouped
    split
    next condition hhaving =>
      refine Progress.holds_extend hk fun hk => holds_restrict hb hk ?_
      exact admits_of_queryExprs hA condition (by simp [Sql.Select.queryExprs, hhaving])
    next => exact .pure hk

omit hp in
theorem holds_block (hT : ∀ t ∈ s.tables, T t) {tail : QueryTail}
    (htail : ∀ e ∈ tail.exprs, ∀ q ∈ e.queries, A q) (hsees : L.Sees w outer)
    (hfeeds : L.Feeds w (Scope.ofSchema .empty outer).levels) :
    L.Holds w (b.block s tail outer) fun plan w' =>
      L.Rows w w' plan.root ∧ (L.strict → plan.Listed (L.ledger w')) := by
  have hes : ∀ e ∈ s.exprs ++ tail.exprs, ∀ q ∈ e.queries, A q := by
    refine List.forall_mem_append.2 ⟨fun e he => ?_, htail⟩
    exact admits_of_queryExprs hA e (by simp [Sql.Select.queryExprs, he])
  refine (holds_start hb hA hT hsees hfeeds).bind fun _ _ _ hk => (holds_filtering hb hA hk).bind
    fun _ _ _ hp => (holds_grouping hb hA hp tail).bind fun p _ _ hp =>
    (Progress.holds_extend hp fun hk => holds_subqueries hb hk hes).bind fun p _ _ hp =>
    (Progress.holds_extend hp fun hk => Block.holds_windows hk _).bind fun p _ _ hp =>
    (holds_project hp s tail).bind fun (_, _) w₁ _ ⟨hp, houtputs⟩ =>
    (holds_ordering (fits_deduplicated hp _ _) tail _ _).bind fun p w₂ h₂ hp =>
    (Progress.holds_extend hp (s.holds_limitRows tail)).bind fun _ w₃ h₃ hp =>
      .test (by simp) fun _ _ =>
    .pure ⟨hp.plan.rows, fun hst o ho => ((houtputs o ho).later (le_trans h₂ h₃)) hst⟩

end

end QueryBinder

end BatchPlan
