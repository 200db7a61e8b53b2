import BatchPlan.Proofs.Binding.Expressions

namespace BatchPlan

variable {L : Logic} {a m w : L.World} {i : L.World → L.World} {k : Block}
    {q : QueryPlan} {plan : Plan}
  {levels : List Level}

theorem ConcatColumn.holds_ofSources (sources : List (Schema × Column)) :
    L.Holds w (ofSources sources) fun column w' => L.Coins w' column.name :=
  .bind (.foldlM (G := fun _ _ => True) trivial fun _ _ _ _ (_, _) _ =>
    .test (by simp) fun (_, _) _ =>
    .test (by simp) fun _ _ => .pure trivial) fun (_, _) w₁ _ _ => (L.freshExpr w₁).bind
    fun _ _ _ hname => .pure hname.coins

namespace QueryPlan

theorem holds_union (hi : L.Beside i) {plans : List QueryPlan}
    (h : L.Rows a (i w) (.concat (plans.map (·.root)) [])) (distinct : Bool) :
    L.Holds w (union plans distinct) fun q w' => L.Rows a (i w') q.root ∧
      (L.strict → q.Listed (L.ledger w')) ∧ ∀ p ∈ plans, q.columns.length = p.columns.length := by
  unfold union
  split
  · exact .throw (by simp)
  next first rest =>
    refine .check (by simp) fun hwidth => ?_
    have hwidth : ∀ p ∈ first :: rest, p.columns.length = first.columns.length := by
      simpa using hwidth
    refine .bind (.mapM_forall₂ (S := fun (_ : Nat) (c : ConcatColumn) w' => L.Coins w' c.name)
      (fun hw h => h.later hw) fun i _ w₁ _ => ConcatColumn.holds_ofSources _)
        fun columns w₁ h₁ hcolumns => .pure ?_
    have hrows := L.rows_columns columns (h.later (hi.later h₁))
    refine ⟨?_, fun hst => List.forall_mem_map.2 fun (_, column) h => ?_, fun p hp => ?_⟩
    · cases distinct
      · exact hrows
      · exact hrows.above rfl rfl nofun fun _ => trivial
    · exact (forall_mem_of_forall₂ hcolumns (fun _ _ h => h) column (List.of_mem_zip h).2).gives hst
    · have hlength : columns.length = first.columns.length := by simpa using hcolumns.length_eq.symm
      simp [hlength, hwidth p hp]

theorem shows_named (hq : L.Rows a w q.root) {relation : String}
    {names : List String} {r : Relation}
    (h : q.named relation names = .ok r) : L.Shows a w r.plan := by
  obtain ⟨-, h⟩ := Result.of_check h
  obtain ⟨columns, -, h⟩ := Result.exists_of_bind h
  cases h
  exact ⟨hq.above rfl rfl nofun fun _ => trivial, fun _ => List.forall_mem_map.2
    fun _ _ => Ledger.gives_qualified _ _⟩

theorem holds_matching (hi : L.Along i) {left right : QueryPlan} (hleft : L.Rows a (i m) left.root)
    (hright : L.Rows (i m) (i w) right.root) (hgives : L.strict → left.Listed (L.ledger w))
    (except : Bool) : L.Holds w (left.matching right except) fun q w' =>
      L.Rows a (i w') q.root ∧ (L.strict → q.Listed (L.ledger w')) := by
  refine .check (by simp) fun _ => (L.freshExpr w).bind fun relation w₁ h₁ _ =>
    .bind (.mapM (G := fun _ _ => True) (fun _ h => h) fun _ _ w' _ =>
      (L.freshExpr w').mono fun _ _ _ _ => trivial) fun names w₂ h₂ _ =>
    .test (by simp) fun source hsource => ?_
  have hsource := shows_named (hright.later (hi.later (le_trans h₁ h₂))) hsource
  refine .bind (.mapM (G := fun e w' => L.Value w' e) (fun hw h => h.later hw) ?_)
    fun conditions w₃ h₃ hconditions => ?_
  · rintro ⟨output, name⟩ hmem w₃ h₃
    refine .test (by simp) fun _ _ => .test (by simp) fun _ _ => .test (by simp) fun _ _ => .pure ?_
    have houtput : L.Gives w₃ output.source := fun hst =>
      (hgives hst output (List.of_mem_zip hmem).1).mono
      (L.ledger_later (le_trans h₁ (le_trans h₂ h₃)))
    have hname : L.Gives w₃ (.qualified relation name) := fun _ => Ledger.gives_qualified _ _
    simp [sameValue, Scalar.or, Scalar.and, Scalar.eq, Scalar.isNull, houtput, hname]
  have hrows : L.Rows a (i m) (.distinct left.root (left.columns.map (·.source))) :=
    hleft.above rfl rfl (List.forall_mem_nil _) fun _ => trivial
  refine .bind (Plan.holds_keep hi (L.pair hrows (hsource.rows.later (hi.later h₃)))
    rfl ?_ fun _ => ?_)
    fun kept w₄ h₄ hkept => .pure ⟨hkept.1, fun hst o ho => ?_⟩
  · have hvalues := Account.value_conjunction? fun e he => hi.value (hconditions e he)
    simpa [Plan.expressions] using hvalues
  · exact ⟨.loop rfl (List.forall_mem_nil _) (List.forall_mem_nil _), fun h => absurd rfl h⟩
  · exact (hgives hst o ho).mono (L.ledger_later (le_trans h₁ (le_trans h₂ (le_trans h₃ h₄))))

end QueryPlan

theorem holds_bindRows {s : Scope} (hs : s.Fits L.toAccount w) (rows : List (List Sql.Expr)) :
    L.Holds w (bindRows s rows) fun r w' => ∀ e ∈ r.1.flatten, L.Value w' e := by
  have hrow (row : List Sql.Expr) (columns : List (DataType × Bool)) {w : L.World}
      (hs : s.Fits L.toAccount w) :
      L.Holds w (bindRow s row columns) fun cells w' => ∀ cell ∈ cells, L.Value w' cell.1 :=
    .mapM (fun hw h => h.later hw) fun (_, _, _) _ _ hw => .check (by simp) fun _ =>
      (Scope.holds_bindChecked (hs.later hw) _).bind fun _ _ _ he => .test (by simp) fun _ _ =>
      .test (by simp) fun _ _ => .pure he
  refine .foldlM nofun fun soFar w₁ h₁ hsoFar row _ => .check (by simp) fun _ =>
    (hrow row _ (hs.later h₁)).bind fun cells w₂ h₂ hcells => .pure ?_
  rw [List.flatten_append, List.forall_mem_append]
  exact ⟨fun e he => (hsoFar e he).later h₂, by
    rw [List.flatten_singleton]; exact List.forall_mem_map.2 hcells⟩

theorem holds_bindValues (rows : List (List Sql.Expr)) (h : L.Around w levels) :
    L.Holds w (bindValues rows levels) fun bound w' => L.Answers w w' levels bound := by
  refine (L.enclosed (holds_bindRows (Scope.fits_ofEmpty (L.sees_inside [] h)) rows)).bind
    fun ((_, _), own) w₁ h₁ ⟨hcells, howned⟩ =>
      .bind (.mapM (G := fun (c : ConstantColumn) w' => L.Coins w' c.name)
      (fun hw h => h.later hw) fun (_, _) _ w' _ =>
      (L.freshExpr w').bind fun _ _ _ h => .pure h.coins)
    fun columns w₂ h₂ hcolumns =>
      .pure ⟨?_, fun c hc => L.owns_later h₂ (howned c hc), fun hst => ?_⟩
  · exact L.rows_leaf (L.inside_later _ _ (le_trans h₁ h₂)) rfl rfl nofun
      (fun e he => (hcells e he).later (L.inside_later _ own h₂)) fun _ => trivial
  · exact List.forall_mem_map.2 fun c hc => (hcolumns c hc).gives hst

/-- A subquery that is joined to a plan. The definitions are computed over its rows. -/
theorem InnerQuery.holds_joinTo {q : InnerQuery} {left : Plan} (hleft : L.Rows a m left)
    (hnames : L.strict → left.schema.Named (L.ledger w)) (hq : L.Inner m w levels q)
    (hsets : L.strict → ∀ e, (L.ledger w).Lends (Visible levels 0) e →
      (L.ledger w).Sets left.schema e.binding)
    {condition : Option Scalar} (hcondition : ∀ e ∈ condition, L.Value w e)
    {definitions : List Definition} (hdefinitions : ∀ d ∈ definitions,
      L.Defines w q.root.schema d) :
    L.Holds w (q.joinTo left condition definitions) fun p w' =>
      L.Shows a w' p ∧ left.schema.Extends p.schema := by
  have hspec (hst : L.strict) {outer : List OuterBinding}
      (houter : ∀ b ∈ outer, (L.ledger w).Sets left.schema b) :
      JoinSpec.Checks (L.ledger w) left.schema q.root.schema
        { type := .leftOuter, strategy := .nestedLoop outer, output := .left, condition,
          definitions } :=
    .loop rfl houter fun d hd => ((hdefinitions d hd).checks hst).records
  have hvalues : ∀ e ∈ condition.toList ++ definitions.map (·.expr), L.Value w e :=
    List.forall_mem_append.2 ⟨by simpa using hcondition,
      List.forall_mem_map.2 fun d hd => (hdefinitions d hd).value⟩
  unfold InnerQuery.joinTo
  refine .ite (fun h => ?_) fun h => ?_
  · rw [pure_bind, if_pos h]
    refine .pure ⟨.join (L.rows_loop hleft (hq.loops h) rfl hvalues fun hst =>
      ⟨hspec hst ?_, nofun⟩) hnames
      (fun _ h => absurd rfl h) fun d hd => (hdefinitions d hd).coins, Plan.extends_join rfl⟩
    exact List.forall_mem_map.2 fun c hc => hsets hst c (L.lends hst (hq.owned c hc))
  · have h := Bool.eq_false_iff.2 h
    rw [if_neg (by simp [h])]
    refine (Plan.holds_keep L.along_id (L.pair hleft (hq.plain h)) rfl ?_ fun hst => ?_).bind
      fun _ w' hw hjoin => .pure ⟨.join hjoin.1 ?_ (fun _ h => absurd rfl h) ?_,
        Plan.extends_join rfl⟩
    · exact hvalues
    · exact ⟨hspec hst nofun, fun _ => hq.honest hst h⟩
    · exact fun hst => (hnames hst).mono (L.ledger_later hw)
    · exact fun d hd => (hdefinitions d hd).coins.later hw

def Schema.FirstType (s : Schema) : List Scalar → Option DataType → Prop
  | [], type => type = none
  | e :: _, type => ∃ t, e.dataType s = .ok t ∧ type = some t

theorem Schema.FirstType.records {s s' : Schema} {v : AggregateValue} {type : Option DataType}
    (h : s.FirstType v.args type) (htype : v.dataType = v.function.resultType type)
    (hs : s.Extends s') : v.Records s' := by
  unfold AggregateValue.Records
  cases hargs : v.args with
  | nil =>
    rw [hargs] at h
    exact h ▸ htype
  | cons e rest =>
    rw [hargs] at h
    obtain ⟨t, ht, rfl⟩ := h
    intro t' ht'
    rw [htype, Scalar.agree_dataType hs e t t' ht ht']

/-- The keys of groups, and what is computed for them. -/
structure GroupKeys.Fits (g : GroupKeys) (L : Logic) (w : L.World) (s : Schema) : Prop where
  computed : ∀ entry ∈ g.computed, L.Value w entry.2
  hoisted : ∀ d ∈ g.hoisted, L.Defines w s d

/-- What is computed for groups can be added to the rows. -/
def GroupInput.Fits (g : GroupInput) (L : Logic) (w : L.World) (s : Schema) : Prop :=
  ∀ d ∈ g.hoisted, L.Defines w s d

theorem GroupInput.Fits.later {w' : L.World} {s : Schema} {g : GroupInput}
    (h : g.Fits L w s) (hw : w ≤ w') : g.Fits L w' s :=
  fun d hd => (h d hd).later hw

section

variable {s : Scope} (hs : s.Fits L.toAccount w) (schema : Schema) {g : GroupInput}

include hs

theorem GroupKeys.holds_add {g : GroupKeys} (hg : g.Fits L w schema) (e : Sql.Expr) :
    L.Holds w (GroupKeys.add s schema g e) fun g' w' => g'.Fits L w' schema := by
  refine .check (by simp) fun _ => (Scope.holds_bindChecked hs e).bind fun bound w₁ h₁ he =>
    (Scalar.holds_asColumn he schema).bind
      fun (column, definition) w₂ h₂ ⟨hcolumn, hdefinition⟩ => ?_
  have hw := le_trans h₁ h₂
  have hcomputed := fun entry hentry => (hg.computed entry hentry).later hw
  have hhoisted := fun d hd => (hg.hoisted d hd).later hw
  cases definition with
  | some d =>
    refine .pure ⟨List.forall_mem_append.2 ⟨hcomputed, List.forall_mem_singleton.2 ?_⟩,
      List.forall_mem_append.2 ⟨hhoisted, List.forall_mem_singleton.2 (hdefinition d rfl)⟩⟩
    exact Account.value_column.2 hcolumn
  | none => exact .pure ⟨hcomputed, hhoisted⟩

theorem Scope.holds_bindOrder (items : List (Sql.OrderItem Sql.Expr)) :
    L.Holds w (s.bindOrder schema items) fun r w' => ∀ d ∈ r.2, L.Defines w' schema d := by
  refine .bind (.mapM (G := fun (r : SortKey × Option Definition) w' =>
    ∀ d ∈ r.2, L.Defines w' schema d) (fun hw h d hd => (h d hd).later hw) fun o _ w₁ h₁ =>
    (holds_bindChecked (hs.later h₁) o.expr).bind fun e w₂ _ he =>
    (Scalar.holds_asColumn he schema).bind
    fun (_, _) _ _ h => .pure h.2) fun bound _ _ hbound => .pure fun d hd => ?_
  obtain ⟨r, hr, hd⟩ := List.mem_filterMap.1 hd
  exact hbound r hr d hd

theorem Scope.holds_bindColumns (es : List Sql.Expr) :
    L.Holds w (s.bindColumns schema es) fun r w' =>
    (∀ c ∈ r.1, L.Gives w' c) ∧ ∀ d ∈ r.2, L.Defines w' schema d := by
  refine .bind (.mapM (G := fun (r : Column × Option Definition) w' =>
    L.Gives w' r.1 ∧ ∀ d ∈ r.2, L.Defines w' schema d)
    (fun hw h => ⟨h.1.later hw, fun d hd => (h.2 d hd).later hw⟩) fun e _ w₁ h₁ =>
    (holds_bindChecked (hs.later h₁) e).bind fun bound w₂ _ he => Scalar.holds_asColumn he schema)
    fun bound _ _ hbound => .pure ⟨List.forall_mem_map.2 fun r hr =>
      (hbound r hr).1, fun d hd => ?_⟩
  obtain ⟨r, hr, hd⟩ := List.mem_filterMap.1 hd
  exact (hbound r hr).2 d hd

namespace GroupInput

theorem holds_order (hg : g.Fits L w s.schema) (f : AggregateFunction) (call : Sql.Call Sql.Expr) :
    L.Holds w (g.order s f call) fun g' w' => g'.Fits L w' s.schema := by
  refine .ite (fun _ => .pure hg) fun _ => .check (by simp) fun _ =>
    (Scope.holds_bindOrder hs s.schema _).bind fun (keys, _) w₁ h₁ hdefinitions => ?_
  have hhoisted := List.forall_mem_append.2 ⟨hg.later h₁, hdefinitions⟩
  dsimp only
  split
  · exact .pure hhoisted
  · exact .ite (fun _ => .pure hhoisted) fun _ => .throw (by simp)

theorem holds_aggregate (hg : g.Fits L w s.schema) (call : Sql.Call Sql.Expr) :
    L.Holds w (g.aggregate s call) fun r w' => L.Sums w' s.schema r.1 ∧ r.2.Fits L w' s.schema := by
  refine .test (by simp) fun f _ => .check (by simp) fun _ => .check (by simp) fun _ =>
    .bind (.mapM (fun hw h => h.later hw) fun e _ w' hw => Scope.holds_bindChecked (hs.later hw) e)
    fun args w₁ h₁ hargs => ?_
  have htype : L.Holds w₁ (args.head?.mapM fun e => (liftM (e.dataType s.schema) : BindM DataType))
      fun type _ => s.schema.FirstType args type := by
    cases args with
    | nil => exact .pure rfl
    | cons e rest => exact .map (.lift (by simp) fun t ht => ⟨t, ht, rfl⟩)
  refine htype.bind fun type w₂ h₂ htype => .test (by simp) fun _ _ => ?_
  have hw := le_trans h₁ h₂
  refine (holds_order (hs.later hw) (hg.later hw) f call).bind
    fun g w₃ h₃ hg => (L.freshExpr w₃).bind
    fun name w₄ h₄ hname => .pure ⟨⟨?_, fun hst schema hschema => ?_⟩, hg.later h₄⟩
  · exact fun e he => (hargs e he).later (le_trans h₂ (le_trans h₃ h₄))
  · exact ⟨htype.records rfl hschema, hname.coins hst⟩

omit hs in
theorem holds_aggregates (hs : s.Fits L.toAccount w) (hg : g.Fits L w s.schema)
    (calls : List (Sql.Call Sql.Expr)) :
    L.Holds w (g.aggregates s calls) fun r w' => (∀ entry ∈ r.1, L.Sums w' s.schema entry.2) ∧
      r.2.Fits L w' s.schema := by
  induction calls generalizing g w with
  | nil => exact .pure ⟨nofun, hg⟩
  | cons call rest ih =>
    refine (holds_aggregate hs hg call).bind fun (_, _) w₁ h₁ ⟨hvalue, hg⟩ =>
      (ih (hs.later h₁) hg).bind
      fun (_, _) w₂ h₂ ⟨hvalues, hg⟩ => .pure ⟨List.forall_mem_cons.2 ⟨?_, hvalues⟩, hg⟩
    exact hvalue.later h₂

end GroupInput

end

theorem Block.holds_group (hk : k.Fits L.toAccount a w) (groupBy : List Sql.Expr)
    (calls : List (Sql.Call Sql.Expr)) :
    L.Holds w (k.group groupBy calls) fun k w' => k.Fits L.toAccount a w' := by
  refine .bind (F := fun (g : GroupKeys) w' => g.Fits L w' k.plan.schema) (.foldlM ⟨nofun, nofun⟩
    fun _ w₁ h₁ hg e _ => GroupKeys.holds_add (hk.scope.later h₁) _ hg e)
    fun keys w₁ h₁ hkeys => (GroupInput.holds_aggregates (hk.scope.later h₁)
      (fun d hd => ?_) calls).bind
    fun (values, g) w₂ h₂ ⟨hvalues, hg⟩ => .pure ?_
  · exact (hkeys.hoisted d hd).of_eq fun hst => (hk.schema hst).symm
  have hfound : ∀ entry ∈ keys.computed ++ values.map fun v =>
    (v.1, Scalar.column (.bare v.2.name)), L.Value w₂ entry.2 :=
    List.forall_mem_append.2 ⟨fun entry hentry => (hkeys.computed entry hentry).later h₂,
      List.forall_mem_map.2 fun v hv => Account.value_column.2 (hvalues v hv).coins.gives⟩
  have hk := hk.later (le_trans h₁ h₂)
  have hplan : L.Shows a w₂ ((k.plan.define g.hoisted).grouped keys.columns g.keys
    (values.map (·.2))) := by
    refine (hk.plan.define fun d hd => (hg d hd).of_eq hk.schema).grouped _ _
      (List.forall_mem_map.2 fun v hv => (hvalues v hv).over fun hst => ?_)
    exact hk.schema hst ▸ k.plan.extends_define g.hoisted
  have hscope := hk.scope.foldl_addComputed hfound
  exact ⟨hplan, ⟨hscope.outer, hscope.computed, hplan.names⟩, fun _ => rfl⟩

theorem Schema.field?_fresh {s s' : Schema} {ledger : Ledger} {more : List Field}
    (h : s'.fields = s.fields ++ more) (hmore : ∀ f ∈ more, f.relation = none ∧ ledger.Lacks f.name)
    {c : Column} (hc : ledger.Gives c) : s'.field? c = s.field? c := by
  have hlacks : (Schema.ofFields more).Lacks c := by
    refine lacks_iff.2 fun f hf => ?_
    obtain ⟨hrelation, hname⟩ := hmore f hf
    cases hr : c.relation with
    | none =>
      rw [Option.isSome_none, Field.answersTo_bare, beq_eq_false_iff_ne, Column.text, hr]
      exact (hname c.name (hc hr)).symm
    | some r => simp [Field.answersTo, hrelation]
  rw [field?, field?, candidates_append (b := .ofFields more) h, hlacks]
  simp

/-- The columns that a windowed call computes with can be read. -/
structure WindowInput.Fits (x : WindowInput) (L : Logic) (a w : L.World) : Prop where
  plan : L.Shows a w x.plan
  args : ∀ c ∈ x.args, L.Gives w c

namespace WindowInput

theorem Fits.later {w' : L.World} {x : WindowInput} (h : x.Fits L a w) (hw : w ≤ w') :
    x.Fits L a w' :=
  ⟨h.plan.later hw, fun c hc => (h.args c hc).later hw⟩

variable {s : Schema} {number mark : String} {type : Option DataType}

theorem dataType_rowAt (hnumber : Plan.countField number ∈ s.fields) (distance : Int)
    {t : DataType} (h : (rowAt (.column (.bare number)) distance).dataType s = .ok t) :
    t = .int64 := by
  have hcolumn : ∀ t, (Scalar.column (.bare number)).dataType s = .ok t → t = .int64 := by
    intro t ht
    rw [Scalar.dataType] at ht
    obtain ⟨found, hfound, ht⟩ := Result.exists_of_bind ht
    cases ht
    rw [Schema.resolve_column (f := Plan.countField number) hnumber hfound]
    rfl
  unfold rowAt at h
  split at h
  · exact hcolumn t h
  · rw [Scalar.add, Scalar.dataType] at h
    obtain ⟨l, hl, h⟩ := Result.exists_of_bind h
    cases hcolumn l hl
    cases h
    rfl

theorem value_rowAt (hnumber : L.Coins w number) (distance : Int) :
    L.Value w (rowAt (.column (.bare number)) distance) := by
  have hcolumn : L.Value w (.column (.bare number)) := Account.value_column.2 hnumber.gives
  unfold rowAt
  split
  · exact hcolumn
  · exact Account.value_binary.2 ⟨hcolumn, Account.value_literal _⟩

/-- The first and the last row of a frame, by their numbers. -/
theorem shows_frameEnds {p : Plan} (hp : L.Shows a w p) {first last : String}
    (hnumbered : Plan.countField number ∈ p.schema.fields) (hnumber : L.Coins w number)
    (hfirst : L.Coins w first) (hlast : L.Coins w last) {start : Scalar}
    (hstart : start = .literal (.int64 1) ∨ ∃ n, start = rowAt (.column (.bare number)) n)
    (stop : Int) :
    L.Shows a w
      (.compute p [{ name := first, expr := start, dataType := .int64, nullable := false },
      { name := last, expr := rowAt (.column (.bare number)) stop, dataType := .int64,
        nullable := false }]) := by
  have hrow (name : String) (hname : L.Coins w name) (n : Int) : L.Defines w p.schema
      { name, expr := rowAt (.column (.bare number)) n, dataType := .int64, nullable := false } :=
    ⟨value_rowAt hnumber n, fun hst =>
      ⟨fun _ ht => (dataType_rowAt hnumbered n ht).symm, hname hst⟩⟩
  refine hp.define (List.forall_mem_cons.2 ⟨?_, List.forall_mem_singleton.2 (hrow last hlast stop)⟩)
  obtain rfl | ⟨n, rfl⟩ := hstart
  · exact Account.defines_literal rfl rfl hfirst
  · exact hrow first hfirst n

theorem records_overFrame {rows : Plan} {args : List Column}
    (htype : s.FirstType (args.map .column) type)
    (hargs : ∀ c ∈ args, rows.schema.field? c = s.field? c) {frame : WindowFrame}
    (hvalues : List.Forall₂ (fun c (v : FrameValue) => v.source = c) args frame.values) {id : Nat}
    {schema : Schema} (hschema : (Plan.spool id rows .lazy (.window frame)).schema.Extends schema)
    (name : String) (f : AggregateFunction) :
    AggregateValue.Records schema
      { name, function := f, args := frame.values.map fun v => .column (.bare v.name),
        dataType := f.resultType type } := by
  unfold AggregateValue.Records
  cases hcases : frame.values with
  | nil =>
    rw [hcases] at hvalues
    cases hvalues
    rw [htype]
    rfl
  | cons v rest =>
    rw [hcases] at hvalues
    obtain - | ⟨rfl, -⟩ := hvalues
    obtain ⟨t, ht, rfl⟩ := htype
    intro t' ht'
    rw [Scalar.dataType] at ht ht'
    obtain ⟨found, hfound, ht⟩ := Result.exists_of_bind ht
    obtain ⟨found', hfound', ht'⟩ := Result.exists_of_bind ht'
    cases ht
    cases ht'
    have hsource : rows.schema.field? v.source = some found.2 := by
      rw [hargs v.source (by simp), Schema.field?_eq_some.2
        ⟨_, Schema.candidates_of_resolve hfound⟩]
    have hmem :
        { name := v.name, dataType := found.2.dataType, calculated := true, visible := false } ∈
        (Plan.spool id rows .lazy (.window frame)).schema.fields := by
      refine List.mem_append_right _ (List.mem_filterMap.2 ⟨v, by simp [hcases], ?_⟩)
      rw [hsource]
      rfl
    rw [hschema.resolve_column hmem hfound']

theorem shows_overFrame {u : L.World} {rows : Plan} (hrows : L.Shows a m rows)
    {id : Nat} (hid : L.Fresh m id u)
    (hm : m ≤ u) (hu : u ≤ w) {frame : WindowFrame} {args : List Column}
    (htype : s.FirstType (args.map .column) type)
    (hargs : L.strict → ∀ c ∈ args, rows.schema.field? c = s.field? c)
    (hvalues : List.Forall₂ (fun c (v : FrameValue) => v.source = c ∧ L.Coins w v.name)
      args frame.values)
    {name : String} (hname : L.Coins w name) (f : AggregateFunction) (groupBy : List Column) :
    L.Shows a w (.aggregate (.spool id rows .lazy (.window frame)) {
      strategy := .stream, groupBy,
      values := [{ name, function := f, args := frame.values.map fun v => .column (.bare v.name),
                   dataType := f.resultType type }] }) := by
  have hcoined := forall_mem_of_forall₂ hvalues fun _ _ h => h.2
  have hspool : L.Shows a w (.spool id rows .lazy (.window frame)) := by
    refine ⟨.later (L.rows_spool hrows.rows hid rfl) hu, fun hst =>
      ((hrows.later (le_trans hm hu)).names hst).append rfl fun field hfield => ?_⟩
    obtain ⟨v, hv, hfield⟩ := List.mem_filterMap.1 hfield
    obtain ⟨_, -, rfl⟩ := Option.map_eq_some_iff.1 hfield
    exact (hcoined v hv).gives hst
  refine hspool.aggregate (List.forall_mem_singleton.2
    ⟨?_, fun hst schema hschema => ⟨?_, hname hst⟩⟩)
  · exact List.forall_mem_map.2 fun v hv => Account.value_column.2 (hcoined v hv).gives
  · exact records_overFrame htype (hargs hst) (hvalues.imp fun _ _ h => h.1) hschema name f

theorem extends_segmented {x : WindowInput}
    (h : plan.schema.fields = x.plan.schema.fields ++ [Plan.markField mark]) :
    x.plan.schema.Extends plan.schema :=
  .of_subset fun _ hf => h ▸ List.mem_append_left _ hf

theorem shows_segment {p : Plan} (hp : L.Shows a w p) (columns : List Column)
    (hmark : L.Coins w mark) : L.Shows a w (.segment p columns mark) :=
  hp.above (hp.rows.above rfl rfl nofun fun _ => trivial) rfl
    (List.forall_mem_singleton.2 hmark.gives)

theorem shows_sequence {p : Plan} (hp : L.Shows a w p) {v : SequenceValue}
    (hname : L.Coins w v.name) : L.Shows a w (.sequence p [v]) :=
  hp.above (hp.rows.above rfl rfl nofun fun _ => trivial) rfl
    (List.forall_mem_singleton.2 hname.gives)

variable {x : WindowInput} (hx : x.Fits L a w)

include hx

theorem holds_segmented (order : List SortKey) :
    L.Holds w (x.segmented order) fun r w' => L.Shows a w' r.1 ∧ ∃ mark, L.News w mark w' ∧
      r.1.schema.fields = x.plan.schema.fields ++ [Plan.markField mark] := by
  refine (L.freshSegment w).bind fun mark w₁ h₁ hmark => .pure ⟨?_, mark, hmark, ?_⟩
  · exact shows_segment ((hx.plan.later h₁).ordered _) _ hmark.coins
  · simp [Plan.schema, Plan.extended, Plan.fields_ordered]

theorem holds_ranking (f : AggregateFunction) :
    L.Holds w (x.ranking f) fun r w' => L.Shows a w' r.1 ∧ L.Coins w' r.2 := by
  refine (holds_segmented hx x.orderBy).bind fun (plan, segment) w₁ h₁ ⟨hplan, _⟩ => ?_
  have hname (value : Plan × Option Column) (w₂ : L.World) (h : L.Shows a w₂ value.1) :
      L.Holds w₂ (BindM.freshExpr >>= fun name =>
        pure (Plan.sequence value.1 [⟨name, f, segment, value.2⟩], name))
        fun r w' => L.Shows a w' r.1 ∧ L.Coins w' r.2 :=
    (L.freshExpr w₂).bind fun name w₃ h₃ hname =>
      .pure ⟨shows_sequence (h.later h₃) hname.coins, hname.coins⟩
  refine .ite (fun _ => ?_) fun _ => (L.freshSegment w₁).bind fun mark w₂ h₂ hmark => ?_
  · rw [pure_bind]
    exact hname (plan, none) w₁ hplan
  · rw [pure_bind]
    exact hname (_, _) w₂ (shows_segment (hplan.later h₂) _ hmark.coins)

variable (htype : x.plan.schema.FirstType (x.args.map .column) x.argType)

include htype

theorem sums_args {schema : Schema} (hschema : x.plan.schema.Extends schema) {name : String}
    (hname : L.Coins w name) (f : AggregateFunction) : L.Sums w schema
      { name, function := f, args := x.args.map .column, dataType := f.resultType x.argType } :=
  ⟨List.forall_mem_map.2 fun c hc => Account.value_column.2 (hx.args c hc), fun hst _ hs =>
    ⟨htype.records rfl (hschema.trans hs), hname hst⟩⟩

theorem holds_partitionAggregate (f : AggregateFunction) :
    L.Holds w (x.partitionAggregate f) fun r w' => L.Shows a w' r.1 ∧ L.Coins w' r.2 := by
  refine (holds_segmented hx []).bind
    fun (plan, segment) w₁ h₁ ⟨hplan, mark, _, hfields⟩ =>
      (L.freshSpool w₁).bind fun id w₂ h₂ hid =>
    (L.freshExpr w₂).bind fun name w₃ h₃ hname => .pure ⟨?_, hname.coins⟩
  have hx := hx.later (le_trans h₁ h₂)
  generalize hspool : Plan.spool id plan .lazy (.segment (some segment)) = spool
  have hkept : spool.schema.fields = plan.schema.fields := hspool ▸ List.append_nil _
  have hnames (hst : L.strict) : spool.schema.Named (L.ledger w₃) := fun f hf =>
    (hplan.later (le_trans h₂ h₃)).names hst f (hkept ▸ hf)
  have htotal : L.Sums w₃ (Plan.consumer id spool.schema).schema
      { name, function := f, args := x.args.map .column, dataType := f.resultType x.argType } :=
    sums_args (hx.later h₃) htype
      ((extends_segmented hfields).trans (.of_subset fun _ hg => hkept ▸ hg)) hname.coins f
  subst hspool
  refine .join (.later (L.rows_replay _ _ _ hplan.rows hid rfl rfl ?_ rfl rfl ?_ rfl) h₃) hnames
    (fun hst _ => Schema.named_join (fun _ => ?_) (fun _ => hnames hst) nofun) nofun
  · exact List.forall_mem_flatMap.2 (List.forall_mem_singleton.2 (List.forall_mem_map.2 fun c hc =>
      Account.value_column.2 (hx.args c hc)))
  · exact Account.records_aggregate (List.forall_mem_singleton.2 htotal)
  · exact List.forall_mem_singleton.2 (hname.coins.gives hst)

theorem holds_frameAggregate (f : AggregateFunction) (frame : RowsFrame) :
    L.Holds w (x.frameAggregate f frame) fun r w' => L.Shows a w' r.1 ∧ L.Coins w' r.2 := by
  refine (holds_segmented hx x.orderBy).bind
    fun (plan, segment) w₁ h₁ ⟨hplan, mark, hmark, hfields⟩ =>
    (L.freshExpr w₁).bind fun number w₂ h₂ hnumber =>
    (L.freshExpr w₂).bind fun first w₃ h₃ hfirst =>
    (L.freshExpr w₃).bind fun last w₄ h₄ hlast =>
    .bind (.mapM_forall₂ (S := fun c (v : FrameValue) w' => v.source = c ∧ L.Coins w' v.name)
      (fun hw h => ⟨h.1, h.2.later hw⟩) fun c _ w' _ =>
      (L.freshExpr w').bind fun _ _ _ h => .pure ⟨rfl, h.coins⟩)
    fun values w₅ h₅ hvalues => (L.freshSpool w₅).bind fun id w₆ h₆ hid =>
    (L.freshExpr w₆).bind fun name w₇ h₇ hname => .pure ⟨?_, hname.coins⟩
  have h₃₅ := le_trans h₄ h₅
  have h₂₅ := le_trans h₃ h₃₅
  have hnumbered : L.Shows a w₅ (.sequence plan [⟨number, .rowNumber, segment, none⟩]) :=
    shows_sequence (hplan.later (le_trans h₂ h₂₅)) (hnumber.coins.later h₂₅)
  refine shows_overFrame ?_ hid h₆ h₇ htype (fun hst c hc => ?_)
    (hvalues.imp fun _ _ h => ⟨h.1, ?_⟩) hname.coins f _
  · refine shows_frameEnds hnumbered (List.mem_append_right _ (List.mem_singleton_self _))
      (hnumber.coins.later h₂₅) (hfirst.coins.later h₃₅) (hlast.coins.later h₅) ?_ frame.stop
    cases frame.start with
    | none => exact .inl rfl
    | some n => exact .inr ⟨n, rfl⟩
  · -- the fields that are added have new names
    have hc := hx.args c hc hst
    have hnew {name : String} {u u' : L.World} (hname : L.News u name u') (hu : w ≤ u) :
        (L.ledger w).Lacks name :=
      (hname hst).2.anti (L.ledger_later hu)
    have hfirst := hnew hfirst (le_trans h₁ h₂)
    have hlast := hnew hlast (le_trans h₁ (le_trans h₂ h₃))
    calc
      _ = (Plan.sequence plan [⟨number, .rowNumber, segment, none⟩]).schema.field? c :=
        Schema.field?_fresh rfl (by simp [Definition.field, hfirst, hlast]) hc
      _ = plan.schema.field? c :=
        Schema.field?_fresh rfl (by simpa [Plan.countField] using hnew hnumber h₁) hc
      _ = x.plan.schema.field? c :=
        Schema.field?_fresh hfields (by simpa [Plan.markField] using (hmark hst).2) hc
  · exact h.2.later (le_trans h₆ h₇)

omit htype in
theorem holds_bindAggregate (f : AggregateFunction) (name : String) (frame : Option Sql.Frame) :
    L.Holds w (x.bindAggregate f name frame) fun r w' => L.Shows a w' r.1 ∧ L.Coins w' r.2 := by
  have htype : L.Holds w (x.args.head?.mapM fun c => do
      return (← (liftM (x.plan.schema.resolve c) : BindM (Nat × Field))).2.dataType) fun type _ =>
        x.plan.schema.FirstType (x.args.map .column) type := by
    cases x.args with
    | nil => exact .pure rfl
    | cons c rest =>
      refine .map (.test (by simp) fun found hfound => .pure ⟨found.2.dataType, ?_, rfl⟩)
      rw [Scalar.dataType, hfound]
      rfl
  refine .check (by simp) fun _ => htype.bind fun argType w₁ h₁ htype => ?_
  have hx := hx.later h₁
  have hx' : { x with argType }.Fits L a w₁ := ⟨hx.plan, hx.args⟩
  exact .ite (fun _ => .check (by simp) fun _ => holds_partitionAggregate hx' htype f) fun _ =>
    .test (by simp) fun rows _ => holds_frameAggregate hx' htype f rows

end WindowInput

namespace Block

variable {k : Block} (hk : k.Fits L.toAccount a w)

include hk

theorem holds_windowInput (call : Sql.Call Sql.Expr) (partitionBy : List Sql.Expr)
    (orderBy : List (Sql.OrderItem Sql.Expr)) :
    L.Holds w (k.windowInput call partitionBy orderBy) fun x w' => x.Fits L a w' := by
  refine (Scope.holds_bindColumns hk.scope _ _).bind fun (_, _) w₁ h₁ ⟨_, hforPartition⟩ =>
    (Scope.holds_bindOrder (hk.scope.later h₁) _ _).bind fun (_, _) w₂ h₂ hforOrder =>
    (Scope.holds_bindColumns (hk.scope.later (le_trans h₁ h₂)) _ _).bind
    fun (_, _) w₃ h₃ ⟨hargs, hforArgs⟩ => .pure ⟨?_, hargs⟩
  refine (hk.later (le_trans h₁ (le_trans h₂ h₃))).plan.define (List.forall_mem_append.2
    ⟨List.forall_mem_append.2 ⟨fun d hd => ?_, fun d hd => ?_⟩, hforArgs⟩)
  · exact (hforPartition d hd).later (le_trans h₂ h₃)
  · exact (hforOrder d hd).later h₃

theorem holds_bindWindow (call : Sql.Call Sql.Expr) :
    L.Holds w (k.bindWindow call) fun r w' => L.Shows a w' r.1 ∧ L.Coins w' r.2 := by
  unfold bindWindow
  split
  · exact .test (by simp) fun f _ => .check (by simp) fun _ => .check (by simp) fun _ =>
      (holds_windowInput hk _ _ _).bind fun x _ _ hx => .ite
      (fun _ => .check (by simp) fun _ => .check (by simp) fun _ => WindowInput.holds_ranking hx f)
      fun _ => WindowInput.holds_bindAggregate hx f _ _
  · exact .throw (by simp)

theorem holds_windows (es : List Sql.Expr) :
    L.Holds w (k.windows es) fun k w' => k.Fits L.toAccount a w' :=
  .foldlM hk fun _ _ _ hk call _ => (holds_bindWindow hk call).bind fun (_, _) _ hw h =>
    .pure (.addComputed (hk.scope.later hw) h.1 _ (Account.value_column.2 h.2.gives))

end Block

theorem holds_bindRowCount (w : L.World) (e : Sql.Expr) (clause : String) :
    L.Holds w (bindRowCount e clause) fun e w' => L.Value w' e :=
  (Scope.holds_bindChecked (Scope.fits_empty w) e).bind fun _ _ _ he => .test (by simp) fun _ _ =>
    .ite (fun _ => .pure he) fun _ => .throw (by simp)

theorem Sql.Top.holds_bind (t : Sql.Top Sql.Query) (tail : QueryTail) (hplan : L.Shows a w plan) :
    L.Holds w (t.bind tail plan) fun p w' => L.Shows a w' p := by
  have hcount : L.Holds w t.bindCount fun e w' => L.Value w' e := by
    unfold Sql.Top.bindCount
    split
    · exact .ite (fun _ => .pure (Account.value_literal _)) fun _ => .throw (by simp)
    · exact holds_bindRowCount w _ _
  refine .check (by simp) fun _ => .check (by simp) fun _ => hcount.bind fun _ _ hw he => .pure ?_
  have hplan := hplan.later hw
  exact hplan.same (hplan.rows.above rfl rfl (List.forall_mem_singleton.2 he) fun _ => trivial) rfl

theorem QueryTail.holds_limitRows (t : QueryTail) (hi : L.Along i) (hplan : L.Rows a (i w) plan) :
    L.Holds w (t.limitRows plan) fun p w' => L.Rows a (i w') p ∧ p.schema = plan.schema := by
  have hfetch (w : L.World) (f : Sql.Fetch) : L.Holds w f.bind fun r w' => ∀ e ∈ r, L.Value w' e :=
    .check (by simp) fun _ => .optionMapM fun _ _ => holds_bindRowCount w _ _
  refine .ite (fun _ => .pure ⟨hplan, rfl⟩) fun _ => ?_
  split
  · exact .throw (by simp)
  · refine (holds_bindRowCount w _ _).bind fun start w₁ h₁ hstart =>
      .bind (.optionMapM fun f _ => hfetch w₁ f) fun fetch w₂ h₂ hfetch => .pure ⟨?_, rfl⟩
    refine (hplan.later (hi.later (le_trans h₁ h₂))).above rfl rfl (List.forall_mem_cons.2
      ⟨hi.value (hstart.later h₂), fun e he => hi.value ?_⟩) fun _ => trivial
    exact hfetch (some e) (Option.join_eq_some_iff.1 (Option.mem_toList.1 he)) e rfl

theorem Sql.Select.holds_limitRows (s : Sql.Select Sql.Query) (tail : QueryTail)
    (hk : k.Fits L.toAccount a w) :
    L.Holds w (s.limitRows tail k) fun k' w' => k'.Fits L.toAccount a w' := by
  unfold Sql.Select.limitRows
  split
  · exact (Sql.Top.holds_bind _ _ hk.plan).bind fun _ _ hw h =>
      .pure (.withPlan (hk.scope.later hw) h)
  · refine .check (by simp) fun _ => (tail.holds_limitRows L.along_id hk.plan.rows).bind
      fun _ _ hw h => .pure ?_
    have hk := hk.later hw
    exact .withPlan hk.scope (hk.plan.same h.1 (congrArg Schema.fields h.2))

namespace Scope

variable {s : Scope} (hs : s.Fits L.toAccount w)

include hs

theorem holds_bindStar (relation : String) : L.Holds w (s.bindStar relation) fun outputs w' =>
    ∀ o ∈ outputs, L.Gives w' o.source := by
  refine .mapM (G := fun (o : OutputColumn) w' => L.Gives w' o.source) (fun hw h => h.later hw)
    fun f _ w' hw => (holds_resolve (hs.later hw) _).bind fun bound _ _ he => ?_
  split
  · exact .pure (Account.value_column.1 he)
  · exact .throw (by simp)
  · exact .throw (by simp)

theorem holds_bindItem (item : Sql.SelectItem Sql.Query) : L.Holds w (s.bindItem item) fun r w' =>
    (∀ d ∈ r.1, L.Defines w' s.schema d) ∧ ∀ o ∈ r.2, L.Gives w' o.source := by
  cases item with
  | star =>
    refine .check (by simp) fun _ =>
      .bind (.mapM (fun hw h o ho => (h o ho).later hw) fun _ _ _ hw =>
      holds_bindStar (hs.later hw) _) fun _ _ _ houtputs => .pure ⟨nofun, fun o ho => ?_⟩
    obtain ⟨os, hos, ho⟩ := List.mem_flatten.1 ho
    exact houtputs os hos o ho
  | tableStar table =>
    exact .check (by simp) fun _ => (holds_bindStar hs _).bind fun _ _ _ h => .pure ⟨nofun, h⟩
  | expr e name =>
    exact (holds_bindChecked hs e).bind fun bound w₁ _ he =>
      (Scalar.holds_asColumn he s.schema).bind
      fun (_, _) _ _ h => .pure ⟨by simpa using h.2, List.forall_mem_singleton.2 h.1⟩

theorem holds_bindItems (items : List (Sql.SelectItem Sql.Query)) :
    L.Holds w (s.bindItems items) fun r w' =>
    (∀ d ∈ r.1, L.Defines w' s.schema d) ∧ ∀ o ∈ r.2, L.Gives w' o.source := by
  refine .bind
    (.mapM (fun hw h => ⟨fun d hd => (h.1 d hd).later hw, fun o ho => (h.2 o ho).later hw⟩)
    fun item _ _ hw => holds_bindItem (hs.later hw) item) fun bound _ _ hbound => .pure ⟨?_, ?_⟩
  · exact List.forall_mem_flatMap.2 fun r hr => (hbound r hr).1
  · exact List.forall_mem_flatMap.2 fun r hr => (hbound r hr).2

theorem holds_bindSortKey (outputs : List OutputColumn) (distinct : Bool)
    (o : Sql.OrderItem Sql.Expr) :
    L.Holds w (s.bindSortKey outputs distinct o) fun r w' =>
      ∀ d ∈ r.2, L.Defines w' s.schema d := by
  refine .test (by simp) fun output _ => ?_
  split
  · exact .pure nofun
  · have hfails : (fun e => if distinct then throw distinctOrderError else throw e : PlanError →
      BindM Scalar) = fun e => throw (if distinct then distinctOrderError else e) := by
      funext e
      split <;> rfl
    rw [hfails]
    refine .bind (L.rethrow (holds_bindChecked hs o.expr) fun e he => ?_) fun bound w₁ _ he =>
      (Scalar.holds_asColumn he s.schema).bind fun (_, _) _ _ h =>
        .check (by simp) fun _ => .pure h.2
    split
    · simp
    · exact he

end Scope

theorem Block.holds_orderBy (hk : k.Fits L.toAccount a w) (items : List (Sql.OrderItem Sql.Expr))
    (outputs : List OutputColumn) (distinct : Bool) :
    L.Holds w (k.orderBy items outputs distinct) fun k' w' => k'.Fits L.toAccount a w' := by
  refine .bind (.mapM (fun hw h d hd => (h d hd).later hw) fun o _ _ hw =>
    Scope.holds_bindSortKey (hk.scope.later hw) outputs distinct o) fun keys w₁ h₁ hkeys => .pure ?_
  have hk := hk.later h₁
  refine .withPlan hk.scope ((hk.plan.define fun d hd => ?_).ordered _)
  obtain ⟨r, hr, hd⟩ := List.mem_filterMap.1 hd
  exact (hkeys r hr d hd).of_eq hk.schema

theorem Sql.Select.holds_checkOrder (s : Sql.Select Sql.Query)
    (items : List (Sql.OrderItem Sql.Expr)) {scope : Scope} (hs : scope.Fits L.toAccount w) :
    L.Holds w (s.checkOrder items scope) fun _ _ => True :=
  .mono (.forM (S := fun _ => True) fun o _ _ hw =>
    .ite (fun _ => .map ((Scope.holds_bindChecked (hs.later hw)
    o.expr).mono fun _ _ _ _ => trivial)) fun _ => .pure trivial) fun _ _ _ _ => trivial

namespace Progress

variable {p : Progress}

theorem fits_record (hp : p.block.Fits L.toAccount a w) {r : Result Block}
    (hr : ∀ k, r = .ok k → k.Fits L.toAccount a w) : (p.record r).block.Fits L.toAccount a w := by
  cases r with
  | ok k => exact .withPlan (hr k rfl).scope (hr k rfl).plan
  | error e => exact hp

variable (hp : p.block.Fits L.toAccount a w)

include hp

theorem holds_extend {clause : Block → BindM Block}
    (h : p.block.Fits L.toAccount a w → L.Holds w (clause p.block) fun k w' =>
      k.Fits L.toAccount a w') :
    L.Holds w (p.extend clause) fun p w' => p.block.Fits L.toAccount a w' :=
  (L.attempt (h hp)).bind fun _ _ hw hr => .pure (fits_record (hp.later hw) hr)

theorem holds_abandon {α : Type} {F : α → L.World → Prop} (s : Sql.Select Sql.Query)
    (tail : QueryTail) : L.Holds w (p.abandon s tail : BindM α) F :=
  (holds_extend hp (s.holds_limitRows tail)).bind fun _ _ _ _ => .throw (by simp)

end Progress

namespace QueryBinder

variable {p : Progress}

theorem holds_project (hp : p.block.Fits L.toAccount a w) (s : Sql.Select Sql.Query)
    (tail : QueryTail) :
    L.Holds w (project p s tail) fun r w' => r.1.block.Fits L.toAccount a w' ∧
    ∀ o ∈ r.2, L.Gives w' o.source := by
  refine (L.attempt (Scope.holds_bindItems hp.scope s.items)).bind fun bound w₁ h₁ hbound => ?_
  have hp := hp.later h₁
  split
  next values outputs =>
    obtain ⟨hvalues, houtputs⟩ := hbound _ rfl
    exact .pure ⟨.withPlan hp.scope (hp.plan.define fun d hd => (hvalues d hd).of_eq hp.schema),
      houtputs⟩
  next =>
    refine (L.attempt (s.holds_checkOrder tail.orderBy hp.scope)).bind fun _ _ h₂ _ =>
      Progress.holds_abandon (a := a) ?_ s tail
    exact hp.later h₂

theorem fits_deduplicated (hp : p.block.Fits L.toAccount a w) (outputs : List OutputColumn)
    (distinct : Bool) : (deduplicated p outputs distinct).block.Fits L.toAccount a w := by
  unfold deduplicated
  split
  · refine .withPlan hp.scope ⟨hp.plan.rows.above rfl rfl nofun fun _ =>
      trivial, fun hst f hf => ?_⟩
    obtain ⟨c, -, hc⟩ := List.mem_filterMap.1 hf
    exact hp.plan.names hst f (Schema.mem_of_field? hc)
  · exact hp

theorem holds_ordering (hp : p.block.Fits L.toAccount a w) (tail : QueryTail)
    (outputs : List OutputColumn)
    (distinct : Bool) : L.Holds w (ordering p tail outputs distinct) fun p w' =>
      p.block.Fits L.toAccount a w' :=
  .ite (fun _ => .pure hp) fun _ => Progress.holds_extend hp fun hk =>
    Block.holds_orderBy hk _ outputs distinct

end QueryBinder

end BatchPlan
