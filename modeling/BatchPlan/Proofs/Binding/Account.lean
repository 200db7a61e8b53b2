import BatchPlan.Proofs.Typing.Plans

namespace BatchPlan

/-- An operator that neither keeps rows nor reads kept ones, and that is no join. -/
def Plan.isPlain : Plan → Bool
  | .spool .. | .consumer .. | .join .. => false
  | _ => true

structure Account where
  /-- The times of binding. -/
  World : Type
  [order : Preorder World]
  /-- Values that can be read at a time. -/
  Value : World → Scalar → Prop
  /-- Plans that were made between two times. -/
  Rows : World → World → Plan → Prop
  /-- Two plans that were made between two times and have nothing in common. -/
  Pair : World → World → Plan → Plan → Prop
  /-- Stored tables that can be read. -/
  Stored : Scan → Prop
  /-- The number of a spool that was new between two times. -/
  Fresh : World → Nat → World → Prop
  /-- What can be read of the query around one, or of the row to the left. -/
  View : Type
  query : List Level → View
  apply : Level → List Level → View
  Owns : World → View → Captured → Prop
  /-- A time inside of a query that has read some columns of the query around it. -/
  inside : View → List Captured → World → World
  /-- A time inside of a step that reads a row by some parameters. -/
  recursing : List String → World → World
  /-- Levels whose columns can be read. -/
  Sees : World → List Level → Prop
  /-- Levels around a query. -/
  Around : World → List Level → Prop
  /-- Levels around a source. -/
  Feeds : World → List Level → Prop
  /-- Whether the account keeps a ledger. -/
  strict : Prop := False
  ledger : World → Ledger := fun _ => ⟨[], 0⟩
  value_later : ∀ {w w' : World} {e : Scalar}, w ≤ w' → Value w e → Value w' e
  value_given : ∀ {w : World} {c : Column}, (strict → (ledger w).Gives c) → Value w (.column c)
  value_made : ∀ {w : World} {values : List Scalar} {e : Scalar}, e.MadeOf values →
    (∀ v ∈ values, Value w v) → Value w e
  value_operand : ∀ {w : World} {e d : Scalar}, Value w e → d ∈ e.operands → Value w d
  value_inside : ∀ {w : World} {e : Scalar} (v : View) (own : List Captured), Value w e →
    Value (inside v own w) e
  value_param : ∀ {w : World} {params : List String} {param : String} {type : DataType},
    param ∈ params →
    (strict → (ledger w).Types param type) → Value (recursing params w) (.outer param type)
  value_logged : ∀ {w : World} {e : Scalar}, strict → Value w e → e.Logged (ledger w) := by
    intro _ _ h
    exact h.elim
  ledger_later : ∀ {w w' : World}, w ≤ w' → ledger w ≤ ledger w' := by
    intros
    exact le_refl _
  ledger_inside : ∀ (v : View) (own : List Captured) (w : World),
    ledger (inside v own w) = ledger w := by
    intros
    rfl
  ledger_recursing : ∀ (params : List String) (w : World),
    ledger (recursing params w) = ledger w := by
    intros
    rfl
  owns_later : ∀ {w w' : World} {v : View} {c : Captured}, w ≤ w' → Owns w v c → Owns w' v c
  lends : ∀ {w : World} {levels : List Level} {c : Captured}, strict → Owns w (query levels) c →
    (ledger w).Lends (Visible levels 0) c := by
    intro _ _ _ h
    exact h.elim
  lends_apply : ∀ {w : World} {l : Level} {levels : List Level} {c : Captured}, strict →
    Owns w (apply l levels) c →
    (ledger w).Lends (fun e => Visible (l :: levels) 0 e ∨ Visible (l :: levels) 1 e) c := by
    intro _ _ _ _ h
    exact h.elim
  inside_later : ∀ {w w' : World} (v : View) (own : List Captured), w ≤ w' →
    inside v own w ≤ inside v own w'
  recursing_later : ∀ {w w' : World} (params : List String), w ≤ w' →
    recursing params w ≤ recursing params w'
  fresh_inside : ∀ {w w' : World} {id : Nat} (v : View) (own : List Captured), Fresh w id w' →
    Fresh (inside v own w) id (inside v own w')
  rows_mono : ∀ {a a' w w' : World} {p : Plan}, a' ≤ a → w ≤ w' → Rows a w p → Rows a' w' p
  rows_above : ∀ {a w : World} {p q : Plan}, Rows a w p → q.isPlain → q.children = [p] →
    (∀ e ∈ q.expressions, Value w e) → (strict → q.RecordsTypes) → Rows a w q
  rows_leaf : ∀ {a w : World} {p : Plan}, a ≤ w → p.isPlain → p.children = [] → (∀ s, p ≠ .scan s) →
    (∀ e ∈ p.expressions, Value w e) → (strict → p.RecordsTypes) → Rows a w p
  rows_scan : ∀ {a w : World} {s : Scan}, a ≤ w → Stored s → Rows a w (.scan s)
  pair : ∀ {a m w : World} {p q : Plan}, Rows a m p → Rows m w q → Pair a w p q
  pair_symm : ∀ {a w : World} {p q : Plan}, Pair a w p q → Pair a w q p
  pair_later : ∀ {a w w' : World} {p q : Plan}, w ≤ w' → Pair a w p q → Pair a w' p q
  pair_above : ∀ {a w : World} {p p' q : Plan}, Pair a w p q → p'.isPlain → p'.children = [p] →
    (∀ e ∈ p'.expressions, Value w e) → (strict → p'.RecordsTypes) → Pair a w p' q
  rows_join : ∀ {a w : World} {p q : Plan} {spec : JoinSpec}, Pair a w p q →
    spec.strategy.bindings = [] →
    (∀ e ∈ (Plan.join p q spec).expressions, Value w e) → (strict → spec.Suits (ledger w) p q) →
    Rows a w (.join p q spec)
  /-- A join with rows that are kept. -/
  rows_keep : ∀ {a w w' : World} {p q : Plan} {id : Nat} {spec : JoinSpec}, Pair a w p q →
    Fresh w id w' →
    spec.strategy = .nestedLoop [] → (∀ e ∈ (Plan.join p q spec).expressions, Value w' e) →
    (strict → spec.Checks (ledger w') p.schema q.schema ∧ (spec.definitions ≠ [] → q.params = [])) →
    Rows a w' (.join p (.spool id q .eager .table) spec)
  rows_loop : ∀ {a m w : World} {p q : Plan} {spec : JoinSpec} {v : View} {own : List Captured},
    Rows a m p →
    Rows (inside v own m) (inside v own w) q → spec.strategy.bindings = own.map (·.binding) →
    (∀ e ∈ (Plan.join p q spec).expressions, Value w e) → (strict → spec.Suits (ledger w) p q) →
    Rows a w (.join p q spec)
  rows_uncorrelated : ∀ {a w : World} {p : Plan} {v : View} {own : List Captured},
    Rows (inside v own a) (inside v own w) p → p.isCorrelated = false → Rows a w p
  rows_more : ∀ {a w : World} {p : Plan} {v : View} {first own own' : List Captured}, own ⊆ own' →
    Rows (inside v first a) (inside v own w) p → Rows (inside v own' a) (inside v own' w) p
  rows_top : ∀ {a w : World} {p : Plan} {own : List Captured}, (∀ c ∈ own, Owns w (query []) c) →
    Rows (inside (query []) own a) (inside (query []) own w) p → Rows a w p
  rows_spool : ∀ {a w w' : World} {p : Plan} {id : Nat} {kind : SpoolKind} {mode : SpoolMode},
    Rows a w p →
    Fresh w id w' → (Plan.spool id p kind mode).isTable = false → Rows a w' (.spool id p kind mode)
  /-- A partition that is read twice: to be summed up, and to be handed on. -/
  rows_replay : ∀ {a w w' : World} {p total : Plan} {id : Nat} {schema : Schema} {spec : JoinSpec}
    (kind : SpoolKind) (mode : SpoolMode) (type : JoinType), Rows a w p → Fresh w id w' →
      total.isPlain →
    total.children = [.consumer id schema] → (∀ e ∈ total.expressions, Value w' e) →
    spec.strategy = .nestedLoop [] → (Plan.join p p spec).expressions = [] →
    (strict → total.RecordsTypes) → (Plan.spool id p kind mode).isTable = false →
    Rows a w' (.join (.spool id p kind mode) (total.loop (.consumer id schema) type []) spec)
  /-- Rows of an anchor, and a step that runs for each row that is taken out. -/
  rows_stack : ∀ {a m w w' : World} {p q : Plan} {id : Nat} {schema : Schema} {spec : JoinSpec}
    {params : List String} {level : Column} {bound : Nat} (columns : List ConcatColumn)
    (kind : SpoolKind)
    (mode : SpoolMode), Rows a m p → Rows (recursing params m) (recursing params w) q →
      Fresh w id w' →
    params ⊆ spec.strategy.bindings.map (·.param) → (Plan.join p q spec).expressions = [] →
    (strict → p.Sound (ledger w') → q.Sound (ledger w') →
      (Plan.spool id (.concat [p, (Plan.join (.consumer id schema) q spec).bounded level bound]
        columns) kind mode).Sound (ledger w')) →
    Rows a w'
      (.spool id (.concat [p, (Plan.join (.consumer id schema) q spec).bounded level bound] columns)
      kind mode)
  rows_steps : ∀ {a w : World} {p : Plan} {params params' : List String}, params ⊆ params' →
    Rows (recursing params a) (recursing params w) p →
      Rows (recursing params' a) (recursing params' w) p
  rows_append : ∀ {a m w : World} {ps : List Plan} {p : Plan},
    Rows a m (.concat ps []) → Rows m w p → Rows a w (.concat (ps ++ [p]) [])
  rows_columns : ∀ {a w : World} {ps : List Plan} (columns : List ConcatColumn),
    Rows a w (.concat ps []) → Rows a w (.concat ps columns)
  rows_single : ∀ {a w : World} {p : Plan}, Rows a w (.concat [p] []) → Rows a w p
  sees_later : ∀ {w w' : World} {levels : List Level}, w ≤ w' → Sees w levels → Sees w' levels
  around_later : ∀ {w w' : World} {levels : List Level}, w ≤ w' → Around w levels → Around w' levels
  feeds_later : ∀ {w w' : World} {levels : List Level}, w ≤ w' → Feeds w levels → Feeds w' levels
  sees_nil : ∀ w : World, Sees w []
  around_nil : ∀ w : World, Around w []
  around_of_sees : ∀ {w : World} {outer : List Level} (l : Level), Sees w outer →
    Around w (l :: outer)
  around_of_feeds : ∀ {w : World} {levels : List Level}, Feeds w levels → Around w levels
  sees_inside : ∀ {w : World} {levels : List Level} (own : List Captured), Around w levels →
    Sees (inside (query levels) own w) levels
  feeds_inside : ∀ {w : World} {levels : List Level} (own : List Captured), Around w levels →
    Feeds (inside (query levels) own w) (Scope.ofSchema .empty levels).levels
  feeds_apply : ∀ {w : World} {levels : List Level} (l : Level) (own : List Captured),
    Feeds w levels → Feeds (inside (apply l levels) own w) (l :: levels)

attribute [instance] Account.order

namespace Account

variable {A : Account} {a m w w' : A.World} {bound : BoundQuery} {s s' : Schema}
    {c : Column} {e : Scalar}
  {d : Definition} {levels : List Level}

/-- A column that has a source, or a name that was given out. -/
def Gives (A : Account) (w : A.World) (c : Column) : Prop :=
  A.strict → (A.ledger w).Gives c

def Coins (A : Account) (w : A.World) (name : String) : Prop :=
  A.strict → (A.ledger w).Coined name

/-- A name that was new between two times. -/
def News (A : Account) (w : A.World) (name : String) (w' : A.World) : Prop :=
  A.strict → (A.ledger w').Coined name ∧ (A.ledger w).Lacks name

section

variable {name : String}

theorem Gives.later (h : A.Gives w c) (hw : w ≤ w') : A.Gives w' c :=
  fun hst => (h hst).mono (A.ledger_later hw)

theorem Coins.later (h : A.Coins w name) (hw : w ≤ w') : A.Coins w' name :=
  fun hst => (h hst).mono (A.ledger_later hw)

theorem News.coins (h : A.News w name w') : A.Coins w' name :=
  fun hst => (h hst).1

theorem Coins.gives (h : A.Coins w name) : A.Gives w (.bare name) :=
  fun hst => (h hst).gives

end

theorem Value.later (h : A.Value w e) (hw : w ≤ w') : A.Value w' e :=
  A.value_later hw h

theorem value_of_operands (h : ∀ d ∈ e.operands, A.Value w d) (he : e.isLeaf = false) :
    A.Value w e :=
  A.value_made (Scalar.madeOf_of_operands (fun _ hd => Scalar.madeOf_of_mem hd) he) h

@[simp]
theorem value_column : A.Value w (.column c) ↔ A.Gives w c :=
  ⟨fun h hst => Scalar.logged_column.1 (A.value_logged hst h), A.value_given⟩

@[simp]
theorem value_literal (v : BatchPlan.Value) : A.Value w (.literal v) :=
  value_of_operands nofun rfl

@[simp]
theorem value_unary {op : UnaryOp} : A.Value w (.unary op e) ↔ A.Value w e :=
  ⟨fun h => A.value_operand h (List.mem_singleton.2 rfl),
    fun h => value_of_operands (List.forall_mem_singleton.2 h) rfl⟩

@[simp]
theorem value_binary {l r : Scalar} {op : BinaryOp} :
    A.Value w (.binary l op r) ↔ A.Value w l ∧ A.Value w r := by
  refine ⟨fun h => ⟨A.value_operand h ?_, A.value_operand h ?_⟩, fun h => value_of_operands ?_ rfl⟩
  · exact List.mem_cons_self
  · exact List.mem_cons_of_mem _ List.mem_cons_self
  · exact List.forall_mem_cons.2 ⟨h.1, List.forall_mem_singleton.2 h.2⟩

/-- A value that can be added to rows. -/
structure Defines (A : Account) (w : A.World) (s : Schema) (d : Definition) : Prop where
  value : A.Value w d.expr
  checks : A.strict → d.Checks (A.ledger w) s

/-- An aggregate that can be computed over rows, also when they get more columns. -/
structure Sums (A : Account) (w : A.World) (s : Schema) (v : AggregateValue) : Prop where
  args : ∀ e ∈ v.args, A.Value w e
  checks : A.strict → ∀ s', s.Extends s' → v.Checks (A.ledger w) s'

theorem value_conjunction? {es : List Scalar} (h : ∀ e ∈ es, A.Value w e) :
    ∀ e ∈ Scalar.conjunction? es, A.Value w e :=
  Scalar.forall_conjunction? (fun _ _ hl hr => value_binary.2 ⟨hl, hr⟩) h

theorem Defines.later (h : A.Defines w s d) (hw : w ≤ w') : A.Defines w' s d :=
  ⟨h.value.later hw, fun hst => (h.checks hst).mono (A.ledger_later hw)⟩

theorem Defines.coins (h : A.Defines w s d) : A.Coins w d.name :=
  fun hst => (h.checks hst).coined

theorem defines_column {name : String} {dataType : DataType} (hc : A.Gives w c)
    (htype : A.strict → ∀ found, s.resolve c = .ok found → found.2.dataType = dataType)
    (hname : A.Coins w name) : A.Defines w s { name, expr := .column c, dataType } :=
  ⟨value_column.2 hc, fun hst => ⟨Definition.records_column rfl (htype hst), hname hst⟩⟩

theorem defines_literal {v : BatchPlan.Value} (hexpr : d.expr = .literal v)
    (htype : d.dataType = v.dataType) (hname : A.Coins w d.name) : A.Defines w s d := by
  refine ⟨hexpr ▸ value_literal v, fun hst => ⟨fun t ht => ?_, hname hst⟩⟩
  rw [hexpr, Scalar.dataType] at ht
  cases ht
  exact htype

theorem Defines.of_eq (h : A.Defines w s d) (hs : A.strict → s = s') : A.Defines w s' d :=
  ⟨h.value, fun hst => hs hst ▸ h.checks hst⟩

section

variable {v : AggregateValue}

theorem Sums.later (h : A.Sums w s v) (hw : w ≤ w') : A.Sums w' s v :=
  ⟨fun e he => (h.args e he).later hw, fun hst s' hs =>
    (h.checks hst s' hs).mono (A.ledger_later hw)⟩

theorem Sums.over (h : A.Sums w s v) (hs : A.strict → s.Extends s') : A.Sums w s' v :=
  ⟨h.args, fun hst s'' hs' => h.checks hst s'' ((hs hst).trans hs')⟩

theorem Sums.coins (h : A.Sums w s v) : A.Coins w v.name :=
  fun hst => (h.checks hst s (.refl s)).coined

theorem sums_rowCount {name : String} (hname : A.Coins w name) : A.Sums w s (.rowCount name) :=
  ⟨nofun, fun hst _ _ => ⟨rfl, hname hst⟩⟩

end

/-- Times that go by with others. -/
structure Beside (A : Account) (i : A.World → A.World) : Prop where
  later : ∀ {w w' : A.World}, w ≤ w' → i w ≤ i w'
  ledger : ∀ w : A.World, A.ledger (i w) = A.ledger w

/-- What is known at a time is known at another one that goes along with it. -/
structure Along (A : Account) (i : A.World → A.World) : Prop extends Beside A i where
  value : ∀ {w : A.World} {e : Scalar}, A.Value w e → A.Value (i w) e
  fresh : ∀ {w w' : A.World} {id : Nat}, A.Fresh w id w' → A.Fresh (i w) id (i w')

theorem along_id (A : Account) : A.Along id :=
  ⟨⟨id, fun _ => rfl⟩, id, id⟩

theorem along_inside (A : Account) (v : A.View) (own : List Captured) : A.Along (A.inside v own) :=
  ⟨⟨A.inside_later v own, A.ledger_inside v own⟩, A.value_inside v own, A.fresh_inside v own⟩

theorem beside_recursing (A : Account) (params : List String) : A.Beside (A.recursing params) :=
  ⟨A.recursing_later params, A.ledger_recursing params⟩

/-- Rows whose columns can be read. -/
structure Shows (A : Account) (a w : A.World) (p : Plan) : Prop where
  rows : A.Rows a w p
  names : A.strict → p.schema.Named (A.ledger w)

section

variable {p q left right : Plan} {keys : List SortKey} {values : List Definition}
    {spec : Aggregation}
  {more : List Field}

theorem named_define (h : p.schema.Named (A.ledger w))
    (hvalues : ∀ d ∈ values, A.Defines w p.schema d)
    (hst : A.strict) : (p.define values).schema.Named (A.ledger w) := by
  unfold Plan.define
  split
  · exact h
  · exact h.append rfl (List.forall_mem_map.2 fun d hd => (hvalues d hd).coins.gives hst)

section

variable (hvalues : ∀ v ∈ spec.values, A.Sums w p.schema v)

include hvalues

theorem values_aggregate : ∀ e ∈ (p.aggregate spec).expressions, A.Value w e :=
  List.forall_mem_flatMap.2 fun v hv => (hvalues v hv).args

theorem records_aggregate (hst : A.strict) : (p.aggregate spec).RecordsTypes :=
  fun v hv => ((hvalues v hv).checks hst _ (.refl _)).records

end

namespace Rows

theorem later (h : A.Rows a w p) (hw : w ≤ w') : A.Rows a w' p :=
  A.rows_mono (le_refl a) hw h

theorem above (h : A.Rows a w p) (hq : q.isPlain) (hchildren : q.children = [p])
    (hexpressions : ∀ e ∈ q.expressions, A.Value w e) (hrecords : A.strict → q.RecordsTypes) :
    A.Rows a w q :=
  A.rows_above h hq hchildren hexpressions hrecords

theorem ordered (h : A.Rows a w p) (keys : List SortKey) : A.Rows a w (p.ordered keys) := by
  unfold Plan.ordered
  split
  · exact h
  · exact h.above rfl rfl nofun fun _ => trivial

theorem define (h : A.Rows a w p) (hvalues : ∀ d ∈ values, A.Value w d.expr)
    (hchecks : ∀ d ∈ values, A.Defines w' p.schema d) : A.Rows a w (p.define values) := by
  unfold Plan.define
  split
  · exact h
  · exact h.above rfl rfl (List.forall_mem_map.2 hvalues) fun hst d hd =>
      ((hchecks d hd).checks hst).records

theorem aggregate (h : A.Rows a w p) (hvalues : ∀ v ∈ spec.values, A.Sums w p.schema v) :
    A.Rows a w (p.aggregate spec) :=
  h.above rfl rfl (values_aggregate hvalues) (records_aggregate hvalues)

end Rows

namespace Shows

variable (h : A.Shows a w p)

include h

theorem later (hw : w ≤ w') : A.Shows a w' p :=
  ⟨h.rows.later hw, fun hst => (h.names hst).mono (A.ledger_later hw)⟩

theorem above (hq : A.Rows a w q) (hfields : q.schema.fields = p.schema.fields ++ more)
    (hmore : ∀ f ∈ more, A.Gives w f.column) : A.Shows a w q :=
  ⟨hq, fun hst => (h.names hst).append hfields fun f hf => hmore f hf hst⟩

theorem same (hq : A.Rows a w q) (hfields : q.schema.fields = p.schema.fields) : A.Shows a w q :=
  ⟨hq, fun hst => (h.names hst).same hfields⟩

theorem ordered (keys : List SortKey) : A.Shows a w (p.ordered keys) :=
  h.same (h.rows.ordered keys) (Plan.fields_ordered p keys)

theorem define (hvalues : ∀ d ∈ values, A.Defines w p.schema d) : A.Shows a w (p.define values) :=
  ⟨h.rows.define (fun d hd => (hvalues d hd).value) hvalues, fun hst =>
    named_define (h.names hst) hvalues hst⟩

theorem aggregate (hvalues : ∀ v ∈ spec.values, A.Sums w p.schema v) :
    A.Shows a w (p.aggregate spec) := by
  refine ⟨h.rows.aggregate hvalues, fun hst => List.forall_mem_append.2 ⟨fun f hf => ?_, ?_⟩⟩
  · obtain ⟨c, -, hc⟩ := List.mem_filterMap.1 hf
    exact h.names hst f (Schema.mem_of_field? hc)
  · exact List.forall_mem_map.2 fun v hv => (hvalues v hv).coins.gives hst

theorem grouped (keys : List Column) (within : List SortKey) {values : List AggregateValue}
    (hvalues : ∀ v ∈ values, A.Sums w p.schema v) : A.Shows a w (p.grouped keys within values) := by
  unfold Plan.grouped
  dsimp only
  split
  · exact h.aggregate hvalues
  · exact (h.ordered _).aggregate fun v hv => (hvalues v hv).over fun _ => Plan.extends_ordered p _

end Shows

theorem shows_oneRow (h : a ≤ w) : A.Shows a w .oneRow :=
  ⟨A.rows_leaf h rfl rfl (by simp [Plan.oneRow]) (by simp [Plan.oneRow, Plan.expressions])
    fun _ => trivial, fun _ => Schema.named_empty⟩

/-- The columns of a join come from its sides, or are new. -/
theorem Shows.join {spec : JoinSpec} (h : A.Rows a w (.join left right spec))
    (hleft : A.strict → left.schema.Named (A.ledger w))
    (hright : A.strict → spec.output ≠ .left → right.schema.Named (A.ledger w))
    (hdefinitions : ∀ d ∈ spec.definitions, A.Coins w d.name) :
    A.Shows a w (.join left right spec) :=
  ⟨h, fun hst => Schema.named_join (fun _ => hleft hst) (hright hst)
    fun d hd => hdefinitions d hd hst⟩

/-- Two plans that have nothing in common, with columns that can be read. -/
structure Sides (A : Account) (a w : A.World) (left right : Plan) : Prop where
  pair : A.Pair a w left right
  left : A.strict → left.schema.Named (A.ledger w)
  right : A.strict → right.schema.Named (A.ledger w)

theorem Shows.sides (hleft : A.Shows a m left) (hright : A.Shows m w right) (hw : m ≤ w) :
    A.Sides a w left right :=
  ⟨A.pair hleft.rows hright.rows, fun hst => (hleft.names hst).mono (A.ledger_later hw),
    hright.names⟩

namespace Sides

theorem symm (h : A.Sides a w left right) : A.Sides a w right left :=
  ⟨A.pair_symm h.pair, h.right, h.left⟩

theorem later (h : A.Sides a w left right) (hw : w ≤ w') : A.Sides a w' left right :=
  ⟨A.pair_later hw h.pair, fun hst => (h.left hst).mono (A.ledger_later hw),
    fun hst => (h.right hst).mono (A.ledger_later hw)⟩

theorem define (h : A.Sides a w left right) (hvalues : ∀ d ∈ values, A.Defines w left.schema d) :
    A.Sides a w (left.define values) right := by
  refine ⟨?_, fun hst => named_define (h.left hst) hvalues hst, h.right⟩
  unfold Plan.define
  split
  · exact h.pair
  · exact A.pair_above h.pair rfl rfl (List.forall_mem_map.2 fun d hd => (hvalues d hd).value)
      fun hst d hd => ((hvalues d hd).checks hst).records

theorem ordered (h : A.Sides a w left right) (keys : List SortKey) :
    A.Sides a w (left.ordered keys) right := by
  refine ⟨?_, fun hst => ?_, h.right⟩
  · unfold Plan.ordered
    split
    · exact h.pair
    · exact A.pair_above h.pair rfl rfl nofun fun _ => trivial
  · exact (h.left hst).same (Plan.fields_ordered left keys)

variable (h : A.Sides a w left right) {condition : Option Scalar} {residue : List Scalar}

include h

theorem side (merges : Bool) (key : Column) :
    A.Sides a w (if merges then left.ordered [⟨key, .asc⟩] else left) right := by
  split
  · exact h.ordered _
  · exact h

variable (leftKey rightKey : Column)

/-- A join on keys, by hashing or by merging sides that are sorted by their keys first. -/
theorem sidesJoin (merges : Bool) (type : JoinType) (hcondition : ∀ e ∈ condition, A.Value w e) :
    A.Shows a w (.join (if merges then left.ordered [⟨leftKey, .asc⟩] else left)
      (if merges then right.ordered [⟨rightKey, .asc⟩] else right)
      { type, strategy := if merges then .merge leftKey rightKey else .hash leftKey rightKey,
        condition }) := by
  have hsides := ((h.side merges leftKey).symm.side merges rightKey).symm
  refine .join (A.rows_join hsides.pair ?_ ?_ fun _ => ?_) hsides.left
    (fun hst _ => hsides.right hst) nofun
  · cases merges <;> rfl
  · simpa [Plan.expressions] using hcondition
  · exact Plan.suits_sides merges leftKey rightKey type condition

theorem keyJoin (type : JoinType) (hresidue : ∀ e ∈ residue, A.Value w e) :
    A.Shows a w (left.keyJoin right leftKey rightKey type residue) := by
  have hcondition := value_conjunction? hresidue
  unfold Plan.keyJoin
  dsimp only
  split
  · have hjoin (merges : Bool) :=
      h.sidesJoin leftKey rightKey merges type (fun e (he : e ∈ none) => nomatch he)
    split
    next predicate hpredicate =>
      exact (hjoin _).same ((hjoin _).rows.above rfl rfl
        (List.forall_mem_singleton.2 (hcondition predicate hpredicate)) fun _ => trivial) rfl
    · exact hjoin _
  · exact h.sidesJoin leftKey rightKey _ type hcondition

end Sides

end

/-- A query that was bound between two times. -/
structure Answers (A : Account) (a w : A.World) (levels : List Level) (bound : BoundQuery) :
    Prop where
  rows : A.Rows (A.inside (A.query levels) bound.captured a)
    (A.inside (A.query levels) bound.captured w) bound.plan.root
  owned : ∀ c ∈ bound.captured, A.Owns w (A.query levels) c
  listed : A.strict → bound.plan.Listed (A.ledger w)

theorem Answers.top (h : A.Answers a w [] bound) : A.Rows a w bound.plan.root :=
  A.rows_top h.owned h.rows

/-- A subquery that was bound between two times. If it is said to read nothing, it reads no
parameters. -/
structure Inner (A : Account) (a w : A.World) (levels : List Level) (q : InnerQuery) : Prop where
  loops : q.correlated →
    A.Rows (A.inside (A.query levels) q.captured a) (A.inside (A.query levels) q.captured w) q.root
  plain : q.correlated = false → A.Rows a w q.root
  owned : ∀ c ∈ q.captured, A.Owns w (A.query levels) c
  honest : A.strict → q.correlated = false → q.root.params = []

theorem Answers.inner (h : A.Answers a w levels bound) : A.Inner a w levels (.ofBound bound) := by
  have hplain (hcorrelated : (InnerQuery.ofBound bound).correlated = false) :
      bound.plan.root.isCorrelated = false :=
    (Bool.or_eq_false_iff.1 hcorrelated).2
  refine ⟨fun _ => h.rows, fun hq => A.rows_uncorrelated h.rows (hplain hq),
    h.owned, fun _ hq => ?_⟩
  simpa [Plan.isCorrelated, InnerQuery.ofBound] using hplain hq

section

variable {q : InnerQuery} (h : A.Inner a w levels q)

include h

theorem Inner.later (hw : w ≤ w') : A.Inner a w' levels q where
  loops hq := (h.loops hq).later (A.inside_later _ _ hw)
  plain hq := (h.plain hq).later hw
  owned c hc := A.owns_later hw (h.owned c hc)
  honest := h.honest

theorem Inner.above {root : Plan} (hroot : root.isPlain) (hchildren : root.children = [q.root])
    (hvalues : ∀ e ∈ root.expressions, A.Value w e) (hrecords : A.strict → root.RecordsTypes)
    (hparams : q.root.params = [] → root.params = []) : A.Inner a w levels { q with root } where
  loops hq := (h.loops hq).above hroot hchildren
    (fun e he => A.value_inside _ _ (hvalues e he)) hrecords
  plain hq := (h.plain hq).above hroot hchildren hvalues hrecords
  owned := h.owned
  honest hst hq := hparams (h.honest hst hq)

end

end Account

/-- Names of a query that can be read. -/
structure Scope.Fits (s : Scope) (A : Account) (w : A.World) : Prop where
  outer : A.Sees w s.outer
  computed : ∀ entry ∈ s.computed, A.Value w entry.2
  names : A.strict → s.schema.Named (A.ledger w)

/-- A block whose rows were made between two times. -/
structure Block.Fits (k : Block) (A : Account) (a w : A.World) : Prop where
  plan : A.Shows a w k.plan
  scope : k.scope.Fits A w
  schema : A.strict → k.scope.schema = k.plan.schema

section

variable {A : Account} {a w w' : A.World} {s : Scope} {k : Block} {plan : Plan}

theorem Scope.fits_ofSchema {schema : Schema} {outer : List Level} (h : A.Sees w outer)
    (hnames : A.strict → schema.Named (A.ledger w)) : (Scope.ofSchema schema outer).Fits A w :=
  ⟨h, nofun, hnames⟩

theorem Scope.fits_ofEmpty {outer : List Level} (h : A.Sees w outer) :
    (Scope.ofSchema .empty outer).Fits A w :=
  fits_ofSchema h fun _ => Schema.named_empty

theorem Scope.fits_empty (w : A.World) : Scope.empty.Fits A w :=
  ⟨A.sees_nil w, nofun, fun _ => Schema.named_empty⟩

theorem Scope.Fits.later (h : s.Fits A w) (hw : w ≤ w') : s.Fits A w' :=
  ⟨A.sees_later hw h.outer, fun entry hentry => (h.computed entry hentry).later hw,
    fun hst => (h.names hst).mono (A.ledger_later hw)⟩

theorem Scope.Fits.foldl_addComputed (hs : s.Fits A w) {found : List (String × Scalar)}
    (hfound : ∀ entry ∈ found, A.Value w entry.2) :
    (found.foldl (fun s entry => s.addComputed entry.1 entry.2) s).Fits A w := by
  induction found generalizing s with
  | nil => exact hs
  | cons entry rest ih =>
    rw [List.forall_mem_cons] at hfound
    exact ih ⟨hs.outer, List.forall_mem_cons.2 ⟨hfound.1, hs.computed⟩, hs.names⟩ hfound.2

namespace Block.Fits

theorem later (h : k.Fits A a w) (hw : w ≤ w') : k.Fits A a w' :=
  ⟨h.plan.later hw, h.scope.later hw, h.schema⟩

theorem withPlan (hk : k.scope.Fits A w) (hplan : A.Shows a w plan) :
    (k.withPlan plan).Fits A a w :=
  ⟨hplan, ⟨hk.outer, hk.computed, hplan.names⟩, fun _ => rfl⟩

theorem addComputed (hk : k.scope.Fits A w) (hplan : A.Shows a w plan) (key : String)
    {value : Scalar} (hvalue : A.Value w value) :
    Block.Fits ⟨plan, (k.scope.withSchema plan.schema).addComputed key value⟩ A a w :=
  ⟨hplan, ⟨hk.outer, List.forall_mem_cons.2 ⟨hvalue, hk.computed⟩, hplan.names⟩, fun _ => rfl⟩

end Block.Fits

end

end BatchPlan
