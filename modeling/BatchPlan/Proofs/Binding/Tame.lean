import BatchPlan.Program
import BatchPlan.Proofs.Binding.Drafts
import BatchPlan.Proofs.Binding.Stable

namespace BatchPlan

theorem BindState.provides_all (s₀ : BindState) : s₀.Provides .all :=
  ⟨fun _ => trivial, fun _ _ => trivial, fun _ _ _ _ => trivial⟩

abbrev Logic.tame (s₀ : BindState) : Logic :=
  .stable s₀.provides_all

theorem Scope.fits_all (s : Scope) : s.Fits (.ofVocabulary .all) s.outer.length :=
  ⟨Nat.le_refl _, fun _ _ => Scalar.usesOnly_all _, False.elim⟩

theorem Block.fits_all (k : Block) : k.Fits (.ofVocabulary .all) (0 : Nat) k.scope.outer.length :=
  ⟨⟨k.plan.usesOnly_all, False.elim⟩, k.scope.fits_all, False.elim⟩

namespace Scope

variable (s : Scope)

theorem tame_bindChecked (e : Sql.Expr) : Tame (s.bindChecked e) :=
  .of_stable fun s₀ => holds_bindChecked (L := .tame s₀) s.fits_all e

theorem tame_bindPredicate (e : Sql.Expr) : Tame (s.bindPredicate e) :=
  .of_stable fun s₀ => holds_bindPredicate (L := .tame s₀) s.fits_all e

theorem tame_bindItems (items : List (Sql.SelectItem Sql.Query)) : Tame (s.bindItems items) :=
  .of_stable fun s₀ => holds_bindItems (L := .tame s₀) s.fits_all items

theorem tame_bindSortKey (outputs : List OutputColumn) (distinct : Bool)
    (o : Sql.OrderItem Sql.Expr) : Tame (s.bindSortKey outputs distinct o) :=
  .of_stable fun s₀ => holds_bindSortKey (L := .tame s₀) s.fits_all outputs distinct o

end Scope

theorem Plan.tame_withColumn (p : Plan) (e : Scalar) : Tame (p.withColumn e) :=
  .of_stable fun s₀ => holds_withColumn (L := .tame s₀) (w := (0 : Nat)) e.usesOnly_all p

theorem GroupInput.tame_order (s : Scope) (g : GroupInput) (f : AggregateFunction)
    (call : Sql.Call Sql.Expr) : Tame (g.order s f call) :=
  .of_stable fun s₀ => holds_order (L := .tame s₀) s.fits_all
    (fun _ _ => ⟨Scalar.usesOnly_all _, nofun⟩) f call

theorem WindowInput.tame_segmented (w : WindowInput) (order : List SortKey) :
    Tame (w.segmented order) :=
  BindM.tame_freshSegment.bind fun _ => .pure _

namespace Block

variable (k : Block)

theorem tame_windowInput (call : Sql.Call Sql.Expr) (partitionBy : List Sql.Expr)
    (orderBy : List (Sql.OrderItem Sql.Expr)) : Tame (k.windowInput call partitionBy orderBy) :=
  .of_stable fun s₀ => holds_windowInput (L := .tame s₀) k.fits_all call partitionBy orderBy

theorem tame_windows (es : List Sql.Expr) : Tame (k.windows es) :=
  .of_stable fun s₀ => holds_windows (L := .tame s₀) k.fits_all es

theorem tame_orderBy (items : List (Sql.OrderItem Sql.Expr)) (outputs : List OutputColumn)
    (distinct : Bool) : Tame (k.orderBy items outputs distinct) :=
  .of_stable fun s₀ => holds_orderBy (L := .tame s₀) k.fits_all items outputs distinct

end Block

theorem Sql.Select.tame_limitRows (s : Sql.Select Sql.Query) (tail : QueryTail) (k : Block) :
    Tame (s.limitRows tail k) :=
  .of_stable fun s₀ => s.holds_limitRows (L := .tame s₀) tail k.fits_all

theorem InnerQuery.inner_all (q : InnerQuery) :
    (Account.ofVocabulary .all).Inner (0 : Nat) (0 : Nat) [] q :=
  ⟨fun _ => q.root.usesOnly_all, fun _ => q.root.usesOnly_all, fun _ _ => trivial, nofun⟩

theorem InnerQuery.tame_joinTo (q : InnerQuery) (left : Plan) (condition : Option Scalar)
    (definitions : List Definition) : Tame (q.joinTo left condition definitions) :=
  .of_stable fun s₀ => holds_joinTo (L := .tame s₀)
    (a := (0 : Nat)) left.usesOnly_all nofun q.inner_all nofun
    (fun _ _ => Scalar.usesOnly_all _) fun _ _ => ⟨Scalar.usesOnly_all _, nofun⟩

structure QueryBinder.IsTame (b : QueryBinder) : Prop where
  query : ∀ q outer, Tame (b.query q outer)
  body : ∀ e outer, Tame (b.body e outer)

namespace QueryBinder

theorem tame_membership (inner : InnerQuery) (plan : Plan) (outerColumn innerColumn : Column)
    (name : String) : Tame (membership inner plan outerColumn innerColumn [foundFlag name]) :=
  .of_stable fun s₀ => holds_membership (L := .tame s₀)
    (a := (0 : Nat)) plan.usesOnly_all nofun inner.inner_all
    nofun nofun nofun nofun

theorem isTame_ofDepth (depth : Nat) : (ofDepth depth).IsTame where
  query q outer := .of_stable fun s₀ =>
    (binds_ofDepth (Logic.roams_stable s₀.provides_all) depth).query (w := outer.length)
      q (Nat.le_succ _)
  body e outer := .of_stable fun s₀ =>
    (binds_ofDepth (Logic.roams_stable s₀.provides_all) depth).body (w := outer.length)
      e (Nat.le_succ _)

variable {b : QueryBinder} (hb : b.IsTame)

include hb

theorem IsTame.binds (s₀ : BindState) : (Logic.tame s₀).Binds b where
  query q levels _ := (hb.query q levels).stable fun _ =>
    ⟨Plan.usesOnly_all _, fun _ _ => trivial, nofun⟩
  body e levels _ := (hb.body e levels).stable fun _ =>
    ⟨Plan.usesOnly_all _, fun _ _ => trivial, nofun⟩

theorem IsTame.serves (s₀ : BindState) : (Logic.tame s₀).Serves b (fun _ => True) fun _ => True :=
  QueryBinder.serves (Logic.roams_stable s₀.provides_all) (hb.binds s₀)

theorem tame_notInWithNulls (query : Sql.Query) (k : Block) (plan : Plan) (outerColumn : Column)
    (flag : Scalar) : Tame (b.notInWithNulls query k plan outerColumn flag) :=
  .of_stable fun s₀ => holds_notInWithNulls (hb.serves s₀) k.fits_all trivial
    ⟨⟨plan.usesOnly_all, nofun⟩, nofun, flag.usesOnly_all, nofun⟩

theorem tame_flagged (e : Sql.Expr) (query : Sql.Query) (k : Block) : Tame (b.flagged e query k) :=
  .of_stable fun s₀ => holds_flagged (hb.serves s₀) k.fits_all e trivial

theorem tame_subqueries (es : List Sql.Expr) (k : Block) : Tame (b.subqueries es k) :=
  .of_stable fun s₀ => holds_subqueries (hb.serves s₀) k.fits_all fun _ _ _ _ => trivial

theorem tame_restrict (condition : Sql.Expr) (k : Block) : Tame (b.restrict condition k) :=
  .of_stable fun s₀ => holds_restrict (hb.serves s₀) k.fits_all fun _ _ => trivial

theorem tame_whereClause (condition : Sql.Expr) (k : Block) : Tame (b.whereClause condition k) :=
  .check (by simp) (tame_restrict hb condition k)

end QueryBinder

theorem QueryPlan.tame_finish (q : QueryPlan) (hints : Hints) : Tame (q.finish hints) :=
  .bind .read fun _ => .bind (BindM.tame_counted _ _) fun _ =>
    .bind (.lift (by simp)) fun _ => .pure _

theorem tame_bindThrow (args : Sql.ThrowArguments) : Tame (bindThrow args) :=
  .of_stable fun s₀ => holds_bindThrow (L := .tame s₀) (w := (0 : Nat)) args

/-- Statements may create tables and variables, but they fail with a reason as well. -/
abbrev Answers {α : Type} (x : BindM α) : Prop := Obeys (fun _ _ => True) x

instance : IsPreorder BindState fun _ _ => True where
  refl _ := trivial
  trans _ _ _ _ _ := trivial

theorem Obeys.answers {α : Type} {R : BindState → BindState → Prop} {x : BindM α} (h : Obeys R x) :
    Answers x :=
  h.mono fun _ _ _ => trivial

theorem answers_createTable (create : Sql.CreateTable) : Answers (createTable create) :=
  .check (by simp) (.check (by simp) (.bind .get fun _ => .check (by simp)
    (.bind (.lift (by simp)) fun _ => .bind (.effect fun _ => trivial) fun _ => .pure _)))

theorem answers_dropTables (ifExists : Bool) (names : List Sql.ObjectName) :
    Answers (dropTables ifExists names) := by
  induction names with
  | nil => exact .pure _
  | cons object rest ih =>
    refine .check (by simp) (.bind .get fun s => ?_)
    dsimp only
    split
    · exact .bind (.effect fun _ => trivial) fun _ => ih.bind fun _ => .pure _
    · exact .ite ih (.throw (by simp))

namespace QueryBinder

variable {b : QueryBinder} (hb : b.IsTame)

include hb

theorem tame_value (e : Sql.Expr) : Tame (b.value e) :=
  .of_stable fun s₀ => holds_value (w := (0 : Nat)) (Logic.roams_stable s₀.provides_all)
    (hb.binds s₀)
    (fun hints _ => (QueryPlan.tame_finish _ hints).stable fun _ => Plan.usesOnly_all _) e

theorem tame_condition (e : Sql.Expr) : Tame (b.condition e) :=
  .of_stable fun s₀ => holds_condition (w := (0 : Nat))
    (Logic.roams_stable s₀.provides_all) (hb.binds s₀)
    (fun hints _ => (QueryPlan.tame_finish _ hints).stable fun _ => Plan.usesOnly_all _) e

theorem tame_assignedValue (target : DataType) (e : Sql.Expr) : Tame (b.assignedValue target e) :=
  (tame_value hb e).bind fun _ => .bind (.lift (by simp)) fun _ => .bind (.lift (by simp)) fun _ =>
    .pure _

theorem tame_statement (hints : Hints) {statement : Sql.Statement} {draft : BindM Draft}
    (h : b.draft? statement = some draft) : Tame (b.statement hints statement) := by
  have htame : Tame draft := .of_stable fun s₀ => holds_draft (L := .tame s₀) (w := (0 : Nat))
    (Logic.roams_stable s₀.provides_all) (hb.binds s₀) InsertTarget.stays_find h
  rw [statement_eq b h hints]
  exact htame.bind fun d => .bind ((d.plan.tame_finish hints).bind fun _ => .pure _)
    fun _ => .pure _

theorem answers_statement (hints : Hints) (statement : Sql.Statement) :
    Answers (b.statement hints statement) := by
  cases statement with
  | query | insert | update | delete => exact (tame_statement hb hints rfl).answers
  | createTable create => exact (answers_createTable create).bind fun _ => .pure _
  | drop d => exact .ite (answers_dropTables _ _) (.throw (by simp))
  | other headline => exact .throw (by simp)

theorem answers_declare (d : Sql.Declaration) : Answers (b.declare d) := by
  have hdeclare (type : DataType) : Answers (BindM.declareVariable d.name type) :=
    .bind .get fun _ => .check (by simp) (.effect fun _ => trivial)
  exact .bind (.lift (by simp)) fun type =>
    .bind (.optionMapM (fun e => (tame_assignedValue hb type e).answers) d.initial) fun _ =>
    (hdeclare type).bind fun _ => .pure _

theorem answers_assign (name : String) (e : Sql.Expr) : Answers (b.assign name e) :=
  .bind (Obeys.of_stable fun s₀ => BindM.stable_lookupVariable s₀.provides_all name).answers
    fun _ => (tame_assignedValue hb _ e).answers.bind fun _ => .pure _

end QueryBinder

end BatchPlan
