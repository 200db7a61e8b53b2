import BatchPlan.Binding.Change
import BatchPlan.Proofs.Binding.Run
import Mathlib.Data.List.Forall2

namespace BatchPlan

/-- A computation that fails only with faults to report. -/
def Reasoned {α : Type} (r : Result α) : Prop :=
  ∀ e, r = .error e → e.flatten ≠ []

section

variable {α β : Type} {xs : List α}

attribute [simp] PlanError.flatten PlanError.refuse PlanError.unsupported PlanError.unknownObject
  widthError distinctOrderError unnamedColumnError insertWidthError

@[simp]
theorem reasoned_ok (a : α) : Reasoned (.ok a : Result α) := by
  intro e he
  cases he

@[simp]
theorem reasoned_pure (a : α) : Reasoned (pure a : Result α) :=
  reasoned_ok a

@[simp]
theorem reasoned_error (e : PlanError) : Reasoned (.error e : Result α) ↔ e.flatten ≠ [] :=
  ⟨fun h => h e rfl, fun h e' he => by cases he; exact h⟩

@[simp]
theorem reasoned_throw (e : PlanError) : Reasoned (throw e : Result α) ↔ e.flatten ≠ [] :=
  reasoned_error e

@[simp]
theorem reasoned_bind (r : Result α) (f : α → Result β) :
    Reasoned (r >>= f) ↔ Reasoned r ∧ ∀ a, r = .ok a → Reasoned (f a) := by
  cases r with
  | error e =>
    change Reasoned (.error e : Result β) ↔ _
    simp
  | ok a =>
    change Reasoned (f a) ↔ _
    simp

@[simp]
theorem reasoned_ite (p : Prop) [Decidable p] (r r' : Result α) :
    Reasoned (if p then r else r') ↔ (p → Reasoned r) ∧ (¬p → Reasoned r') := by
  by_cases hp : p <;> simp [hp]

@[simp]
theorem reasoned_map (f : α → β) (r : Result α) : Reasoned (f <$> r) ↔ Reasoned r := by
  cases r with
  | error e =>
    change Reasoned (.error e : Result β) ↔ _
    simp
  | ok a =>
    change Reasoned (.ok (f a) : Result β) ↔ _
    simp

@[simp]
theorem reasoned_discard (r : Result α) : Reasoned (discard r) ↔ Reasoned r :=
  reasoned_map (fun _ => PUnit.unit) r

theorem reasoned_forM {f : α → Result PUnit} (h : ∀ a ∈ xs, Reasoned (f a)) :
    Reasoned (forM xs f) := by
  induction xs with
  | nil => simp
  | cons a xs ih => simp_all

theorem reasoned_foldlM {f : β → α → Result β} {b : β} (h : ∀ b, ∀ a ∈ xs, Reasoned (f b a)) :
    Reasoned (xs.foldlM f b) := by
  induction xs generalizing b with
  | nil => simp
  | cons a xs ih => simp_all

end

namespace DataType

@[simp]
theorem reasoned_checkComparable (a b : DataType) : Reasoned (a.checkComparable b) := by
  simp [checkComparable, clash]

@[simp]
theorem reasoned_common (a b : DataType) : Reasoned (a.common b) := by
  simp [common]

@[simp]
theorem reasoned_arithmetic (op : String) (a b : DataType) : Reasoned (arithmetic op a b) := by
  simp [arithmetic]

@[simp]
theorem reasoned_ofName (name : Sql.TypeName) : Reasoned (ofName name) := by
  simp only [ofName]
  split <;> simp

@[simp]
theorem reasoned_checkAssignable (a b : DataType) : Reasoned (a.checkAssignable b) := by
  unfold checkAssignable
  split
  · simp
  · split <;> simp

end DataType

namespace CollationLabel

@[simp]
theorem reasoned_combine (a b : CollationLabel) : Reasoned (a.combine b) := by
  cases a <;> cases b <;> simp [combine]

@[simp]
theorem reasoned_comparison (a b : CollationLabel) : Reasoned (a.comparison b) := by
  simp only [comparison, reasoned_bind, reasoned_combine, true_and]
  intro l _
  split <;> simp

end CollationLabel

namespace Schema

@[simp]
theorem reasoned_find? (schema : Schema) (c : Column) : Reasoned (schema.find? c) := by
  unfold find?
  split <;> simp

@[simp]
theorem reasoned_resolve (schema : Schema) (c : Column) : Reasoned (schema.resolve c) := by
  simp only [resolve, reasoned_bind, reasoned_find?, true_and]
  intro found _
  split <;> simp

end Schema

namespace Scalar

@[simp]
theorem reasoned_binaryType (op : BinaryOp) (a b : DataType) : Reasoned (binaryType op a b) := by
  simp [binaryType]

end Scalar

/-- A relation between computations over two schemas that goes along with the rules for types. -/
structure TypeRelation (a b : Schema) (R : (α : Type) → Result α → Result α → Prop) : Prop where
  refl : ∀ {α : Type} {r : Result α}, Reasoned r → R α r r
  bind : ∀ {α β : Type} {r r' : Result α} {f g : α → Result β}, R α r r' → (∀ v, R β (f v) (g v)) →
    R β (r >>= f) (r' >>= g)
  column : ∀ c, R DataType ((Scalar.column c).dataType a) ((Scalar.column c).dataType b)

namespace TypeRelation

variable {a b : Schema} {R : (α : Type) → Result α → Result α → Prop} {α β : Type}
    {S : α → α → Prop}
  {xs xs' : List α} {args args' : List (Result DataType)}

theorem foldlM (h : TypeRelation a b R) (hxs : List.Forall₂ S xs xs') {f : β → α → Result β}
    (hf : ∀ v x x', S x x' → R β (f v x) (f v x')) (v : β) :
    R β (xs.foldlM f v) (xs'.foldlM f v) := by
  induction hxs generalizing v with
  | nil => exact h.refl (reasoned_ok v)
  | cons hx _ ih =>
    rw [List.foldlM_cons, List.foldlM_cons]
    exact h.bind (hf v _ _ hx) ih

theorem forM (h : TypeRelation a b R) (hxs : List.Forall₂ S xs xs') {f : α → Result PUnit}
    (hf : ∀ x x', S x x' → R PUnit (f x) (f x')) : R PUnit (xs.forM f) (xs'.forM f) := by
  induction hxs with
  | nil => exact h.refl (reasoned_ok _)
  | cons hx _ ih => exact h.bind (hf _ _ hx) fun _ => ih

theorem getD (h : TypeRelation a b R) (hargs : List.Forall₂ (R DataType) args args') (i : Nat) :
    R DataType (args.getD i (.ok .null)) (args'.getD i (.ok .null)) := by
  induction hargs generalizing i with
  | nil => exact h.refl (reasoned_ok _)
  | cons hr _ ih => cases i with
    | zero => exact hr
    | succ i => exact ih i

theorem resultType (h : TypeRelation a b R) (f : ScalarFunction)
    (hargs : List.Forall₂ (R DataType) args args') :
    R DataType (f.resultType args) (f.resultType args') := by
  unfold ScalarFunction.resultType
  cases f with
  | abs | ceiling | floor | round | dateAdd =>
    exact h.bind (h.getD hargs _) fun _ => h.refl (by simp)
  | coalesce | isNull =>
    exact h.foldlM hargs (fun _ _ _ hr => h.bind hr fun _ => h.refl (by simp)) _
  | nullIf | iif =>
    exact h.bind (h.getD hargs _) fun _ => h.bind (h.getD hargs _) fun _ => h.refl (by simp)
  | _ => exact h.refl (by simp)

mutual

theorem dataType (h : TypeRelation a b R) : ∀ e : Scalar, R DataType (e.dataType a) (e.dataType b)
  | .column c => h.column c
  | .literal _ | .var .. | .outer .. | .cast .. => by
    rw [Scalar.dataType, Scalar.dataType]
    exact h.refl (by simp)
  | .binary left op right => by
    rw [Scalar.dataType, Scalar.dataType]
    exact h.bind (h.dataType left) fun _ => h.bind (h.dataType right) fun _ => h.refl (by simp)
  | .unary op e => by
    cases op with
    | negate => simpa only [Scalar.dataType] using h.dataType e
    | _ =>
      simp only [Scalar.dataType]
      exact h.refl (by simp)
  | .call f args => by
    rw [Scalar.dataType, Scalar.dataType]
    exact h.resultType f (h.dataTypes args)
  | .case operand branches otherwise => by
    rw [Scalar.dataType, Scalar.dataType]
    have hbranches := h.branchTypes branches
    have hotherwise := h.optionType otherwise
    have hoperand := h.optionType operand
    generalize Scalar.optionType a otherwise = last, Scalar.optionType b otherwise = last',
      Scalar.optionType a operand = own, Scalar.optionType b operand = own' at hotherwise hoperand ⊢
    rcases hoperand with hown | _
    case' some =>
      refine h.bind hown fun _ => h.bind
        (h.forM hbranches fun _ _ hr => h.bind hr.1 fun _ => h.refl (by simp)) fun _ => ?_
    all_goals
      refine h.bind (h.foldlM hbranches (fun _ _ _ hr => h.bind hr.2 fun _ => h.refl (by simp)) _)
        fun t => ?_
      rcases hotherwise with hr | _
      · exact h.bind hr fun _ => h.refl (by simp)
      · exact h.refl (by simp)
  | .inList e items _ => by
    rw [Scalar.dataType, Scalar.dataType]
    exact h.bind (h.dataType e) fun _ => h.bind
      (h.forM (h.dataTypes items) fun _ _ hr => h.bind hr fun _ => h.refl (by simp))
        fun _ => h.refl (by simp)
  | .between e low high _ => by
    rw [Scalar.dataType, Scalar.dataType]
    exact h.bind (h.dataType e) fun _ => h.bind (h.dataType low) fun _ =>
      h.bind (h.refl (by simp)) fun _ => h.bind (h.dataType high) fun _ => h.refl (by simp)
  | .collate e _ => by
    rw [Scalar.dataType, Scalar.dataType]
    exact h.bind (h.dataType e) fun _ => h.refl (by simp)

theorem dataTypes (h : TypeRelation a b R) : ∀ es : List Scalar,
    List.Forall₂ (R DataType) (Scalar.dataTypes a es) (Scalar.dataTypes b es)
  | [] => .nil
  | e :: rest => .cons (h.dataType e) (h.dataTypes rest)

theorem branchTypes (h : TypeRelation a b R) : ∀ branches : List (Scalar × Scalar),
    List.Forall₂ (fun r r' => R DataType r.1 r'.1 ∧ R DataType r.2 r'.2)
      (Scalar.branchTypes a branches) (Scalar.branchTypes b branches)
  | [] => .nil
  | (c, r) :: rest => .cons ⟨h.dataType c, h.dataType r⟩ (h.branchTypes rest)

theorem optionType (h : TypeRelation a b R) : ∀ o : Option Scalar,
    Option.Rel (R DataType) (Scalar.optionType a o) (Scalar.optionType b o)
  | none => .none
  | some e => .some (h.dataType e)

end

end TypeRelation

namespace Scalar

theorem reasoned_dataType (schema : Schema) (e : Scalar) : Reasoned (e.dataType schema) :=
  TypeRelation.dataType (a := schema) (b := schema) (R := fun _ r _ => Reasoned r)
    ⟨id, fun hr hf => (reasoned_bind _ _).2 ⟨hr, fun v _ => hf v⟩, fun c => by simp [dataType]⟩ e

theorem reasoned_combineLabels (start : CollationLabel) {labels : List (Result CollationLabel)}
    (h : ∀ l ∈ labels, Reasoned l) : Reasoned (combineLabels start labels) :=
  reasoned_foldlM fun label l hl => by simp [h l hl]

theorem reasoned_collationLabel (schema : Schema) (base : Collation) (e : Scalar) :
    Reasoned (e.collationLabel schema base) := by
  apply collationLabel.induct schema (fun e => Reasoned (e.collationLabel schema base))
    (fun o => ∀ l ∈ optionLabels schema base o, Reasoned l)
    (fun branches => ∀ l ∈ branchLabels schema base branches, Reasoned l)
    fun es => ∀ l ∈ textLabels schema base es, Reasoned l
  case case5 =>
    intro f args hf ih
    rw [collationLabel, if_neg hf]
    exact reasoned_combineLabels _ ih
  case case6 =>
    intro operand branches otherwise ihb iho
    rw [collationLabel]
    exact reasoned_combineLabels _ (List.forall_mem_append.2 ⟨ihb, iho⟩)
  case case10 =>
    intro e rest fault hfault ih
    rw [textLabels, hfault]
    exact List.forall_mem_cons.2
      ⟨(reasoned_error fault).2 (reasoned_dataType schema e fault hfault), ih⟩
  all_goals simp_all [collationLabel, textLabels, branchLabels, optionLabels, or_imp]

attribute [simp] reasoned_dataType reasoned_collationLabel

@[simp]
theorem reasoned_checkCollations (e : Scalar) (schema : Schema) (base : Collation) :
    Reasoned (e.checkCollations schema base) := by
  refine reasoned_forM fun part _ => ?_
  split <;> simp

@[simp]
theorem reasoned_checkMatch (a b : Scalar) (left right : Schema) (base : Collation) :
    Reasoned (a.checkMatch left b right base) := by
  simp [checkMatch]

@[simp]
theorem reasoned_ofUnary (op : Sql.UnaryOp) (e : Scalar) : Reasoned (ofUnary op e) := by
  cases op <;> simp [ofUnary]

@[simp]
theorem reasoned_ofDatePart (function : String) (e : Sql.Expr) :
    Reasoned (ofDatePart function e) := by
  unfold ofDatePart
  split <;> simp

end Scalar

@[simp]
theorem Value.reasoned_ofLiteral (l : Sql.Literal) : Reasoned (Value.ofLiteral l) := by
  unfold Value.ofLiteral
  split
  case h_1 digits _ =>
    unfold Value.ofNumber
    split <;> simp
  all_goals simp

@[simp]
theorem BinaryOp.reasoned_ofSql (op : String) : Reasoned (BinaryOp.ofSql op) := by
  unfold BinaryOp.ofSql
  split
  · simp
  · split <;> simp

@[simp]
theorem ScalarFunction.reasoned_ofCall (call : Sql.Call Sql.Expr) :
    Reasoned (ScalarFunction.ofCall call) := by
  simp only [ofCall]
  split
  · simp
  · split
    · simp
    · split <;> simp

@[simp]
theorem Catalog.reasoned_lookup (catalog : Catalog) (name : String) :
    Reasoned (catalog.lookup name) := by
  unfold Catalog.lookup
  split <;> simp

@[simp]
theorem Scope.reasoned_owner? (c : Column) (level : Nat) (levels : List Level) :
    Reasoned (owner? c level levels) := by
  induction levels generalizing level with
  | nil => simp [owner?]
  | cons l rest ih =>
    simp only [owner?, reasoned_bind, Schema.reasoned_find?, true_and]
    intro found _
    split
    · simp
    · exact ih (level + 1)

@[simp]
theorem AliasColumn.reasoned_list (relation : String) (place : Nat) (seen : List String)
    (columns : List (String × OutputColumn)) : Reasoned (list relation place seen columns) := by
  induction columns generalizing place seen with
  | nil => simp [list]
  | cons column rest ih => simp [list, ih, repeatedColumnError]

@[simp]
theorem QueryPlan.reasoned_named (q : QueryPlan) (relation : String) (names : List String) :
    Reasoned (q.named relation names) := by
  simp [named, columnCountError]

@[simp]
theorem BindM.reasoned_registered (visible : List CteDefinition) (seen : List String)
    (ctes : List (Sql.Cte Sql.Query)) : Reasoned (registered visible seen ctes) := by
  induction ctes generalizing visible seen with
  | nil => simp [registered]
  | cons cte rest ih =>
    simp only [registered]
    split
    · simp
    · split <;> simp [ih, repeatedColumnError]

@[simp]
theorem CteDefinition.reasoned_columnNames (d : CteDefinition) (anchor : QueryPlan) :
    Reasoned (d.columnNames anchor) := by
  simp [columnNames, columnCountError]

@[simp]
theorem RecursiveMembers.reasoned_ofQuery (name : String) (q : Sql.Query) :
    Reasoned (ofQuery name q) := by
  have hfold (ms : RecursiveMembers) : Reasoned (q.body.unionMembers.foldlM (add name) ms) :=
    reasoned_foldlM fun ms m _ => by simp [add]
  simp [ofQuery, hfold]

@[simp]
theorem reasoned_checkStep (name : String) (columns : List RecursiveColumn) (step : QueryPlan) :
    Reasoned (checkStep name columns step) := by
  simp only [checkStep, List.forM_eq_forM, reasoned_ite, reasoned_bind]
  exact ⟨by simp, fun _ => reasoned_forM fun _ _ => by simp⟩

@[simp]
theorem Entity.reasoned_checkSource (e : Entity) (source : ScanSource) (name : Sql.ObjectName) :
    Reasoned (e.checkSource source name) := by
  cases source <;> simp [checkSource]

@[simp]
theorem reasoned_checkConstraint (constraint : Sql.JoinConstraint) (condition : Option Sql.Expr) :
    Reasoned (checkConstraint constraint condition) := by
  cases condition <;> simp [checkConstraint]

@[simp]
theorem TableFunction.reasoned_valueType (f : TableFunction) (types : List DataType) :
    Reasoned (f.valueType types) := by
  cases f with
  | stringSplit =>
    simp only [valueType, List.forM_eq_forM, reasoned_ite, reasoned_bind]
    exact ⟨by simp, fun _ => ⟨reasoned_forM fun t _ => by simp [argumentError], by simp⟩⟩
  | generateSeries =>
    simp only [valueType, reasoned_ite, reasoned_bind]
    exact ⟨by simp, fun _ => reasoned_foldlM fun _ t _ => by simp [argumentError]⟩

@[simp]
theorem InnerQuery.reasoned_ofSingle (q : BoundQuery) : Reasoned (ofSingle q) := by
  simp [ofSingle]

@[simp]
theorem InnerQuery.reasoned_value (q : InnerQuery) : Reasoned q.value := by
  unfold value
  split <;> simp

@[simp]
theorem Sql.Select.reasoned_groups (s : Sql.Select Sql.Query) (order : List Sql.Expr) :
    Reasoned (s.groups order) := by
  simp [groups]

@[simp]
theorem Sql.Select.reasoned_check (s : Sql.Select Sql.Query) : Reasoned s.check := by
  unfold check
  split <;> simp
  all_goals split <;> simp

@[simp]
theorem AggregateFunction.reasoned_ofCall (call : Sql.Call Sql.Expr) :
    Reasoned (AggregateFunction.ofCall call) := by
  unfold ofCall
  split <;> simp

@[simp]
theorem AggregateFunction.reasoned_checkArgument (f : AggregateFunction) (name : String)
    (type : Option DataType) : Reasoned (f.checkArgument name type) := by
  unfold checkArgument
  split <;> simp

@[simp]
theorem AggregateFunction.reasoned_ofWindowed (call : Sql.Call Sql.Expr) :
    Reasoned (AggregateFunction.ofWindowed call) := by
  unfold ofWindowed
  split <;> simp
  split <;> simp

@[simp]
theorem Sql.FrameBound.reasoned_offset (b : Sql.FrameBound) (what : String) :
    Reasoned (b.offset what) := by
  have hrows (o : Sql.FrameOffset) : Reasoned o.rows := by
    unfold Sql.FrameOffset.rows
    split
    · simp
    · split <;> simp
  unfold offset
  split <;> simp [hrows]

@[simp]
theorem RowsFrame.reasoned_ofSql (frame : Option Sql.Frame) : Reasoned (ofSql frame) := by
  have hstop (f : Sql.Frame) : Reasoned f.stopOffset := by
    unfold Sql.Frame.stopOffset
    split <;> simp
  cases frame <;> simp [ofSql, hstop]

@[simp]
theorem reasoned_outputOf (e : Sql.Expr) (outputs : List OutputColumn) :
    Reasoned (outputOf e outputs) := by
  have hname : Reasoned (outputByName e outputs) := by
    unfold outputByName
    split
    · split <;> simp
    · simp
  have hposition : Reasoned (outputByPosition e outputs) := by
    unfold outputByPosition
    split
    · split <;> simp
    · simp
  simp only [outputOf, reasoned_bind, hname, true_and]
  intro found _
  split <;> simp [hposition]

@[simp]
theorem reasoned_outputKey (outputs : List OutputColumn) (o : Sql.OrderItem Sql.Expr) :
    Reasoned (outputKey outputs o) := by
  simp only [outputKey, reasoned_bind, reasoned_outputOf, true_and]
  intro found _
  split <;> simp

@[simp]
theorem InsertTarget.reasoned_listed (t : InsertTarget) (name : String) (columns : List Sql.Ident) :
    Reasoned (t.listed name columns) := by
  have hchoose (seen : List String) : Reasoned (t.choose seen columns) := by
    induction columns generalizing seen with
    | nil => simp [choose]
    | cons c rest ih =>
      simp only [choose]
      split <;> simp [ih, repeatedTargetError]
  simp [listed, hchoose]

@[simp]
theorem reasoned_singleTable (s : Sql.Source Sql.Query) (statement : String) :
    Reasoned (singleTable s statement) := by
  unfold singleTable
  split <;> simp

@[simp]
theorem reasoned_updateTargets (entity : Entity) (seen : List String)
    (assignments : List Sql.Assignment) : Reasoned (updateTargets entity seen assignments) := by
  induction assignments generalizing seen with
  | nil => simp [updateTargets]
  | cons a rest ih =>
    simp only [updateTargets]
    split
    · simp
    · split <;> simp [ih, repeatedTargetError]

@[simp]
theorem reasoned_tableColumns (seen : List String) (columns : List Sql.ColumnDef) :
    Reasoned (tableColumns seen columns) := by
  induction columns generalizing seen with
  | nil => simp [tableColumns]
  | cons c rest ih => simp [tableColumns, ih]

@[simp]
theorem QueryPlan.reasoned_valueType (q : QueryPlan) : Reasoned q.valueType := by
  unfold valueType
  split <;> simp

namespace Plan

theorem reasoned_checkConsumers (available : List Nat) (p : Plan) :
    Reasoned (p.checkConsumers available) := by
  apply checkConsumers.induct (fun available p => Reasoned (p.checkConsumers available))
    fun available ps => Reasoned (checkAllConsumers available ps)
  case case4 =>
    intro available left right spec hl ho hr
    simp only [checkConsumers, reasoned_bind, hl, true_and]
    intro _ _
    split
    · exact ho
    · exact hr
  all_goals simp_all [checkConsumers, checkAllConsumers]

@[simp]
theorem reasoned_validateSpools (p : Plan) : Reasoned p.validateSpools := by
  have hc := p.reasoned_checkConsumers []
  unfold validateSpools
  split <;> simp [hc]

end Plan

namespace ErrorLog

theorem flatten_of_ofList? (log : ErrorLog) {e : PlanError}
    (h : PlanError.ofList? log.errors = some e) : e.flatten = log.errors ∧ e.flatten ≠ [] := by
  have hflat {errors : List PlanError} (h : ∀ e ∈ errors, e.flatten = [e]) :
      PlanError.flattenAll errors = errors := by
    induction errors with
    | nil => rw [PlanError.flattenAll]
    | cons e rest ih =>
      rw [List.forall_mem_cons] at h
      rw [PlanError.flattenAll, h.1, ih h.2, List.singleton_append]
  have hsingle := log.single
  generalize log.errors = errors at h hsingle
  match errors with
  | [] => cases h
  | [fault] =>
    cases h
    simp [hsingle e (by simp)]
  | fault :: other :: rest =>
    cases h
    simp [hflat hsingle]

@[simp]
theorem reasoned_finish (log : ErrorLog) : Reasoned log.finish := by
  unfold finish
  split
  next h => exact (reasoned_error _).2 (log.flatten_of_ofList? h).2
  next => simp

@[simp]
theorem flatten_toError_ne_nil (log : ErrorLog) : log.toError.flatten ≠ [] := by
  unfold toError
  cases h : PlanError.ofList? log.errors with
  | none => simp
  | some e => exact (log.flatten_of_ofList? h).2

end ErrorLog

end BatchPlan
