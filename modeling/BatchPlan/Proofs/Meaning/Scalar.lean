import BatchPlan.Proofs.Meaning.Fields
import BatchPlan.Proofs.Truth
import BatchPlan.Scalar.Typing

namespace BatchPlan

namespace Value

variable {v : Value}

/-- NULL is unknown, and of the others only the truth value counts as true. -/
def truth : Value → Truth
  | .null => .unknown
  | v => .ofBool (v == .boolean true)

def ofTruth : Truth → Value
  | .true => .boolean true
  | .false => .boolean false
  | .unknown => .null

@[simp]
theorem truth_ofTruth (t : Truth) : (ofTruth t).truth = t := by
  cases t <;> rfl

@[simp]
theorem truth_boolean (b : Bool) : (boolean b).truth = .ofBool b := by
  cases b <;> rfl

theorem ofTruth_ne_null {t : Truth} (h : t ≠ .unknown) : ofTruth t ≠ .null := by
  cases t <;> simp_all [ofTruth]

theorem truth_ne_unknown (h : v ≠ .null) : v.truth ≠ .unknown := by
  cases v <;> simp_all [truth]

/-- A function of values of which none is NULL. -/
def strict (f : Value → Value) (v : Value) : Value :=
  if v = .null then .null else f v

def strict₂ (f : Value → Value → Value) (v w : Value) : Value :=
  if v = .null ∨ w = .null then .null else f v w

def firstKnown (vs : List Value) : Value :=
  (vs.find? (· != .null)).getD .null

theorem firstKnown_ne_null {vs : List Value} (hv : v ∈ vs) (hnull : v ≠ .null) :
    firstKnown vs ≠ .null := by
  obtain ⟨w, hw⟩ : ∃ w, vs.find? (· != .null) = some w :=
    Option.isSome_iff_exists.1 (List.find?_isSome.2 ⟨v, hv, by simpa using hnull⟩)
  rw [firstKnown, hw]
  simpa using List.find?_some hw

end Value

/-- Operations of the runtime on values that are not NULL. None of them gives NULL. -/
structure Operations where
  equal : Value → Value → Bool
  less : Value → Value → Bool
  like : Value → Value → Bool
  arithmetic : BinaryOp → Value → Value → Value
  negate : Value → Value
  cast : DataType → Value → Value
  call : ScalarFunction → List Value → Value
  equal_int : ∀ m n, equal (.int32 m) (.int32 n) = decide (m = n)
  arithmetic_ne_null : ∀ op v w, v ≠ .null → w ≠ .null → arithmetic op v w ≠ .null
  negate_ne_null : ∀ v, v ≠ .null → negate v ≠ .null
  cast_ne_null : ∀ type v, v ≠ .null → cast type v ≠ .null
  call_ne_null : ∀ f ∈ [ScalarFunction.getDate, .getUtcDate, .newId], ∀ vs, call f vs ≠ .null

namespace Operations

variable (ops : Operations)

def binary : BinaryOp → Value → Value → Value
  | .and, v, w => .ofTruth (v.truth.and w.truth)
  | .or, v, w => .ofTruth (v.truth.or w.truth)
  | .eq, v, w => .strict₂ (fun v w => .boolean (ops.equal v w)) v w
  | .notEq, v, w => .strict₂ (fun v w => .boolean (!ops.equal v w)) v w
  | .lt, v, w => .strict₂ (fun v w => .boolean (ops.less v w)) v w
  | .ltEq, v, w => .strict₂ (fun v w => .boolean (!ops.less w v)) v w
  | .gt, v, w => .strict₂ (fun v w => .boolean (ops.less w v)) v w
  | .gtEq, v, w => .strict₂ (fun v w => .boolean (!ops.less v w)) v w
  | .like, v, w => .strict₂ (fun v w => .boolean (ops.like v w)) v w
  | .notLike, v, w => .strict₂ (fun v w => .boolean (!ops.like v w)) v w
  | op, v, w => .strict₂ (ops.arithmetic op) v w

def unary : UnaryOp → Value → Value
  | .not, v => .ofTruth v.truth.not
  | .negate, v => .strict ops.negate v
  | .isNull, v => .boolean (v == .null)
  | .isNotNull, v => .boolean (v != .null)

def function : ScalarFunction → List Value → Value
  | .isNull, vs | .coalesce, vs => .firstKnown vs
  | f, vs => ops.call f vs

def same (v w : Value) : Truth :=
  (ops.binary .eq v w).truth

def isIn (v : Value) (ws : List Value) : Truth :=
  ws.foldr (fun w rest => (ops.same v w).or rest) .false

variable {ops : Operations} {v w : Value} {ws : List Value}

theorem same_of_ne_null (hv : v ≠ .null) (hw : w ≠ .null) :
    ops.same v w = .ofBool (ops.equal v w) := by
  simp [same, binary, Value.strict₂, hv, hw]

@[simp]
theorem same_null_left : ops.same .null w = .unknown := by
  simp [same, binary, Value.strict₂, Value.truth]

@[simp]
theorem same_null_right : ops.same v .null = .unknown := by
  simp [same, binary, Value.strict₂, Value.truth]

theorem same_eq_false : ops.same v w = .false ↔ v ≠ .null ∧ w ≠ .null ∧ ops.same v w ≠ .true := by
  by_cases hv : v = .null
  · simp [hv]
  · by_cases hw : w = .null
    · simp [hw]
    · simp [same_of_ne_null hv hw, hv, hw]

theorem isIn_eq_true : ops.isIn v ws = .true ↔ ∃ w ∈ ws, ops.same v w = .true := by
  induction ws with
  | nil => simp [isIn]
  | cons w rest ih =>
    rw [isIn] at ih ⊢
    simp [ih]

theorem isIn_eq_false : ops.isIn v ws = .false ↔ ∀ w ∈ ws, ops.same v w = .false := by
  induction ws with
  | nil => simp [isIn]
  | cons w rest ih =>
    rw [isIn] at ih ⊢
    simp [ih]

/-- A value is certainly not among others if there are none, or if neither it nor any of them is
NULL and it is not found. -/
theorem not_isIn_eq_true : (ops.isIn v ws).not = .true ↔
    (ws = [] ∨ v ≠ .null ∧ .null ∉ ws) ∧ ops.isIn v ws ≠ .true := by
  rw [Truth.not_eq_true, isIn_eq_false]
  constructor
  · intro h
    refine ⟨?_, fun hfound => ?_⟩
    · rcases ws with _ | ⟨w, rest⟩
      · exact .inl rfl
      · refine .inr ⟨(same_eq_false.1 (h w (by simp))).1, fun hnull => ?_⟩
        exact (same_eq_false.1 (h .null hnull)).2.1 rfl
    · obtain ⟨w, hw, htrue⟩ := isIn_eq_true.1 hfound
      exact (same_eq_false.1 (h w hw)).2.2 htrue
  · rintro ⟨rfl | ⟨hv, hnull⟩, hfound⟩ w hw
    · cases hw
    · exact same_eq_false.2 ⟨hv, fun h => hnull (h ▸ hw), fun htrue =>
        hfound (isIn_eq_true.2 ⟨w, hw, htrue⟩)⟩

theorem binary_ne_null (op : BinaryOp) (hv : v ≠ .null) (hw : w ≠ .null) :
    ops.binary op v w ≠ .null := by
  have hand := Truth.and_ne_unknown (Value.truth_ne_unknown hv) (Value.truth_ne_unknown hw)
  have hor := Truth.or_ne_unknown (Value.truth_ne_unknown hv) (Value.truth_ne_unknown hw)
  cases op with
  | and => exact Value.ofTruth_ne_null hand
  | or => exact Value.ofTruth_ne_null hor
  | add | subtract | multiply | divide | modulo =>
    simpa [binary, Value.strict₂, hv, hw] using ops.arithmetic_ne_null _ v w hv hw
  | _ => simp [binary, Value.strict₂, hv, hw]

theorem unary_ne_null {op : UnaryOp} (h : op.isTest ∨ v ≠ .null) : ops.unary op v ≠ .null := by
  cases op with
  | not =>
    have hv : v ≠ .null := h.resolve_left (by simp [UnaryOp.isTest])
    refine Value.ofTruth_ne_null ?_
    have := Value.truth_ne_unknown hv
    cases ht : v.truth <;> simp_all [Truth.not]
  | negate =>
    have hv : v ≠ .null := h.resolve_left (by simp [UnaryOp.isTest])
    simpa [unary, Value.strict, hv] using ops.negate_ne_null v hv
  | isNull | isNotNull => simp [unary]

end Operations

structure Env where
  param : String → Value
  var : String → Value

def Env.empty : Env := ⟨fun _ => .null, fun _ => .null⟩

namespace Scalar

mutual

def eval (ops : Operations) (env : Env) (s : Schema) (row : Row) : Scalar → Value
  | .column c => s.read row c
  | .literal v => v
  | .var name _ => env.var name
  | .outer param _ => env.param param
  | .binary left op right => ops.binary op (left.eval ops env s row) (right.eval ops env s row)
  | .unary op e => ops.unary op (e.eval ops env s row)
  | .call f args => ops.function f (evalAll ops env s row args)
  | .cast e type => .strict (ops.cast type) (e.eval ops env s row)
  | .collate e _ => e.eval ops env s row
  | .case operand branches otherwise =>
    evalBranches ops env s row (evalOption ops env s row operand) branches
      ((evalOption ops env s row otherwise).getD .null)
  | .inList e items negated =>
    .ofTruth (.notIf negated (ops.isIn (e.eval ops env s row) (evalAll ops env s row items)))
  | .between e low high negated =>
    let v := e.eval ops env s row
    let above := ops.binary .ltEq (low.eval ops env s row) v
    let below := ops.binary .ltEq v (high.eval ops env s row)
    .ofTruth (.notIf negated (above.truth.and below.truth))

def evalAll (ops : Operations) (env : Env) (s : Schema) (row : Row) : List Scalar → List Value
  | [] => []
  | e :: rest => e.eval ops env s row :: evalAll ops env s row rest

def evalOption (ops : Operations) (env : Env) (s : Schema) (row : Row) :
    Option Scalar → Option Value
  | none => none
  | some e => some (e.eval ops env s row)

def evalBranches (ops : Operations) (env : Env) (s : Schema) (row : Row) (operand : Option Value) :
    List (Scalar × Scalar) → Value → Value
  | [], otherwise => otherwise
  | (test, result) :: rest, otherwise =>
    let v := test.eval ops env s row
    let applies := match operand with
      | some operand => ops.same operand v
      | none => v.truth
    if applies = .true then result.eval ops env s row
    else evalBranches ops env s row operand rest otherwise

end

/-- Operations that differ in functions at most. -/
structure AgreeBut (ops ops' : Operations) : Prop where
  binary : ops.binary = ops'.binary
  unary : ops.unary = ops'.unary
  cast : ops.cast = ops'.cast

/-- A part of an expression has the same meaning for two rows and two kinds of operations. -/
def MeansSame (ops ops' : Operations) (s t : Schema) (row other : Row) : Scalar → Prop
  | .column c => s.read row c = t.read other c
  | .call f _ => ops.function f = ops'.function f
  | _ => True

section

variable {ops ops' : Operations} {env : Env} {s t : Schema} {row other : Row}

theorem eval_congr (hops : AgreeBut ops ops') (e : Scalar) :
    (∀ part ∈ e.parts, part.MeansSame ops ops' s t row other) →
      e.eval ops env s row = e.eval ops' env t other := by
  have hin : ops.isIn = ops'.isIn := by
    funext v ws
    simp only [Operations.isIn, Operations.same, hops.binary]
  apply eval.induct ops env s row
    (fun e => (∀ part ∈ e.parts, part.MeansSame ops ops' s t row other) →
      e.eval ops env s row = e.eval ops' env t other)
    (fun o => (∀ part ∈ partsOfOption o, part.MeansSame ops ops' s t row other) →
      evalOption ops env s row o = evalOption ops' env t other o)
    (fun operand branches otherwise =>
      (∀ part ∈ partsOfBranches branches, part.MeansSame ops ops' s t row other) →
      evalBranches ops env s row operand branches otherwise =
        evalBranches ops' env t other operand branches otherwise)
    (fun es => (∀ part ∈ partsOfList es, part.MeansSame ops ops' s t row other) →
      evalAll ops env s row es = evalAll ops' env t other es)
  case case1 =>
    intro c h
    rw [eval, eval]
    exact h (.column c) (by simp [parts])
  case case7 =>
    intro f args ih h
    rw [parts, List.forall_mem_cons] at h
    have hf : ops.function f = ops'.function f := h.1
    rw [eval, eval, hf, ih h.2]
  case case18 | case19 =>
    intro operand test result rest otherwise v applies happlies ih ih' h
    simp only [partsOfBranches, List.forall_mem_append] at h
    cases operand <;> simp_all [evalBranches, Operations.same, hops.binary, v, applies]
  all_goals
    intros
    simp_all only [parts, partsOfOption, partsOfList, partsOfBranches, eval,
      evalOption, evalBranches, evalAll,
      hops.binary, hops.unary, hops.cast, List.forall_mem_cons,
        List.forall_mem_append, forall_const]

end

theorem eval_of_read {ops : Operations} {env : Env} {s t : Schema} {row other : Row} {e : Scalar}
    (h : ∀ c ∈ e.columns, s.read row c = t.read other c) :
    e.eval ops env s row = e.eval ops env t other := by
  refine eval_congr ⟨rfl, rfl, rfl⟩ e fun part hpart => ?_
  cases part with
  | column c => exact h c (List.mem_filterMap.2 ⟨_, hpart, rfl⟩)
  | call => rfl
  | _ => trivial

end Scalar

namespace Scalar

variable {ops : Operations} {env : Env} {s : Schema} {row : Row}

mutual

theorem eval_ne_null (hrow : s.Fits row) :
    ∀ e : Scalar, e.nullable s = false → e.eval ops env s row ≠ .null
  | .column c, h => by
    rw [nullable] at h
    split at h
    next f hf => exact s.read_ne_null hrow hf h
    next => cases h
  | .literal v, h => by
    rw [nullable] at h
    rw [eval]
    rintro rfl
    cases h
  | .unary op e, h => by
    rw [nullable, Bool.and_eq_false_iff] at h
    rw [eval]
    exact Operations.unary_ne_null (h.imp (by simp) (eval_ne_null hrow e))
  | .cast e type, h => by
    rw [nullable] at h
    have he := eval_ne_null hrow e h
    simpa [eval, Value.strict, he] using ops.cast_ne_null type _ he
  | .collate e _, h => by
    rw [nullable] at h
    rw [eval]
    exact eval_ne_null hrow e h
  | .binary left op right, h => by
    rw [nullable, Bool.or_eq_false_iff] at h
    rw [eval]
    exact Operations.binary_ne_null op (eval_ne_null hrow left h.1) (eval_ne_null hrow right h.2)
  | .call f args, h => by
    unfold nullable at h
    rw [eval]
    split at h
    · exact ops.call_ne_null _ (by simp) _
    · exact ops.call_ne_null _ (by simp) _
    · exact ops.call_ne_null _ (by simp) _
    · obtain ⟨v, hv, hknown⟩ := exists_evalAll_ne_null hrow args h
      exact Value.firstKnown_ne_null hv hknown
    · obtain ⟨v, hv, hknown⟩ := exists_evalAll_ne_null hrow args h
      exact Value.firstKnown_ne_null hv hknown
    · cases h
  | .var .., h | .outer .., h | .case .., h | .inList .., h | .between .., h => by
    simp [nullable] at h

theorem exists_evalAll_ne_null (hrow : s.Fits row) :
    ∀ es : List Scalar, allNullable s es = false → ∃ v ∈ evalAll ops env s row es, v ≠ .null
  | [], h => by
    rw [allNullable] at h
    cases h
  | e :: rest, h => by
    rw [allNullable, Bool.and_eq_false_iff] at h
    rw [evalAll]
    obtain h | h := h
    · exact ⟨_, by simp, eval_ne_null hrow e h⟩
    · obtain ⟨v, hv, hknown⟩ := exists_evalAll_ne_null hrow rest h
      exact ⟨v, by simp [hv], hknown⟩

end

end Scalar

end BatchPlan
