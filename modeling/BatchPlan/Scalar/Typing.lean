import BatchPlan.Scalar.Basic

namespace BatchPlan

/-- The type of a call, given the types of the arguments. Only arguments on which the type depends
are looked at. -/
def ScalarFunction.resultType (f : ScalarFunction) (args : List (Result DataType)) :
    Result DataType := do
  let arg (i : Nat) : Result DataType := args.getD i (.ok .null)
  match f with
  | .len | .charindex | .year | .month | .day | .datePart | .dateDiff => return .int32
  | .upper | .lower | .trim | .ltrim | .rtrim | .left | .right | .substring | .concat
  | .replace => return .utf8
  | .abs | .ceiling | .floor | .round =>
    let t ← arg 0
    if t.isNumeric || t == .null then return t
    else throw (.typeMismatch ("Argument data type " ++ t.sqlName ++
      " is invalid for argument 1 of " ++ f.name ++ " function"))
  | .power | .sqrt => return .float64
  | .getDate | .getUtcDate => return .timestamp
  | .dateAdd =>
    let t ← arg 2
    return if t.isTemporal then t else .timestamp
  | .newId => return .guid
  | .coalesce | .isNull => args.foldlM (fun t a => do t.common (← a)) .null
  | .nullIf =>
    let t ← arg 0
    t.checkComparable (← arg 1)
    return t
  | .iif => (← arg 1).common (← arg 2)

namespace Scalar

def binaryType (op : BinaryOp) (left right : DataType) : Result DataType := do
  if op == .and || op == .or then return .boolean
  else if op.isComparison then
    left.checkComparable right
    return .boolean
  else if op == .add && left.isString && right.isString then return .utf8
  else if (op == .add || op == .subtract) && left.isTemporal && right.isNumeric then return left
  else left.arithmetic op.text right

mutual

def dataType (schema : Schema) : Scalar → Result DataType
  | .column c => do return (← schema.resolve c).2.dataType
  | .literal v => return v.dataType
  | .var _ type | .outer _ type => return type
  | .binary left op right => do
    let l ← left.dataType schema
    let r ← right.dataType schema
    binaryType op l r
  | .unary op e => match op with
    | .negate => e.dataType schema
    | _ => return .boolean
  | .call f args => f.resultType (dataTypes schema args)
  | .cast _ type => return type
  | .case operand branches otherwise => do
    let types := branchTypes schema branches
    if let some operand := optionType schema operand then
      let t ← operand
      types.forM fun (c, _) => do t.checkComparable (← c)
    let t ← types.foldlM (fun t (_, r) => do t.common (← r)) DataType.null
    match optionType schema otherwise with
    | some r => t.common (← r)
    | none => return t
  | .inList e items _ => do
    let t ← e.dataType schema
    (dataTypes schema items).forM fun item => do t.checkComparable (← item)
    return .boolean
  | .between e low high _ => do
    let t ← e.dataType schema
    t.checkComparable (← low.dataType schema)
    t.checkComparable (← high.dataType schema)
    return .boolean
  | .collate e _ => do
    let t ← e.dataType schema
    if t.isString || t == .null then return t
    else throw (.typeMismatch ("Expression type " ++ t.sqlName ++
      " is invalid for COLLATE clause"))

def dataTypes (schema : Schema) : List Scalar → List (Result DataType)
  | [] => []
  | e :: rest => e.dataType schema :: dataTypes schema rest

def branchTypes (schema : Schema) : List (Scalar × Scalar) →
    List (Result DataType × Result DataType)
  | [] => []
  | (c, r) :: rest => (c.dataType schema, r.dataType schema) :: branchTypes schema rest

def optionType (schema : Schema) : Option Scalar → Option (Result DataType)
  | none => none
  | some e => some (e.dataType schema)

end

mutual

/-- Can the value be NULL? In doubt it can. -/
def nullable (schema : Schema) : Scalar → Bool
  | .column c => match schema.field? c with
    | some f => f.nullable
    | none => true
  | .literal v => v.isNull
  | .unary op e => !op.isTest && e.nullable schema
  | .cast e _ | .collate e _ => e.nullable schema
  | .binary left _ right => left.nullable schema || right.nullable schema
  | .call f args => match f with
    | .getDate | .getUtcDate | .newId => false
    | .isNull | .coalesce => allNullable schema args
    | _ => true
  | _ => true

def allNullable (schema : Schema) : List Scalar → Bool
  | [] => true
  | e :: rest => e.nullable schema && allNullable schema rest

end

def combineLabels (start : CollationLabel) (labels : List (Result CollationLabel)) :
    Result CollationLabel :=
  labels.foldlM (fun label next => do label.combine (← next)) start

mutual

/-- How the collation of an expression came about. Operands of other types than text do not count
in a call, but do in the branches of a CASE. -/
def collationLabel (schema : Schema) (base : Collation) : Scalar → Result CollationLabel
  | .column c => do
    let (_, f) ← schema.resolve c
    return .implicit (f.collation.getD base)
  | .collate _ collation => return .explicit collation
  | .binary left .add right => do
    let l ← left.collationLabel schema base
    l.combine (← right.collationLabel schema base)
  | .call f args =>
    if f.takesDatePart then return .coercible base
    else combineLabels (.coercible base) (textLabels schema base args)
  | .case _ branches otherwise =>
    combineLabels (.coercible base)
      (branchLabels schema base branches ++ optionLabels schema base otherwise)
  | .cast e _ => e.collationLabel schema base
  | _ => return .coercible base

def textLabels (schema : Schema) (base : Collation) : List Scalar → List (Result CollationLabel)
  | [] => []
  | e :: rest =>
    match e.dataType schema with
    | .error fault => .error fault :: textLabels schema base rest
    | .ok t =>
      if t.isString then e.collationLabel schema base :: textLabels schema base rest
      else textLabels schema base rest

def branchLabels (schema : Schema) (base : Collation) : List (Scalar × Scalar) →
    List (Result CollationLabel)
  | [] => []
  | (_, r) :: rest => r.collationLabel schema base :: branchLabels schema base rest

def optionLabels (schema : Schema) (base : Collation) : Option Scalar →
    List (Result CollationLabel)
  | none => []
  | some e => [e.collationLabel schema base]

end

end Scalar

end BatchPlan
