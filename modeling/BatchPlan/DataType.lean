import BatchPlan.Error
import BatchPlan.Text.Lowercase

namespace BatchPlan

inductive DataType where
  | null
  | boolean
  | int8
  | int16
  | int32
  | int64
  | uint8
  | uint16
  | uint32
  | uint64
  | float16
  | float32
  | float64
  | utf8
  | largeUtf8
  | binary
  | fixedSizeBinary (size : Int)
  | date32
  | date64
  /-- Milliseconds without a time zone. -/
  | timestamp
  /-- Seconds of a day. -/
  | time32
  /-- Microseconds of a day. -/
  | time64
  | decimal128 (precision : UInt8) (scale : Int8)
  | decimal256 (precision : UInt8) (scale : Int8)
deriving DecidableEq, Repr, Inhabited

inductive TypeFamily where
  | null
  | boolean
  | numeric
  | string
  | temporal
  | guid
  | other
deriving DecidableEq, Repr, Inhabited

namespace DataType

def guid : DataType := .fixedSizeBinary 16

def simpleNames : List (DataType × String) :=
  [(.null, "Null"), (.boolean, "Boolean"), (.int8, "Int8"), (.int16, "Int16"), (.int32, "Int32"),
   (.int64, "Int64"), (.uint8, "UInt8"), (.uint16, "UInt16"), (.uint32, "UInt32"),
   (.uint64, "UInt64"), (.float16, "Float16"), (.float32, "Float32"), (.float64, "Float64"),
   (.utf8, "Utf8"), (.largeUtf8, "LargeUtf8"), (.binary, "Binary"), (.date32, "Date32"),
   (.date64, "Date64"), (.timestamp, "Timestamp(Millisecond, None)"), (.time32, "Time32(Second)"),
   (.time64, "Time64(Microsecond)")]

def text : DataType → String
  | .fixedSizeBinary n => "FixedSizeBinary(" ++ toString n ++ ")"
  | .decimal128 p s => "Decimal128(" ++ toString p.toNat ++ ", " ++ toString s.toInt ++ ")"
  | .decimal256 p s => "Decimal256(" ++ toString p.toNat ++ ", " ++ toString s.toInt ++ ")"
  | t => (simpleNames.lookup t).getD ""

def parameters? (head s : String) : Option (List Int) :=
  if s.startsWith (head ++ "(") && s.endsWith ")" then
    let inner := String.ofList ((s.toList.drop (head.length + 1)).dropLast)
    (inner.splitOn ", ").mapM String.toInt?
  else none

def ofText? (s : String) : Option DataType :=
  match simpleNames.find? (·.2 == s) with
  | some (t, _) => some t
  | none =>
    match parameters? "FixedSizeBinary" s, parameters? "Decimal128" s,
      parameters? "Decimal256" s with
    | some [n], _, _ => some (.fixedSizeBinary n)
    | _, some [p, q], _ => some (.decimal128 p.toNat.toUInt8 q.toInt8)
    | _, _, some [p, q] => some (.decimal256 p.toNat.toUInt8 q.toInt8)
    | _, _, _ => none

def family : DataType → TypeFamily
  | .null => .null
  | .boolean => .boolean
  | .int8 | .int16 | .int32 | .int64 | .uint8 | .uint16 | .uint32 | .uint64 => .numeric
  | .float32 | .float64 | .decimal128 .. => .numeric
  | .utf8 | .largeUtf8 => .string
  | .date32 | .date64 | .timestamp | .time32 | .time64 => .temporal
  | .fixedSizeBinary n => if n = 16 then .guid else .other
  | .float16 | .binary | .decimal256 .. => .other

def isString (t : DataType) : Bool := t.family == .string

def isNumeric (t : DataType) : Bool := t.family == .numeric

def isTemporal (t : DataType) : Bool := t.family == .temporal

def isInteger : DataType → Bool
  | .int8 | .int16 | .int32 | .int64 | .uint8 | .uint16 | .uint32 | .uint64 => true
  | _ => false

def sqlName : DataType → String
  | .null => "NULL"
  | .boolean => "bit"
  | .int8 | .uint8 => "tinyint"
  | .int16 => "smallint"
  | .int32 => "int"
  | .int64 => "bigint"
  | .float32 => "real"
  | .float64 => "float"
  | .decimal128 p s => "decimal(" ++ toString p.toNat ++ "," ++ toString s.toInt ++ ")"
  | .utf8 | .largeUtf8 => "nvarchar"
  | .date32 | .date64 => "date"
  | .timestamp => "datetime"
  | .fixedSizeBinary n =>
    if n = 16 then "uniqueidentifier" else Text.lower (DataType.fixedSizeBinary n).text
  | t => Text.lower t.text

def clash (a b : DataType) : PlanError :=
  .typeMismatch ("Operand type clash: " ++ a.sqlName ++ " is incompatible with " ++ b.sqlName)

/-- Can values of the two families be compared, if need be after a conversion? -/
def comparableFamilies : TypeFamily → TypeFamily → Bool
  | .null, _ | _, .null => true
  | .string, _ | _, .string => true
  | .boolean, .numeric | .numeric, .boolean => true
  | .temporal, .numeric | .numeric, .temporal => true
  | a, b => a == b

def checkComparable (a b : DataType) : Result Unit :=
  if comparableFamilies a.family b.family then .ok () else .error (clash a b)

def widen : DataType → DataType → DataType
  | .float64, _ | _, .float64 | .float32, _ | _, .float32 => .float64
  | .decimal128 p s, .decimal128 p' s' => .decimal128 (max p p') (max s s')
  | .decimal128 p s, _ | _, .decimal128 p s => .decimal128 p s
  | .int64, _ | _, .int64 => .int64
  | .int32, _ | _, .int32 => .int32
  | .int16, _ | _, .int16 => .int16
  | _, _ => .int32

/-- The type of a value that comes from either side. Truth values win over numbers, and both over
text; a time stays a time. -/
def meet (a b : DataType) : DataType :=
  match a.family, b.family with
  | .null, _ => b
  | _, .null => a
  | .numeric, .numeric => widen a b
  | .numeric, .boolean | .string, .numeric | .string, .boolean => b
  | .boolean, .numeric | .numeric, .string | .boolean, .string => a
  | .temporal, _ => a
  | _, .temporal => b
  | .string, .guid => b
  | _, _ => a

def common (a b : DataType) : Result DataType := do
  checkComparable a b
  return meet a b

def isArithmetic (t : DataType) : Bool :=
  t.family == .numeric || t.family == .null || t.family == .boolean

def arithmetic (operator : String) (a b : DataType) : Result DataType :=
  if a.isArithmetic && b.isArithmetic then
    .ok (if a = .null then b else if b = .null then a else widen a b)
  else
    .error (.typeMismatch ("The data types " ++ a.sqlName ++ " and " ++ b.sqlName ++
      " are incompatible in the " ++ operator ++ " operator"))

def total : DataType → DataType
  | .int8 | .int16 | .int32 | .uint8 | .uint16 | .boolean => .int32
  | .int64 | .uint32 | .uint64 => .int64
  | .decimal128 _ s => .decimal128 38 s
  | _ => .float64

end DataType

end BatchPlan
