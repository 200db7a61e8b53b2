import BatchPlan.DataType
import BatchPlan.Number.Decimal
import BatchPlan.Number.Shortest

namespace BatchPlan

inductive Value where
  | null
  | boolean (b : Bool)
  | int32 (n : Int)
  | int64 (n : Int)
  | float64 (x : Binary64)
  | decimal (d : Decimal)
  | text (s : String)
  /-- Days since the first of January 1970. -/
  | date (days : Int)
  /-- Milliseconds since then. -/
  | timestamp (millis : Int)
deriving DecidableEq, Repr, Inhabited

namespace Value

def dataType : Value → DataType
  | .null => .null
  | .boolean _ => .boolean
  | .int32 _ => .int32
  | .int64 _ => .int64
  | .float64 _ => .float64
  | .decimal d => .decimal128 38 (d.scale : Int).toInt8
  | .text _ => .utf8
  | .date _ => .date32
  | .timestamp _ => .timestamp

def isNull : Value → Bool
  | .null => true
  | _ => false

def int? : Value → Option Int
  | .int32 n | .int64 n => some n
  | _ => none

def quote (s : String) : String :=
  "'" ++ String.ofList (s.toList.flatMap fun c => if c = '\'' then ['\'', '\''] else [c]) ++ "'"

def print : Value → String
  | .null => "NULL"
  | .boolean b => if b then "1" else "0"
  | .int32 n | .int64 n => toString n
  | .float64 x => x.text
  | .decimal d => d.text
  | .text s => quote s
  | .date n => "DATE(" ++ toString n ++ ")"
  | .timestamp n => "DATETIME(" ++ toString n ++ ")"

end Value

end BatchPlan
