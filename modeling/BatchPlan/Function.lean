import BatchPlan.DataType

namespace BatchPlan

inductive AggregateFunction where
  | count
  | countStar
  | sum
  | avg
  | min
  | max
  | stringAgg
  | first
  | rowNumber
  | rank
  | denseRank
deriving DecidableEq, Repr, Inhabited

namespace AggregateFunction

def all : List AggregateFunction :=
  [.count, .countStar, .sum, .avg, .min, .max, .stringAgg, .first, .rowNumber, .rank, .denseRank]

def name : AggregateFunction → String
  | .count => "COUNT"
  | .countStar => "COUNT(*)"
  | .sum => "SUM"
  | .avg => "AVG"
  | .min => "MIN"
  | .max => "MAX"
  | .stringAgg => "STRING_AGG"
  | .first => "FIRST"
  | .rowNumber => "ROW_NUMBER"
  | .rank => "RANK"
  | .denseRank => "DENSE_RANK"

def callable : List AggregateFunction :=
  [.count, .sum, .avg, .min, .max, .stringAgg]

def ofName? (s : String) : Option AggregateFunction :=
  callable.find? (·.name == Text.upperAscii s)

def isRanking : AggregateFunction → Bool
  | .rowNumber | .rank | .denseRank => true
  | _ => false

def resultType (f : AggregateFunction) (argument : Option DataType) : DataType :=
  match f with
  | .count | .countStar => .int32
  | .rowNumber | .rank | .denseRank => .int64
  | .sum => (argument.map DataType.total).getD .int32
  | .avg => match argument with
    | some (.decimal128 p s) => .decimal128 p s
    | some t => if t.isInteger then t else .float64
    | none => .float64
  | .min | .max | .first => argument.getD .null
  | .stringAgg => .utf8

end AggregateFunction

inductive ScalarFunction where
  | abs
  | ceiling
  | floor
  | round
  | power
  | sqrt
  | upper
  | lower
  | trim
  | ltrim
  | rtrim
  | len
  | left
  | right
  | substring
  | concat
  | replace
  | charindex
  | year
  | month
  | day
  | dateAdd
  | dateDiff
  | datePart
  | getDate
  | getUtcDate
  | coalesce
  | isNull
  | nullIf
  | iif
  | newId
deriving DecidableEq, Repr, Inhabited

/-- How many arguments a function takes; no upper bound when `most` is absent. -/
structure Arity where
  least : Nat
  most : Option Nat
deriving DecidableEq, Repr, Inhabited

def Arity.exactly (n : Nat) : Arity := ⟨n, some n⟩

def Arity.admits (a : Arity) (n : Nat) : Bool :=
  decide (a.least ≤ n) && a.most.all (fun most => decide (n ≤ most))

namespace ScalarFunction

def all : List ScalarFunction :=
  [.abs, .ceiling, .floor, .round, .power, .sqrt, .upper, .lower, .trim, .ltrim, .rtrim, .len,
   .left, .right, .substring, .concat, .replace, .charindex, .year, .month, .day, .dateAdd,
   .dateDiff, .datePart, .getDate, .getUtcDate, .coalesce, .isNull, .nullIf, .iif, .newId]

def name : ScalarFunction → String
  | .abs => "ABS"
  | .ceiling => "CEILING"
  | .floor => "FLOOR"
  | .round => "ROUND"
  | .power => "POWER"
  | .sqrt => "SQRT"
  | .upper => "UPPER"
  | .lower => "LOWER"
  | .trim => "TRIM"
  | .ltrim => "LTRIM"
  | .rtrim => "RTRIM"
  | .len => "LEN"
  | .left => "LEFT"
  | .right => "RIGHT"
  | .substring => "SUBSTRING"
  | .concat => "CONCAT"
  | .replace => "REPLACE"
  | .charindex => "CHARINDEX"
  | .year => "YEAR"
  | .month => "MONTH"
  | .day => "DAY"
  | .dateAdd => "DATEADD"
  | .dateDiff => "DATEDIFF"
  | .datePart => "DATEPART"
  | .getDate => "GETDATE"
  | .getUtcDate => "GETUTCDATE"
  | .coalesce => "COALESCE"
  | .isNull => "ISNULL"
  | .nullIf => "NULLIF"
  | .iif => "IIF"
  | .newId => "NEWID"

def ofName? (s : String) : Option ScalarFunction :=
  all.find? (·.name == Text.upperAscii s)

def arity : ScalarFunction → Arity
  | .getDate | .getUtcDate | .newId => .exactly 0
  | .abs | .ceiling | .floor | .sqrt | .upper | .lower | .trim | .ltrim | .rtrim | .len | .year
  | .month | .day => .exactly 1
  | .power | .left | .right | .isNull | .nullIf | .datePart => .exactly 2
  | .round | .charindex => ⟨2, some 3⟩
  | .substring | .replace | .dateAdd | .dateDiff | .iif => .exactly 3
  | .concat => ⟨2, none⟩
  | .coalesce => ⟨1, none⟩

def takesDatePart : ScalarFunction → Bool
  | .dateAdd | .dateDiff | .datePart => true
  | _ => false

end ScalarFunction

end BatchPlan
