import BatchPlan.DataType
import BatchPlan.Sql.Expr
import BatchPlan.Text.Basic

namespace BatchPlan

def commaParts (cs : List Char) : List (List Char) :=
  cs.foldr (fun c parts => if c = ',' then [] :: parts else match parts with
    | part :: rest => (c :: part) :: rest
    | [] => [[c]]) [[]]

namespace DataType

/-- A decimal type of a precision and a scale. Numbers that do not fit in a byte are passed over,
and a scale above 127 wraps around. -/
def decimalOf (numbers : List Nat) : DataType :=
  .decimal128 (numbers.headD 18).toUInt8 ((numbers.drop 1).headD 0 : Int).toInt8

def ofBase? (base : String) (numbers : List Nat) : Option DataType :=
  match base with
  | "INT" | "INTEGER" => some .int32
  | "BIGINT" => some .int64
  | "SMALLINT" => some .int16
  | "TINYINT" => some .uint8
  | "BIT" | "BOOLEAN" => some .boolean
  | "DECIMAL" | "NUMERIC" | "DEC" => some (decimalOf numbers)
  | "MONEY" => some (.decimal128 19 4)
  | "SMALLMONEY" => some (.decimal128 10 4)
  | "FLOAT" | "REAL" | "DOUBLE" | "DOUBLE PRECISION" => some .float64
  | "VARCHAR" | "NVARCHAR" | "CHAR" | "NCHAR" | "TEXT" | "NTEXT" | "STRING"
  | "CHARACTER VARYING" | "CHARACTER" => some .utf8
  | "DATE" => some .date32
  | "DATETIME" | "DATETIME2" | "SMALLDATETIME" | "DATETIMEOFFSET" | "TIMESTAMP" => some .timestamp
  | "UNIQUEIDENTIFIER" => some guid
  | _ => none

/-- The type that a name stands for. Lengths are not kept. -/
def ofName (name : Sql.TypeName) : Result DataType :=
  let text := Text.upperAscii name.text
  let base := text.toList.takeWhile (· != '(')
  let args := text.toList.drop (base.length + 1)
  let args := (args.reverse.dropWhile (· == ')')).reverse
  match ofBase? (String.ofList (Text.trimBlanks base))
    ((commaParts args).filterMap fun cs => digitsBelow? 256 (Text.trimBlanks cs)) with
  | some type => .ok type
  | none => .error (.unsupported ("data type " ++ text))

end DataType

end BatchPlan
