import BatchPlan.Function
import BatchPlan.Scalar.Value
import BatchPlan.Schema
import BatchPlan.Text.Basic

namespace BatchPlan

inductive BinaryOp where
  | add
  | subtract
  | multiply
  | divide
  | modulo
  | eq
  | notEq
  | lt
  | ltEq
  | gt
  | gtEq
  | and
  | or
  | like
  | notLike
deriving DecidableEq, Repr, Inhabited

namespace BinaryOp

def all : List BinaryOp :=
  [.add, .subtract, .multiply, .divide, .modulo, .eq, .notEq, .lt, .ltEq, .gt, .gtEq, .and, .or,
   .like, .notLike]

def text : BinaryOp → String
  | .add => "+"
  | .subtract => "-"
  | .multiply => "*"
  | .divide => "/"
  | .modulo => "%"
  | .eq => "="
  | .notEq => "<>"
  | .lt => "<"
  | .ltEq => "<="
  | .gt => ">"
  | .gtEq => ">="
  | .and => "AND"
  | .or => "OR"
  | .like => "LIKE"
  | .notLike => "NOT LIKE"

def ofText? (s : String) : Option BinaryOp :=
  all.find? (·.text == s)

def isComparison : BinaryOp → Bool
  | .eq | .notEq | .lt | .ltEq | .gt | .gtEq | .like | .notLike => true
  | _ => false

end BinaryOp

inductive UnaryOp where
  | not
  | negate
  | isNull
  | isNotNull
deriving DecidableEq, Repr, Inhabited

namespace UnaryOp

def all : List UnaryOp := [.not, .negate, .isNull, .isNotNull]

def text : UnaryOp → String
  | .not => "NOT"
  | .negate => "-"
  | .isNull => "IS NULL"
  | .isNotNull => "IS NOT NULL"

def ofText? (s : String) : Option UnaryOp :=
  all.find? (·.text == s)

def isTest : UnaryOp → Bool
  | .isNull | .isNotNull => true
  | _ => false

end UnaryOp

inductive Scalar where
  | column (c : Column)
  | literal (v : Value)
  | var (name : String) (type : DataType)
  /-- A value of an enclosing join's outer row. -/
  | outer (param : String) (type : DataType)
  | binary (left : Scalar) (op : BinaryOp) (right : Scalar)
  | unary (op : UnaryOp) (e : Scalar)
  | call (f : ScalarFunction) (args : List Scalar)
  | cast (e : Scalar) (type : DataType)
  | case (operand : Option Scalar) (branches : List (Scalar × Scalar)) (otherwise : Option Scalar)
  | inList (e : Scalar) (items : List Scalar) (negated : Bool)
  | between (e low high : Scalar) (negated : Bool)
  | collate (e : Scalar) (collation : Collation)
deriving Repr, Inhabited

namespace Scalar

def int (n : Int) : Scalar := .literal (.int32 n)

def eq (a b : Scalar) : Scalar := .binary a .eq b

def ltEq (a b : Scalar) : Scalar := .binary a .ltEq b

def gtEq (a b : Scalar) : Scalar := .binary a .gtEq b

def add (a b : Scalar) : Scalar := .binary a .add b

def subtract (a b : Scalar) : Scalar := .binary a .subtract b

def and (a b : Scalar) : Scalar := .binary a .and b

def or (a b : Scalar) : Scalar := .binary a .or b

def isNull (e : Scalar) : Scalar := .unary .isNull e

def isNotNull (e : Scalar) : Scalar := .unary .isNotNull e

def column? : Scalar → Option Column
  | .column c => some c
  | _ => none

mutual

def text : Scalar → String
  | .column c => c.text
  | .literal v => v.print
  | .var name _ => name
  | .outer param _ => param
  | .binary left op right => "(" ++ left.text ++ " " ++ op.text ++ " " ++ right.text ++ ")"
  | .unary op e =>
    if op.isTest then "(" ++ e.text ++ " " ++ op.text ++ ")" else "(" ++ op.text ++
      " " ++ e.text ++ ")"
  | .call f args => f.name ++ "(" ++ ", ".intercalate (texts args) ++ ")"
  | .cast e type => "CAST(" ++ e.text ++ " AS " ++ type.sqlName ++ ")"
  | .case operand branches otherwise =>
    "CASE " ++ optionText "" operand ++ branchesText branches ++
      optionText "ELSE " otherwise ++ "END"
  | .inList e items negated =>
    e.text ++ (if negated then " NOT IN (" else " IN (") ++ ", ".intercalate (texts items) ++ ")"
  | .between e low high negated =>
    e.text ++ (if negated then " NOT BETWEEN " else " BETWEEN ") ++ low.text ++ " AND " ++ high.text
  | .collate e collation => e.text ++ " COLLATE " ++ collation.name

def texts : List Scalar → List String
  | [] => []
  | e :: rest => e.text :: texts rest

def branchesText : List (Scalar × Scalar) → String
  | [] => ""
  | (c, r) :: rest => "WHEN " ++ c.text ++ " THEN " ++ r.text ++ " " ++ branchesText rest

def optionText (before : String) : Option Scalar → String
  | none => ""
  | some e => before ++ e.text ++ " "

end

mutual

/-- The expression and everything in it, parents first and from left to right. -/
def parts : Scalar → List Scalar
  | .column c => [.column c]
  | .literal v => [.literal v]
  | .var name type => [.var name type]
  | .outer param type => [.outer param type]
  | .binary left op right => .binary left op right :: (left.parts ++ right.parts)
  | .unary op e => .unary op e :: e.parts
  | .call f args => .call f args :: partsOfList args
  | .cast e type => .cast e type :: e.parts
  | .case operand branches otherwise => .case operand branches otherwise ::
      (partsOfOption operand ++ partsOfBranches branches ++ partsOfOption otherwise)
  | .inList e items negated => .inList e items negated :: (e.parts ++ partsOfList items)
  | .between e low high negated =>
    .between e low high negated :: (e.parts ++ low.parts ++ high.parts)
  | .collate e collation => .collate e collation :: e.parts

def partsOfList : List Scalar → List Scalar
  | [] => []
  | e :: rest => e.parts ++ partsOfList rest

def partsOfBranches : List (Scalar × Scalar) → List Scalar
  | [] => []
  | (c, r) :: rest => c.parts ++ r.parts ++ partsOfBranches rest

def partsOfOption : Option Scalar → List Scalar
  | none => []
  | some e => e.parts

end

def columns (e : Scalar) : List Column :=
  e.parts.filterMap column?

def varName? : Scalar → Option String
  | .var name _ => some name
  | _ => none

def varNames (e : Scalar) : List String :=
  e.parts.filterMap varName?

def param? : Scalar → Option String
  | .outer param _ => some param
  | _ => none

def params (e : Scalar) : List String :=
  e.parts.filterMap param?

def conjuncts : Scalar → List Scalar
  | .binary left .and right => left.conjuncts ++ right.conjuncts
  | e => [e]

def conjunction? : List Scalar → Option Scalar
  | [] => none
  | e :: rest => some (rest.foldl and e)

end Scalar

end BatchPlan
