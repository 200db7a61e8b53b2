import BatchPlan.Scalar.Typing
import BatchPlan.Schema

namespace BatchPlan

structure Definition where
  name : String
  expr : Scalar
  dataType : DataType
  nullable : Bool := true
deriving Repr, Inhabited

def Definition.column (d : Definition) : Column := .bare d.name

inductive ScanSource where
  | entity
  | recycleBin
  | archive
  | tempTable
deriving DecidableEq, Repr, Inhabited

structure Scan where
  entity : String
  relation : String
  source : ScanSource
  columns : List TableColumn
  primaryKey : Option String
  rowCount : Option UInt64
deriving DecidableEq, Repr, Inhabited

inductive JoinType where
  | inner
  | leftOuter
  | rightOuter
  | fullOuter
deriving DecidableEq, Repr, Inhabited

def JoinType.text : JoinType → String
  | .inner => "Inner"
  | .leftOuter => "Left Outer"
  | .rightOuter => "Right Outer"
  | .fullOuter => "Full Outer"

/-- A column of the outer row and the parameter by which the inner side reads it. -/
structure OuterBinding where
  param : String
  column : Column
deriving DecidableEq, Repr, Inhabited

inductive JoinStrategy where
  | merge (leftKey rightKey : Column)
  | hash (leftKey rightKey : Column)
  /-- The right side runs once for each left row. -/
  | nestedLoop (outer : List OuterBinding)
deriving DecidableEq, Repr, Inhabited

namespace JoinStrategy

def text : JoinStrategy → String
  | .merge .. => "Merge"
  | .hash .. => "Hash"
  | .nestedLoop _ => "Nested Loop"

def bindings : JoinStrategy → List OuterBinding
  | .nestedLoop outer => outer
  | _ => []

end JoinStrategy

inductive JoinOutput where
  | both
  /-- At most one row for each left row, and only its columns. -/
  | left
  | right
deriving DecidableEq, Repr, Inhabited

structure JoinSpec where
  type : JoinType
  strategy : JoinStrategy
  output : JoinOutput := .both
  anti : Bool := false
  condition : Option Scalar := none
  definitions : List Definition := []
deriving Repr, Inhabited

def JoinSpec.isSemi (j : JoinSpec) : Bool := j.output == .left

inductive AggregateStrategy where
  | hash
  | stream
deriving DecidableEq, Repr, Inhabited

def AggregateStrategy.text : AggregateStrategy → String
  | .hash => "Hash"
  | .stream => "Stream"

structure AggregateValue where
  name : String
  function : AggregateFunction
  args : List Scalar := []
  distinct : Bool := false
  withinGroup : List SortKey := []
  dataType : DataType
deriving Repr, Inhabited

structure Aggregation where
  strategy : AggregateStrategy
  groupBy : List Column
  values : List AggregateValue
deriving Repr, Inhabited

structure SequenceValue where
  name : String
  function : AggregateFunction
  segment : Column
  rankSegment : Option Column
deriving DecidableEq, Repr, Inhabited

inductive SpoolKind where
  /-- Filled before the first row is handed on. -/
  | eager
  /-- Filled at the first reading and replayed afterwards. -/
  | lazy
deriving DecidableEq, Repr, Inhabited

def SpoolKind.text : SpoolKind → String
  | .eager => "Eager"
  | .lazy => "Lazy"

structure FrameValue where
  name : String
  source : Column
deriving DecidableEq, Repr, Inhabited

/-- For each row, the rows of its segment between two row numbers. -/
structure WindowFrame where
  segment : Option Column
  rowNumber : Column
  first : Column
  last : Column
  values : List FrameValue
deriving DecidableEq, Repr, Inhabited

inductive SpoolMode where
  | table
  /-- Rows that come out of reading go back in. -/
  | stack
  /-- One segment at a time, replayed to consumers. -/
  | segment (segment : Option Column)
  | window (frame : WindowFrame)
deriving DecidableEq, Repr, Inhabited

structure ConcatColumn where
  name : String
  dataType : DataType
  nullable : Bool
  visible : Bool := true
  sources : List Column
deriving DecidableEq, Repr, Inhabited

structure AliasColumn where
  source : Column
  name : String
  visible : Bool := true
deriving DecidableEq, Repr, Inhabited

structure ConstantColumn where
  name : String
  dataType : DataType
  nullable : Bool
deriving DecidableEq, Repr, Inhabited

inductive TableFunction where
  | stringSplit
  | generateSeries
deriving DecidableEq, Repr, Inhabited

def TableFunction.name : TableFunction → String
  | .stringSplit => "STRING_SPLIT"
  | .generateSeries => "GENERATE_SERIES"

structure TableCall where
  function : TableFunction
  args : List Scalar
  relation : String
  columns : List TableColumn
deriving Repr, Inhabited

inductive Plan where
  | scan (s : Scan)
  | filter (input : Plan) (predicate : Scalar)
  | compute (input : Plan) (values : List Definition)
  | join (left right : Plan) (spec : JoinSpec)
  | aggregate (input : Plan) (spec : Aggregation)
  | sort (input : Plan) (keys : List SortKey)
  /-- Marks the first row of each run of equal values. -/
  | segment (input : Plan) (partitionBy : List Column) (mark : String)
  | sequence (input : Plan) (values : List SequenceValue)
  | distinct (input : Plan) (columns : List Column)
  | top (input : Plan) (count : Scalar) (percent withTies : Bool)
  | offset (input : Plan) (start : Scalar) (fetch : Option Scalar)
  | spool (id : Nat) (input : Plan) (kind : SpoolKind) (mode : SpoolMode)
  | consumer (producer : Nat) (schema : Schema)
  | concat (inputs : List Plan) (columns : List ConcatColumn)
  | rename (input : Plan) (name : String) (columns : List AliasColumn)
  | constant (columns : List ConstantColumn) (rows : List (List Scalar))
  | assert (input : Plan) (predicate : Scalar) (message : String)
  | function (call : TableCall)
deriving Repr, Inhabited

namespace Plan

def name : Plan → String
  | .scan _ => "Scan"
  | .filter .. => "Filter"
  | .compute .. => "Compute Scalar"
  | .join .. => "Join"
  | .aggregate .. => "Aggregate"
  | .sort .. => "Sort"
  | .segment .. => "Segment"
  | .sequence .. => "Sequence Project"
  | .distinct .. => "Distinct"
  | .top .. => "Top"
  | .offset .. => "Offset Fetch"
  | .spool .. => "Spool"
  | .consumer .. => "Spool Consumer"
  | .concat .. => "Concatenate"
  | .rename .. => "Alias"
  | .constant .. => "Constant Row"
  | .assert .. => "Assert"
  | .function _ => "Table Function"

def oneRow : Plan := .constant [] [[]]

def children : Plan → List Plan
  | .scan _ | .consumer .. | .constant .. | .function _ => []
  | .filter input _ | .compute input _ | .aggregate input _ | .sort input _
  | .segment input _ _ | .sequence input _ | .distinct input _ | .top input _ _ _
  | .offset input _ _ | .spool _ input _ _ | .rename input _ _ | .assert input _ _ => [input]
  | .join left right _ => [left, right]
  | .concat inputs _ => inputs

def withChildren (p : Plan) (inputs : List Plan) : Result Plan :=
  match p, inputs with
  | .scan s, [] => .ok (.scan s)
  | .consumer producer schema, [] => .ok (.consumer producer schema)
  | .constant columns rows, [] => .ok (.constant columns rows)
  | .function call, [] => .ok (.function call)
  | .filter _ predicate, [input] => .ok (.filter input predicate)
  | .compute _ values, [input] => .ok (.compute input values)
  | .join _ _ spec, [left, right] => .ok (.join left right spec)
  | .aggregate _ spec, [input] => .ok (.aggregate input spec)
  | .sort _ keys, [input] => .ok (.sort input keys)
  | .segment _ partitionBy mark, [input] => .ok (.segment input partitionBy mark)
  | .sequence _ values, [input] => .ok (.sequence input values)
  | .distinct _ columns, [input] => .ok (.distinct input columns)
  | .top _ count percent withTies, [input] => .ok (.top input count percent withTies)
  | .offset _ start fetch, [input] => .ok (.offset input start fetch)
  | .spool id _ kind mode, [input] => .ok (.spool id input kind mode)
  | .rename _ name columns, [input] => .ok (.rename input name columns)
  | .assert _ predicate message, [input] => .ok (.assert input predicate message)
  | .concat old columns, inputs =>
    if inputs.length = old.length then .ok (.concat inputs columns)
    else .error (wrongInputs (.concat old columns) inputs)
  | p, inputs => .error (wrongInputs p inputs)
where
  wrongInputs (p : Plan) (inputs : List Plan) : PlanError :=
    .internal (p.name ++ " expects " ++ toString p.children.length ++ " children, got " ++
      toString inputs.length)

def definedNames : Plan → List String
  | .compute _ values => values.map (·.name)
  | .join _ _ spec => spec.definitions.map (·.name)
  | .aggregate _ spec => spec.values.map (·.name)
  | .segment _ _ mark => [mark]
  | .sequence _ values => values.map (·.name)
  | .concat _ columns => columns.map (·.name)
  | .spool _ _ _ (.window frame) => frame.values.map (·.name)
  | _ => []

def expressions : Plan → List Scalar
  | .filter _ predicate => [predicate]
  | .compute _ values => values.map (·.expr)
  | .join _ _ spec => spec.condition.toList ++ spec.definitions.map (·.expr)
  | .aggregate _ spec => spec.values.flatMap (·.args)
  | .top _ count _ _ => [count]
  | .offset _ start fetch => start :: fetch.toList
  | .constant _ rows => rows.flatten
  | .assert _ predicate _ => [predicate]
  | .function call => call.args
  | _ => []

mutual

/-- All operators with their depths, parents first and from left to right. -/
def outline (depth : Nat) : Plan → List (Nat × Plan)
  | .scan s => [(depth, .scan s)]
  | .consumer producer schema => [(depth, .consumer producer schema)]
  | .constant columns rows => [(depth, .constant columns rows)]
  | .function call => [(depth, .function call)]
  | .filter input predicate => (depth, .filter input predicate) :: input.outline (depth + 1)
  | .compute input values => (depth, .compute input values) :: input.outline (depth + 1)
  | .join left right spec =>
    (depth, .join left right spec) :: (left.outline (depth + 1) ++ right.outline (depth + 1))
  | .aggregate input spec => (depth, .aggregate input spec) :: input.outline (depth + 1)
  | .sort input keys => (depth, .sort input keys) :: input.outline (depth + 1)
  | .segment input partitionBy mark =>
    (depth, .segment input partitionBy mark) :: input.outline (depth + 1)
  | .sequence input values => (depth, .sequence input values) :: input.outline (depth + 1)
  | .distinct input columns => (depth, .distinct input columns) :: input.outline (depth + 1)
  | .top input count percent withTies =>
    (depth, .top input count percent withTies) :: input.outline (depth + 1)
  | .offset input start fetch => (depth, .offset input start fetch) :: input.outline (depth + 1)
  | .spool id input kind mode => (depth, .spool id input kind mode) :: input.outline (depth + 1)
  | .concat inputs columns => (depth, .concat inputs columns) :: outlines (depth + 1) inputs
  | .rename input name columns => (depth, .rename input name columns) :: input.outline (depth + 1)
  | .assert input predicate message =>
    (depth, .assert input predicate message) :: input.outline (depth + 1)

def outlines (depth : Nat) : List Plan → List (Nat × Plan)
  | [] => []
  | p :: rest => p.outline depth ++ outlines depth rest

end

def operators (p : Plan) : List Plan :=
  (p.outline 0).map (·.2)

def varNames (p : Plan) : List String :=
  p.operators.flatMap fun q => q.expressions.flatMap Scalar.varNames

mutual

def params : Plan → List String
  | .scan _ | .consumer .. => []
  | .constant _ rows => rows.flatten.flatMap Scalar.params
  | .function call => call.args.flatMap Scalar.params
  | .filter input e | .assert input e _ | .top input e _ _ => e.params ++ input.params
  | .compute input values => values.flatMap (fun v => v.expr.params) ++ input.params
  | .join left right spec =>
    let bound := spec.strategy.bindings.map (·.param)
    spec.condition.toList.flatMap Scalar.params ++
      spec.definitions.flatMap (fun v => v.expr.params) ++ left.params ++
      right.params.filter fun param => !bound.contains param
  | .aggregate input spec =>
    spec.values.flatMap (fun v => v.args.flatMap Scalar.params) ++ input.params
  | .offset input start fetch => start.params ++ fetch.toList.flatMap Scalar.params ++ input.params
  | .sort input _ | .segment input _ _ | .sequence input _ | .distinct input _
  | .spool _ input _ _ | .rename input _ _ => input.params
  | .concat inputs _ => paramsOfList inputs

def paramsOfList : List Plan → List String
  | [] => []
  | p :: rest => p.params ++ paramsOfList rest

end

def isCorrelated (p : Plan) : Bool :=
  !p.params.isEmpty

end Plan

end BatchPlan
