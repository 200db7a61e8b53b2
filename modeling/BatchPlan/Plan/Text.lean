import BatchPlan.Plan.Basic

namespace BatchPlan

def Definition.text (d : Definition) : String :=
  d.name ++ " = " ++ d.expr.text

def definitionsText (ds : List Definition) : String :=
  "[" ++ Text.listed (ds.map Definition.text) ++ "]"

def columnsText (cs : List Column) : String :=
  "[" ++ Text.listed (cs.map Column.text) ++ "]"

def ScanSource.text : ScanSource → String
  | .recycleBin => "bin."
  | .archive => "archive."
  | .entity | .tempTable => ""

def JoinSpec.outputText (j : JoinSpec) : String :=
  match j.output with
  | .both => ""
  | .left => if j.anti then ", anti semi" else ", semi"
  | .right => ", right columns"

def JoinStrategy.detail : JoinStrategy → String
  | .merge l r | .hash l r => " on " ++ l.text ++ " = " ++ r.text
  | .nestedLoop [] => ""
  | .nestedLoop outer => " outer references: [" ++
      Text.listed (outer.map fun b => b.param ++ " = " ++ b.column.text) ++ "]"

def AggregateValue.text (v : AggregateValue) : String :=
  let call := match v.function with
    | .countStar => "COUNT(*)"
    | f => f.name ++ "(" ++ (if v.distinct then "DISTINCT " else "") ++
        Text.listed (v.args.map Scalar.text) ++ ")"
  let order := if v.withinGroup.isEmpty then ""
    else " WITHIN GROUP (ORDER BY " ++ Text.listed (v.withinGroup.map SortKey.text) ++ ")"
  v.name ++ " = " ++ call ++ order

def SpoolMode.text : SpoolMode → String
  | .table => "Table"
  | .stack => "Stack"
  | .segment none => "Segment"
  | .segment (some c) => "Segment on " ++ c.text
  | .window frame => "Window rows " ++ frame.first.text ++ ".." ++ frame.last.text ++ " of " ++
      frame.rowNumber.text ++ " [" ++
      Text.listed (frame.values.map fun v => v.name ++ " = " ++ v.source.text) ++ "]"

namespace Plan

def heading : Plan → String
  | .scan s => "Scan: " ++ s.source.text ++ s.entity ++ " AS " ++ s.relation ++ " [" ++
      Text.listed (s.columns.map (·.name)) ++ "]"
  | .filter _ predicate => "Filter: " ++ predicate.text
  | .compute _ values => "Compute Scalar: " ++ definitionsText values
  | .join _ _ spec => spec.strategy.text ++ " Join (" ++ spec.type.text ++ spec.outputText ++ ")" ++
      spec.strategy.detail
  | .aggregate _ spec =>
    spec.strategy.text ++ " Aggregate: group_by=" ++ columnsText spec.groupBy ++
      ", aggs=[" ++ Text.listed (spec.values.map AggregateValue.text) ++ "]"
  | .sort _ keys => "Sort: [" ++ Text.listed (keys.map SortKey.text) ++ "]"
  | .segment _ partitionBy mark => "Segment: " ++ mark ++ " by " ++ columnsText partitionBy
  | .sequence _ values => "Sequence Project: [" ++
      Text.listed (values.map fun v => v.name ++ " = " ++ v.function.name ++ "()") ++ "]"
  | .distinct _ columns => "Distinct: " ++ columnsText columns
  | .top _ count percent withTies =>
    "Top: " ++ count.text ++ (if percent then " PERCENT" else "") ++
      if withTies then " WITH TIES" else ""
  | .offset _ start fetch => "Offset Fetch: offset=" ++ start.text ++
      match fetch with
      | some e => ", fetch=" ++ e.text
      | none => ""
  | .spool id _ kind mode => kind.text ++ " " ++ mode.text ++ " Spool #" ++ toString id
  | .consumer producer _ => "Spool Consumer: #" ++ toString producer
  | .concat _ columns => "Concatenate: [" ++ Text.listed (columns.map (·.name)) ++ "]"
  | .rename _ name columns => "Alias: " ++ name ++ " [" ++
      Text.listed (columns.map fun c => c.source.text ++ " AS " ++ c.name) ++ "]"
  | .constant columns rows => "Constant Row: " ++ toString rows.length ++ " rows [" ++
      Text.listed (columns.map (·.name)) ++ "]"
  | .assert _ predicate _ => "Assert: " ++ predicate.text
  | .function call => "Table Function: " ++ call.function.name ++ "(" ++
      Text.listed (call.args.map Scalar.text) ++ ") AS " ++ call.relation

def details : Plan → List String
  | .join _ _ spec =>
    (spec.condition.toList.map fun e => "  condition: " ++ e.text) ++
      if spec.definitions.isEmpty then [] else ["  defines: " ++ definitionsText spec.definitions]
  | _ => []

def lines (p : Plan) (depth : Nat) : List String :=
  (p.outline depth).flatMap fun (d, q) =>
    (q.heading :: q.details).map ("".pushn ' ' (2 * d) ++ ·)

end Plan

end BatchPlan
