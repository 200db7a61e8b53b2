import BatchPlan.Binding.Grouping

namespace BatchPlan

/-- A frame by the distances of its ends from the current row; no start means the first row. -/
structure RowsFrame where
  start : Option Int
  stop : Int
deriving DecidableEq, Repr, Inhabited

def Sql.FrameOffset.rows (o : Sql.FrameOffset) : Result Int :=
  match o.digits with
  | none => .error (.unsupported ("window frame offset " ++ o.text))
  | some digits => match digitsBelow? (1 <<< 63) digits.toList with
    | some n => .ok n
    | none => .error (.semantic ("Invalid window frame offset " ++ digits))

def Sql.FrameBound.offset (b : Sql.FrameBound) (what : String) : Result (Option Int) :=
  match b with
  | .currentRow => .ok (some 0)
  | .preceding none => .ok none
  | .preceding (some o) => do return some (-(← o.rows))
  | .following (some o) => do return some (← o.rows)
  | .following none => .error (.refuse ("UNBOUNDED FOLLOWING as " ++ what ++ " of a window frame")
      "Reverse the ORDER BY and use UNBOUNDED PRECEDING")

def Sql.Frame.stopOffset (f : Sql.Frame) : Result Int :=
  match f.stop with
  | some (.preceding none) => .error (.semantic "UNBOUNDED PRECEDING cannot end a window frame")
  | some bound => do return (← bound.offset "end").getD 0
  | none => .ok 0

def RowsFrame.ofSql (frame : Option Sql.Frame) : Result RowsFrame := do
  match frame with
  | none =>
    throw (.refuse "window aggregate with ORDER BY and the default RANGE frame"
      "Specify ROWS BETWEEN UNBOUNDED PRECEDING AND CURRENT ROW")
  | some f =>
    if f.units != .rows then throw (.refuse (f.units.text ++ " window frame") "Use a ROWS frame")
    let start ← f.start.offset "start"
    let stop ← f.stopOffset
    if start.any (· > stop) then throw (.semantic "The window frame starts after it ends")
    return ⟨start, stop⟩

structure WindowInput where
  plan : Plan
  partitionBy : List Column
  orderBy : List SortKey
  args : List Column
  argType : Option DataType := none
deriving Repr, Inhabited

namespace WindowInput

/-- Rows sorted by partition and order, with a mark where a partition begins. -/
def segmented (w : WindowInput) (order : List SortKey) : BindM (Plan × Column) := do
  let keys := w.partitionBy.map (fun c => SortKey.mk c .asc) ++ order
  let mark ← BindM.freshSegment
  return (.segment (w.plan.ordered keys) w.partitionBy mark, .bare mark)

/-- Numbers along the rows. Ranks change where the columns of the order do. -/
def ranking (w : WindowInput) (f : AggregateFunction) : BindM (Plan × String) := do
  let (plan, segment) ← w.segmented w.orderBy
  let (plan, rankSegment) ←
    if f = .rowNumber then pure (plan, none)
    else do
      let mark ← BindM.freshSegment
      pure (Plan.segment plan (w.partitionBy ++ w.orderBy.map (·.column)) mark,
        some (Column.bare mark))
  let name ← BindM.freshExpr
  return (.sequence plan [⟨name, f, segment, rankSegment⟩], name)

def partitionAggregate (w : WindowInput) (f : AggregateFunction) : BindM (Plan × String) := do
  let (plan, segment) ← w.segmented []
  let id ← BindM.freshSpool
  let spool := Plan.spool id plan .lazy (.segment (some segment))
  let rows := Plan.consumer id spool.schema
  let name ← BindM.freshExpr
  let total := rows.summary
    [{ name, function := f, args := w.args.map .column, dataType := f.resultType w.argType }]
  let replay := total.loop rows .inner []
  return (.join spool replay { type := .inner, strategy := .nestedLoop [], output := .right }, name)

def rowAt (number : Scalar) (distance : Int) : Scalar :=
  if distance = 0 then number else number.add (.literal (.int64 distance))

def frameAggregate (w : WindowInput) (f : AggregateFunction) (frame : RowsFrame) :
    BindM (Plan × String) := do
  let (plan, segment) ← w.segmented w.orderBy
  let number ← BindM.freshExpr
  let numbered := Plan.sequence plan [⟨number, .rowNumber, segment, none⟩]
  let first ← BindM.freshExpr
  let last ← BindM.freshExpr
  let rowNumber := Scalar.column (.bare number)
  let start := match frame.start with
    | none => .literal (.int64 1)
    | some n => rowAt rowNumber n
  let bounded := Plan.compute numbered
    [{ name := first, expr := start, dataType := .int64, nullable := false },
     { name := last, expr := rowAt rowNumber frame.stop, dataType := .int64, nullable := false }]
  let groupBy := bounded.schema.fields.map Field.column
  let values ← w.args.mapM fun source => return FrameValue.mk (← BindM.freshExpr) source
  let id ← BindM.freshSpool
  let spool := Plan.spool id bounded .lazy
    (.window ⟨some segment, .bare number, .bare first, .bare last, values⟩)
  let name ← BindM.freshExpr
  return (.aggregate spool
    { strategy := .stream, groupBy,
      values := [{ name, function := f, args := values.map fun v => .column (.bare v.name),
                   dataType := f.resultType w.argType }] }, name)

end WindowInput

def AggregateFunction.ofWindowed (c : Sql.Call Sql.Expr) : Result AggregateFunction :=
  match c.function with
  | "ROW_NUMBER" => .ok .rowNumber
  | "RANK" => .ok .rank
  | "DENSE_RANK" => .ok .denseRank
  | name => match AggregateFunction.ofName? name with
    | some .count => .ok (if c.hasStar then .countStar else .count)
    | some f => .ok f
    | none => .error (.unsupported ("window function " ++ name))

def Scope.bindColumns (s : Scope) (schema : Schema) (es : List Sql.Expr) :
    BindM (List Column × List Definition) := do
  let bound ← es.mapM fun e => do (← s.bindChecked e).asColumn schema
  return (bound.map (·.1), bound.filterMap (·.2))

def Block.windowInput (k : Block) (c : Sql.Call Sql.Expr) (partitionBy : List Sql.Expr)
    (orderBy : List (Sql.OrderItem Sql.Expr)) : BindM WindowInput := do
  let schema := k.plan.schema
  let (partitionBy, forPartition) ← k.scope.bindColumns schema partitionBy
  let (orderBy, forOrder) ← k.scope.bindOrder schema orderBy
  let (args, forArgs) ← k.scope.bindColumns schema c.exprs
  let plan := k.plan.define (forPartition ++ forOrder ++ forArgs)
  return { plan, partitionBy, orderBy, args }

def WindowInput.bindRanking (w : WindowInput) (f : AggregateFunction) (name : String) :
    BindM (Plan × String) := do
  if !w.args.isEmpty then throw (.semantic ("The function '" ++ name ++ "' takes no arguments"))
  if w.orderBy.isEmpty then
    throw (.semantic ("The function '" ++ name ++ "' must have an OVER clause with ORDER BY."))
  w.ranking f

def WindowInput.bindAggregate (w : WindowInput) (f : AggregateFunction) (name : String)
    (frame : Option Sql.Frame) : BindM (Plan × String) := do
  if w.args.length != (if f = .countStar then 0 else 1) then
    throw (.semantic ("The " ++ name ++ " function requires 1 argument(s)"))
  let schema := w.plan.schema
  let argType ← w.args.head?.mapM fun c => return (← schema.resolve c).2.dataType
  let w := { w with argType }
  if w.orderBy.isEmpty then
    if frame.isSome then
      throw (.semantic ("The window frame of '" ++ name ++
        "' requires an ORDER BY in its OVER clause."))
    w.partitionAggregate f
  else w.frameAggregate f (← RowsFrame.ofSql frame)

def Block.bindWindow (k : Block) (c : Sql.Call Sql.Expr) : BindM (Plan × String) := do
  match c.window with
  | some (.spec none partitionBy orderBy frame) =>
    let name := c.function
    let f ← AggregateFunction.ofWindowed c
    if c.isDistinct then throw (.unsupported ("DISTINCT in windowed " ++ name))
    if f = .stringAgg then throw (.unsupported "windowed STRING_AGG")
    let w ← k.windowInput c partitionBy orderBy
    if f.isRanking then w.bindRanking f name else w.bindAggregate f name frame
  | _ => throw (.refuse ("named window in " ++ Sql.callText c)
      "Write the window specification in the OVER clause")

def Block.windows (k : Block) (es : List Sql.Expr) : BindM Block :=
  (Sql.windowCalls es).foldlM (fun k c => do
    let (plan, name) ← k.bindWindow c
    let scope := (k.scope.withSchema plan.schema).addComputed (Sql.ExprOf.key (.call c))
      (.column (.bare name))
    return ⟨plan, scope⟩) k

end BatchPlan
