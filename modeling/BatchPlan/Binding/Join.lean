import BatchPlan.Binding.Scalar

namespace BatchPlan

structure Relation where
  plan : Plan
  tables : List String
deriving Repr, Inhabited

inductive JoinSide where
  | left
  | right
deriving DecidableEq, Repr, Inhabited

/-- The side that has all columns of an expression; the left one if both have. -/
def Scalar.side? (e : Scalar) (left right : Schema) : Option JoinSide :=
  if e.columns.isEmpty then none
  else if e.columns.all left.contains then some .left
  else if e.columns.all right.contains then some .right
  else none

structure JoinKey where
  left : Scalar
  right : Scalar
deriving Repr, Inhabited

def JoinKey.ofCondition? (left right : Schema) : Scalar → Option JoinKey
  | .binary a .eq b => match a.side? left right, b.side? left right with
    | some .left, some .right => some ⟨a, b⟩
    | some .right, some .left => some ⟨b, a⟩
    | _, _ => none
  | _ => none

def JoinKey.split (left right : Schema) : List Scalar → Option JoinKey × List Scalar
  | [] => (none, [])
  | c :: rest => match JoinKey.ofCondition? left right c with
    | some key => (some key, rest)
    | none =>
      let (key, residue) := JoinKey.split left right rest
      (key, c :: residue)

def Scalar.checkMatch (a : Scalar) (left : Schema) (b : Scalar) (right : Schema)
    (base : Collation) : Result Unit := do
  let s ← a.dataType left
  let t ← b.dataType right
  s.checkComparable t
  if s.isString && t.isString then
    let l ← a.collationLabel left base
    discard <| l.comparison (← b.collationLabel right base)

namespace Plan

/-- A join in which the right side runs once for each left row. -/
def loop (left right : Plan) (type : JoinType) (outer : List OuterBinding) : Plan :=
  .join left right { type, strategy := .nestedLoop outer }

def loopJoin (left right : Plan) (type : JoinType) (residue : List Scalar) : BindM Plan := do
  if type = .fullOuter then
    throw (.refuse "FULL OUTER JOIN without an equality condition"
      "Add an equality between a column of each side")
  let right ← right.spooled
  return .join left right
    { type, strategy := .nestedLoop [], condition := Scalar.conjunction? residue }

/-- A join by two columns. Inner joins check what remains of the condition afterwards. -/
def keyJoin (left right : Plan) (leftKey rightKey : Column) (type : JoinType)
    (residue : List Scalar) : Plan :=
  let isMerge := left.schema.isPrimaryKey leftKey || right.schema.isPrimaryKey rightKey
  let strategy : JoinStrategy := if isMerge then .merge leftKey rightKey else .hash leftKey rightKey
  let left := if isMerge then left.ordered [⟨leftKey, .asc⟩] else left
  let right := if isMerge then right.ordered [⟨rightKey, .asc⟩] else right
  let condition := Scalar.conjunction? residue
  if type = .inner then
    let join := Plan.join left right { type, strategy }
    match condition with
    | some predicate => .filter join predicate
    | none => join
  else .join left right { type, strategy, condition }

def joined (left right : Plan) (type : JoinType) (condition : Option Scalar) : BindM Plan := do
  let leftSchema := left.schema
  let rightSchema := right.schema
  match JoinKey.split leftSchema rightSchema ((condition.map Scalar.conjuncts).getD []) with
  | (none, residue) => left.loopJoin right type residue
  | (some key, residue) =>
    key.left.checkMatch leftSchema key.right rightSchema (← read).options.collation
    let (left, leftKey) ← left.withColumn key.left
    let (right, rightKey) ← right.withColumn key.right
    return left.keyJoin right leftKey rightKey type residue

end Plan

def Relation.cross (left right : Relation) : BindM Relation := do
  return ⟨left.plan.loop (← right.plan.spooled) .inner [], left.tables ++ right.tables⟩

end BatchPlan
