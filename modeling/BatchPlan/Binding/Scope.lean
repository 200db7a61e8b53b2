import BatchPlan.Binding.Context
import BatchPlan.Plan.Schema
import BatchPlan.Sql.Search

namespace BatchPlan

structure Level where
  schema : Schema
  /-- The aliases of the sources, in the order that a star takes. -/
  tables : List String := []
  /-- The values of expressions that are computed already, by their texts, the newest first. -/
  computed : List (String × Scalar) := []
  /-- What was in view before rows were grouped. -/
  preAggregate : Option Schema := none
deriving Repr, Inhabited

/-- The names of a query and of those around it, the nearest first. -/
structure Scope extends Level where
  outer : List Level := []
deriving Repr, Inhabited

namespace Level

def knowsRelation (l : Level) (relation : String) : Bool :=
  l.schema.hasRelation relation || l.preAggregate.any (·.hasRelation relation)

def starSchema (l : Level) : Schema :=
  l.preAggregate.getD l.schema

end Level

namespace Scope

def empty : Scope := { schema := .empty }

def ofSchema (schema : Schema) (outer : List Level) : Scope :=
  { schema, outer }

def levels (s : Scope) : List Level :=
  s.toLevel :: s.outer

def withSchema (s : Scope) (schema : Schema) : Scope :=
  { s with schema }

def knowsRelation (s : Scope) (relation : String) : Bool :=
  s.levels.any (·.knowsRelation relation)

def computed? (s : Scope) (e : Sql.Expr) : Option Scalar :=
  match s.computed with
  | [] => none
  | computed => computed.lookup e.key

def addComputed (s : Scope) (key : String) (value : Scalar) : Scope :=
  { s with computed := (key, value) :: s.computed }

def owner? (c : Column) (level : Nat) : List Level → Result (Option (Nat × Field))
  | [] => .ok none
  | l :: rest => do
    match ← l.schema.find? c with
    | some (_, field) => return some (level, field)
    | none => owner? c (level + 1) rest

def missing (s : Scope) (c : Column) : PlanError :=
  if s.preAggregate.any (·.contains c) then
    .semantic ("Column '" ++ c.text ++
      "' is invalid in the select list because it is not contained in either an aggregate " ++
      "function or the GROUP BY clause")
  else .columnNotFound c.text

def resolve (s : Scope) (c : Column) : BindM Scalar := do
  match ← s.schema.find? c with
  | some (_, field) => return .column field.column
  | none =>
    match ← owner? c 0 s.outer with
    | some (level, field) => BindM.capture level field.column field.dataType
    | none => throw (s.missing c)

end Scope

end BatchPlan
