import BatchPlan.Binding.Query
import BatchPlan.Proofs.Meaning.Lookup

namespace BatchPlan

open BindM

variable {c : BindContext} {q : QueryPlan}

structure Recursion where
  /-- The columns of a row, and the parameters by which a step reads them. -/
  columns : List RecursiveColumn
  levelParam : String
  anchor : QueryPlan
  step : QueryPlan
  /-- The level among the rows of the anchor. -/
  first : String
  /-- The level among the rows of a step. -/
  next : String
  /-- The level on the stack. -/
  level : String
  id : Nat
  bound : Nat

namespace Recursion

variable (r : Recursion)

def firstLevel : Definition where
  name := r.first
  expr := .int 0
  dataType := .int32
  nullable := false

def nextLevel : Definition where
  name := r.next
  expr := (Scalar.outer r.levelParam .int32).add (.int 1)
  dataType := .int32
  nullable := false

def anchorRows : Plan :=
  .compute r.anchor.root [r.firstLevel]

def stepRows : Plan :=
  .compute r.step.root [r.nextLevel]

def levelColumn : ConcatColumn where
  name := r.level
  dataType := .int32
  nullable := false
  visible := false
  sources := [.bare r.first, .bare r.next]

/-- The columns of the stack; the last one is the level. -/
def stacked : List ConcatColumn :=
  stackColumns r.columns r.anchor r.step ++ [r.levelColumn]

def row : Plan :=
  .consumer r.id (.ofFields (r.stacked.map ConcatColumn.field))

def bindings : List OuterBinding :=
  r.columns.map (fun c => ⟨c.param, .bare c.name⟩) ++ [⟨r.levelParam, .bare r.level⟩]

def loop : Plan :=
  .join r.row r.stepRows { type := .inner, strategy := .nestedLoop r.bindings, output := .right }

def recursion : Plan :=
  r.loop.bounded (.bare r.next) r.bound

def plan : QueryPlan where
  root := .spool r.id (.concat [r.anchorRows, r.recursion] r.stacked) .lazy .stack
  columns := r.columns.map fun c => ⟨c.name, .bare c.name⟩

end Recursion

theorem exists_of_recursiveStack {columns : List RecursiveColumn} {levelParam : String}
    {anchor step : QueryPlan} {s s' : BindState}
    (h : (recursiveStack columns levelParam anchor step).start c s = (.ok q, s')) :
    ∃ r : Recursion, r.columns = columns ∧ r.levelParam = levelParam ∧ r.anchor = anchor ∧
      r.step = step ∧ r.bound = c.maxRecursion ∧ q = r.plan := by
  obtain ⟨first, s₁, -, h⟩ := exists_of_start_bind h
  obtain ⟨next, s₂, -, h⟩ := exists_of_start_bind h
  obtain ⟨level, s₃, -, h⟩ := exists_of_start_bind h
  obtain ⟨id, s₄, -, h⟩ := exists_of_start_bind h
  rw [start_read_bind] at h
  cases h
  exact ⟨⟨columns, levelParam, anchor, step, first, next, level, id, c.maxRecursion⟩,
    rfl, rfl, rfl, rfl, rfl, rfl⟩

namespace QueryBinder

/-- How a recursive expression is bound: anchors first, then the columns of a row with a parameter
for each of them and for the level, and then the steps. -/
structure Recurs (b : QueryBinder) (d : CteDefinition) (c : BindContext) (s : BindState)
    (members : RecursiveMembers) (r : Recursion) : Prop where
  split : RecursiveMembers.ofQuery d.name d.query = .ok members
  runs : ∃ names s₁ s₂ s₃ s₄, (b.anchor members.anchors).start c s = (.ok r.anchor, s₁) ∧
    d.columnNames r.anchor = .ok names ∧
    (RecursiveColumn.ofAnchor d.name names r.anchor).start c s₁ = (.ok r.columns, s₂) ∧
    freshParam.start c s₂ = (.ok r.levelParam, s₃) ∧
    (b.step ⟨d.name, r.columns⟩ members.steps).start c s₃ = (.ok r.step, s₄)
  bound : r.bound = c.maxRecursion

theorem exists_of_recursiveCte {b : QueryBinder} {d : CteDefinition} {s s' : BindState}
    (h : (b.recursiveCte d).start c s = (.ok q, s')) :
    ∃ members r, b.Recurs d c s members r ∧ q = r.plan := by
  obtain ⟨members, hmembers, h⟩ := exists_of_start_lift_bind h
  obtain ⟨anchor, s₁, hanchor, h⟩ := exists_of_start_bind h
  obtain ⟨names, hnames, h⟩ := exists_of_start_lift_bind h
  obtain ⟨columns, s₂, hcolumns, h⟩ := exists_of_start_bind h
  obtain ⟨levelParam, s₃, hlevel, h⟩ := exists_of_start_bind h
  obtain ⟨step, s₄, hstep, h⟩ := exists_of_start_bind h
  obtain ⟨r, rfl, rfl, rfl, rfl, hbound, rfl⟩ := exists_of_recursiveStack h
  exact ⟨members, r, ⟨hmembers, ⟨names, s₁, s₂, s₃, s₄, hanchor, hnames, hcolumns, hlevel, hstep⟩,
    hbound⟩, rfl⟩

end QueryBinder

end BatchPlan
