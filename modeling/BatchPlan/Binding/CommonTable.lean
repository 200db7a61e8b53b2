import BatchPlan.Binding.SetOperation

namespace BatchPlan

def repeatedName? (seen : List String) : List String → Option String
  | [] => none
  | name :: rest =>
    if seen.contains (Text.lower name) then some name
    else repeatedName? (Text.lower name :: seen) rest

/-- Puts the expressions of a WITH clause into view, each for those after it. At a fault the ones
before it are left in view. -/
def registerCtes (seen : List String) : List (Sql.Cte Sql.Query) → DeskM Unit
  | [] => pure ()
  | cte :: rest => do
    let name := cte.tableAlias.name.value
    if seen.contains (Text.lower name) then throw (.duplicate "CTE" name)
    let columns := cte.tableAlias.columnNames
    match repeatedName? [] columns with
    | some column => throw (repeatedColumnError name column)
    | none =>
      DeskM.change fun c => { c with ctes := ⟨name, columns, cte.query, c.ctes⟩ :: c.ctes }
      registerCtes (Text.lower name :: seen) rest

theorem exists_of_registerCtes (seen : List String) (ctes : List (Sql.Cte Sql.Query)) (d : Desk) :
    ∃ more, ((registerCtes seen ctes).run.run d).2 =
      { d with context := { d.context with ctes := more ++ d.context.ctes } } := by
  induction ctes generalizing seen d with
  | nil => exact ⟨[], rfl⟩
  | cons cte rest ih =>
    unfold registerCtes
    dsimp only
    split
    · exact ⟨[], rfl⟩
    · split
      · exact ⟨[], rfl⟩
      next =>
        obtain ⟨more, hmore⟩ := ih (Text.lower cte.tableAlias.name.value :: seen) _
        exact ⟨more ++ [_], hmore.trans (by rw [List.append_assoc]; rfl)⟩

theorem exists_of_registerCtes_bind {α : Type} (ctes : List (Sql.Cte Sql.Query))
    (body : BindM α) (d : Desk) :
    ∃ more, (((do registerCtes [] ctes; body.act) : DeskM α).run.run d).2.context =
      { d.context with ctes := more ++ d.context.ctes } := by
  obtain ⟨more, hmore⟩ := exists_of_registerCtes [] ctes d
  refine ⟨more, ?_⟩
  rw [DeskM.run_bind]
  rcases hrun : (registerCtes [] ctes).run.run d with ⟨_ | _, d'⟩ <;> rw [hrun] at hmore
  · exact congrArg Desk.context hmore
  · exact (body.tidy d').trans (congrArg Desk.context hmore)

/-- Binds a query one level deeper and with the expressions of its WITH clause in view. On the way
out the view is cut back to what it was, even if only some of them came into view. -/
def BindM.nested {α : Type} (ctes : List (Sql.Cte Sql.Query)) (body : BindM α) : BindM α where
  act := do
    let visible := (← get).context.ctes.length
    DeskM.change fun c => { c with depth := c.depth + 1 }
    let result ← DeskM.outcome do
      registerCtes [] ctes
      body.act
    DeskM.change fun c => { c with depth := c.depth - 1 }
    DeskM.change fun c => { c with ctes := c.ctes.drop (c.ctes.length - visible) }
    liftM result
  tidy d := by
    obtain ⟨more, hmore⟩ := exists_of_registerCtes_bind ctes body
      { d with context := { d.context with depth := d.context.depth + 1 } }
    refine (congrArg (fun c : BindContext => { c with
      depth := c.depth - 1, ctes := c.ctes.drop (c.ctes.length - d.context.ctes.length) })
        hmore).trans ?_
    simp

/-- The row that a recursive member reads: one row of parameters. -/
def RecursiveReference.plan (r : RecursiveReference) : QueryPlan where
  root := .constant (r.columns.map fun c => ⟨c.name, c.dataType, c.nullable⟩)
    [r.columns.map fun c => .outer c.param c.dataType]
  columns := r.columns.map fun c => ⟨c.name, .bare c.name⟩

structure RecursiveMembers where
  anchors : List Sql.UnionMember := []
  steps : List (Sql.SetExpr Sql.Query) := []

/-- A member that reads the expression itself is a step. Anchors come first, and steps follow by
UNION ALL. -/
def RecursiveMembers.add (name : String) (ms : RecursiveMembers) (m : Sql.UnionMember) :
    Result RecursiveMembers :=
  if m.body.reads name then
    if m.isAll then .ok { ms with steps := ms.steps ++ [m.body] }
    else .error (.semantic ("Recursive common table expression '" ++ name ++
      "' does not contain a top-level UNION ALL operator."))
  else if ms.steps.isEmpty then .ok { ms with anchors := ms.anchors ++ [m] }
  else .error (.semantic ("The anchor members of recursive common table expression '" ++ name ++
    "' must come before its recursive members."))

def RecursiveMembers.ofQuery (name : String) (q : Sql.Query) : Result RecursiveMembers := do
  if !q.ctes.isEmpty || !q.orderBy.isEmpty || q.offset.isSome || q.fetch.isSome then
    throw (.unsupported ("WITH, ORDER BY or OFFSET in recursive common table expression '" ++
      name ++ "'"))
  let ms ← q.body.unionMembers.foldlM (RecursiveMembers.add name) {}
  if ms.anchors.isEmpty then
    throw (.semantic ("No anchor member was specified for recursive query '" ++ name ++ "'."))
  return ms

def CteDefinition.columnNames (d : CteDefinition) (anchor : QueryPlan) : Result (List String) :=
  if d.columns.isEmpty then .ok anchor.columnNames
  else if d.columns.length = anchor.columns.length then .ok d.columns
  else .error (columnCountError d.name d.columns.length anchor.columns.length)

/-- The columns of a recursive row have the types of the anchor. -/
def RecursiveColumn.ofAnchor (relation : String) (names : List String) (anchor : QueryPlan) :
    BindM (List RecursiveColumn) := do
  let schema := anchor.schema
  (names.zip anchor.columns).zipIdx.mapM fun ((name, output), i) => do
    if name.isEmpty then throw (unnamedColumnError relation (i + 1))
    let (_, field) ← schema.resolve output.source
    return ⟨name, field.dataType, field.nullable, ← BindM.freshParam⟩

def checkStep (name : String) (columns : List RecursiveColumn) (step : QueryPlan) :
    Result Unit := do
  if step.columns.length != columns.length then throw widthError
  let schema := step.schema
  (columns.zip step.columns).forM fun (column, output) => do
    let (_, field) ← schema.resolve output.source
    if field.dataType != column.dataType && field.dataType != .null then
      throw (.typeMismatch
        ("Types don't match between the anchor and the recursive part in column \"" ++
        column.name ++ "\" of recursive query \"" ++ name ++ "\" (" ++
          column.dataType.sqlName ++ " and " ++
        field.dataType.sqlName ++ ")."))

def stackColumns (columns : List RecursiveColumn) (anchor step : QueryPlan) : List ConcatColumn :=
  let schema := step.schema
  (columns.zip (anchor.columns.zip step.columns)).map fun (column, fromAnchor, fromStep) =>
    let nullable := match schema.resolve fromStep.source with
      | .ok (_, field) => field.nullable
      | .error _ => true
    { name := column.name, dataType := column.dataType, nullable := column.nullable || nullable,
      sources := [fromAnchor.source, fromStep.source] }

def ConcatColumn.field (c : ConcatColumn) : Field where
  name := c.name
  dataType := c.dataType
  nullable := c.nullable
  calculated := true
  visible := c.visible

def Plan.bounded (p : Plan) (level : Column) (bound : Nat) : Plan :=
  if bound = 0 then p
  else .assert p ((Scalar.column level).ltEq (.int bound))
    ("The statement terminated. The maximum recursion " ++ toString bound ++
      " has been exhausted before statement completion.")

def recursiveStack (columns : List RecursiveColumn) (levelParam : String)
    (anchor step : QueryPlan) : BindM QueryPlan := do
  let first ← BindM.freshExpr
  let next ← BindM.freshExpr
  let level ← BindM.freshExpr
  let anchorRows := Plan.compute anchor.root
    [{ name := first, expr := .int 0, dataType := .int32, nullable := false }]
  let stepRows := Plan.compute step.root
    [{ name := next, expr := (Scalar.outer levelParam .int32).add (.int 1), dataType := .int32,
       nullable := false }]
  let stacked := stackColumns columns anchor step ++
    [{ name := level, dataType := .int32, nullable := false, visible := false,
       sources := [.bare first, .bare next] }]
  let id ← BindM.freshSpool
  let row := Plan.consumer id (.ofFields (stacked.map ConcatColumn.field))
  let bindings := columns.map (fun c => OuterBinding.mk c.param (.bare c.name)) ++
    [⟨levelParam, .bare level⟩]
  let recursion := Plan.join row stepRows
    { type := .inner, strategy := .nestedLoop bindings, output := .right }
  let recursion := recursion.bounded (.bare next) (← read).maxRecursion
  return ⟨.spool id (.concat [anchorRows, recursion] stacked) .lazy .stack,
    columns.map fun c => ⟨c.name, .bare c.name⟩⟩

namespace QueryBinder

def anchor (b : QueryBinder) (anchors : List Sql.UnionMember) : BindM QueryPlan := do
  let plans ← anchors.mapM fun m => return (← b.body m.body []).plan
  match plans with
  | [plan] => return plan
  | plans => QueryPlan.union plans ((anchors.drop 1).any fun m => !m.isAll)

def step (b : QueryBinder) (reference : RecursiveReference) (steps : List (Sql.SetExpr Sql.Query)) :
    BindM QueryPlan := do
  let plans ← BindM.stepping reference (steps.mapM fun body => return (← b.body body []).plan)
  plans.forM fun plan => checkStep reference.name reference.columns plan
  match plans with
  | [plan] => return plan
  | plans => QueryPlan.union plans false

def recursiveCte (b : QueryBinder) (d : CteDefinition) : BindM QueryPlan := do
  let members ← RecursiveMembers.ofQuery d.name d.query
  let anchor ← b.anchor members.anchors
  let columns ← RecursiveColumn.ofAnchor d.name (← d.columnNames anchor) anchor
  let levelParam ← BindM.freshParam
  let step ← b.step ⟨d.name, columns⟩ members.steps
  recursiveStack columns levelParam anchor step

def cte (b : QueryBinder) (d : CteDefinition) : BindM QueryPlan :=
  BindM.amidst d.visible <|
    if d.query.reads d.name then b.recursiveCte d
    else return (← b.query d.query []).plan

end QueryBinder

end BatchPlan
