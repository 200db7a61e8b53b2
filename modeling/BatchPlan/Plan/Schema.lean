import BatchPlan.Plan.Basic

namespace BatchPlan

def Definition.field (d : Definition) : Field where
  name := d.name
  dataType := d.dataType
  nullable := d.nullable
  calculated := true
  visible := false

namespace Plan

/-- More fields at the end; key and order stay as far as they can still be named. -/
def extended (input : Schema) (more : List Field) : Schema :=
  ((Schema.ofFields (input.fields ++ more)).withPrimaryKey input.primaryKey).withSortOrder
    input.sortOrder

def scanSchema (s : Scan) : Schema :=
  (Schema.ofFields (s.columns.map fun c =>
    { name := c.name, dataType := c.dataType, nullable := c.nullable, relation := some s.relation,
      collation := c.collation })).withPrimaryKey (s.primaryKey.map (Column.qualified s.relation))

/-- Fields of a side that an outer join may have to fill with NULL. -/
def padded (optional : Bool) (fields : List Field) : List Field :=
  fields.map fun f => { f with nullable := f.nullable || optional }

/-- Left rows stay apart when each of them meets at most one right row. -/
def joinSchema (left right : Schema) (j : JoinSpec) : Schema :=
  let fields := match j.output with
    | .both =>
      padded (j.type == .fullOuter) left.fields ++
        padded (j.type == .leftOuter || j.type == .fullOuter) right.fields
    | .left => left.fields
    | .right => right.fields
  let rightUnique := match j.strategy with
    | .merge _ rightKey => right.isPrimaryKey rightKey
    | _ => false
  let key := match j.output with
    | .left => left.primaryKey
    | .right => right.primaryKey
    | .both => if rightUnique && j.type != .fullOuter then left.primaryKey else none
  let order := match j.output, j.strategy with
    | .left, _ => left.sortOrder
    | .right, _ => []
    | .both, .hash .. => []
    | .both, _ => if j.type == .fullOuter then [] else left.sortOrder
  ((Schema.ofFields (fields ++ j.definitions.map Definition.field)).withPrimaryKey
    key).withSortOrder order

def isCount : AggregateFunction → Bool
  | .count | .countStar => true
  | _ => false

def AggregateValue.field (v : AggregateValue) : Field where
  name := v.name
  dataType := v.dataType
  nullable := !isCount v.function
  calculated := true
  visible := false

def aggregateSchema (input : Schema) (a : Aggregation) : Schema :=
  (Schema.ofFields (a.groupBy.filterMap input.field? ++
    a.values.map AggregateValue.field)).withPrimaryKey
    (input.primaryKey.filter fun key => a.groupBy.any (·.sameAs key))

def markField (name : String) : Field where
  name
  dataType := .boolean
  nullable := false
  calculated := true
  visible := false

def countField (name : String) : Field where
  name
  dataType := .int64
  nullable := false
  calculated := true
  visible := false

/-- A spool keeps the fields of its input and adds those of the rows in the frame. -/
def spoolSchema (input : Schema) (mode : SpoolMode) : Schema :=
  let added := match mode with
    | .window frame => frame.values.filterMap fun v => (input.field? v.source).map fun f =>
        ({ name := v.name, dataType := f.dataType, calculated := true, visible := false } : Field)
    | _ => []
  (Schema.ofFields (input.fields ++ added)).withPrimaryKey input.primaryKey

/-- The order of the input under the new names, up to the first key that is not handed on. -/
def aliasOrder (input : Schema) (name : String) (columns : List AliasColumn) :
    List SortKey → List SortKey
  | [] => []
  | key :: rest =>
    match input.index? key.column with
    | none => []
    | some target =>
      match columns.find? fun c => input.index? c.source == some target with
      | none => []
      | some c => ⟨.qualified name c.name, key.direction⟩ :: aliasOrder input name columns rest

def aliasSchema (input : Schema) (name : String) (columns : List AliasColumn) : Schema :=
  let known := columns.filterMap fun c => (input.field? c.source).map fun f => (c, f)
  let fields := known.map fun (c, f) =>
    { f with name := c.name, relation := some name, visible := c.visible }
  let key := (known.filter fun (c, _) => input.isPrimaryKey c.source).getLast?.map fun (c, _) =>
    Column.qualified name c.name
  ((Schema.ofFields fields).withPrimaryKey key).withSortOrder
    (aliasOrder input name columns input.sortOrder)

def schema : Plan → Schema
  | .scan s => scanSchema s
  | .filter input _ | .top input _ _ _ | .offset input _ _ | .assert input _ _ => input.schema
  | .compute input values => extended input.schema (values.map Definition.field)
  | .join left right spec => joinSchema left.schema right.schema spec
  | .aggregate input spec => aggregateSchema input.schema spec
  | .sort input keys => input.schema.withSortOrder keys
  | .segment input _ mark => extended input.schema [markField mark]
  | .sequence input values => extended input.schema (values.map fun v => countField v.name)
  | .distinct input columns => .ofFields (columns.filterMap input.schema.field?)
  | .spool _ input _ mode => spoolSchema input.schema mode
  | .consumer _ schema => schema
  | .concat _ columns => .ofFields (columns.map fun c =>
      { name := c.name, dataType := c.dataType, nullable := c.nullable, calculated := true,
        visible := c.visible })
  | .rename input name columns => aliasSchema input.schema name columns
  | .constant columns _ => .ofFields (columns.map fun c =>
      { name := c.name, dataType := c.dataType, nullable := c.nullable, calculated := true })
  | .function call => .ofFields (call.columns.map fun c =>
      { name := c.name, dataType := c.dataType, nullable := c.nullable,
        relation := some call.relation, calculated := true })

end Plan

end BatchPlan
