import BatchPlan.Catalog.Basic
import BatchPlan.Catalog.Suggestion
import BatchPlan.Document

namespace BatchPlan

/-- Entities whose names differ in lower case. -/
structure Catalog where
  entities : List Entity := []
deriving DecidableEq, Repr, Inhabited

namespace Catalog

def insert (c : Catalog) (e : Entity) : Catalog :=
  ⟨c.entities.filter (fun f => Text.lower f.name != Text.lower e.name) ++ [e]⟩

def names (c : Catalog) : List String :=
  (c.entities.map (·.name)).mergeSort fun a b => !(b < a)

def lookup (c : Catalog) (name : String) : Result Entity :=
  match c.entities.find? fun e => Text.lower e.name == Text.lower name with
  | some e => .ok e
  | none => .error (.unknownObject name c.names)

def attribute? (d : Document) : Option Attribute := do
  let fields ← d.fields? ["logical_name", "type", "nullable", "collation"]
  return {
    name := ← fields.required "logical_name" (·.toText?)
    type := ← fields.required "type" fun d => d.toName?.bind AttributeType.ofName?
    nullable := ← fields.withDefault "nullable" (·.toBool?) true
    collation := ← fields.withDefault "collation"
      (·.toOption? fun d => d.toText?.map Collation.mk) none }

def relationship? (d : Document) : Option Relationship := do
  let fields ← d.fields?
    ["name", "kind", "attribute", "related_entity", "related_attribute", "hierarchical"]
  return {
    name := ← fields.required "name" (·.toText?)
    kind := ← fields.required "kind" fun d => d.toName?.bind RelationshipKind.ofName?
    ownAttribute := ← fields.required "attribute" (·.toText?)
    relatedEntity := ← fields.required "related_entity" (·.toText?)
    relatedAttribute := ← fields.required "related_attribute" (·.toText?)
    hierarchical := ← fields.withDefault "hierarchical" (·.toBool?) false }

def entity? (d : Document) : Option Entity := do
  let fields ← d.fields?
    ["logical_name", "primary_key", "attributes", "relationships", "recycle_bin_enabled",
     "archival_enabled", "estimated_row_count"]
  return {
    name := ← fields.required "logical_name" (·.toText?)
    primaryKey := ← fields.required "primary_key" (·.toText?)
    attributes := ← fields.required "attributes" (·.toList? attribute?)
    relationships := ← fields.withDefault "relationships" (·.toList? relationship?) []
    recycleBin := ← fields.withDefault "recycle_bin_enabled" (·.toBool?) false
    archive := ← fields.withDefault "archival_enabled" (·.toBool?) false
    rowCount := ← fields.withDefault "estimated_row_count" (·.toOption? (·.toRows?)) none }

def entities? (d : Document) : Option (List Entity) := do
  (← d.fields? ["entities"]).required "entities" (·.toList? entity?)

/-- Takes in entities one by one, up to the first that is not valid. -/
def ofEntities (entities : List Entity) : Result Catalog :=
  entities.foldlM (fun c e => do e.validate; return c.insert e) {}

def load (text : String) : Result Catalog := do
  ofEntities (← (Document.read entities? text).mapError PlanError.metadata)

end Catalog

end BatchPlan
