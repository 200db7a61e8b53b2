import BatchPlan.Schema

namespace BatchPlan

inductive AttributeType where
  | string
  | memo
  | integer
  | bigInt
  | decimal
  | money
  | double
  | boolean
  | dateTime
  | uniqueIdentifier
  | lookup
  | owner
  | customer
  | picklist
  | state
  | status
  | entityName
deriving DecidableEq, Repr, Inhabited

namespace AttributeType

def dataType : AttributeType → DataType
  | .string | .memo | .entityName => .utf8
  | .integer | .picklist | .state | .status => .int32
  | .bigInt => .int64
  | .decimal => .decimal128 23 10
  | .money => .decimal128 19 4
  | .double => .float64
  | .boolean => .boolean
  | .dateTime => .timestamp
  | .uniqueIdentifier | .lookup | .owner | .customer => .guid

def names : List (String × AttributeType) :=
  [("string", .string), ("memo", .memo), ("integer", .integer), ("bigint", .bigInt),
   ("decimal", .decimal), ("money", .money), ("double", .double), ("boolean", .boolean),
   ("datetime", .dateTime), ("uniqueidentifier", .uniqueIdentifier), ("lookup", .lookup),
   ("owner", .owner), ("customer", .customer), ("picklist", .picklist), ("state", .state),
   ("status", .status), ("entityname", .entityName)]

def ofName? (s : String) : Option AttributeType :=
  names.lookup s

end AttributeType

structure Attribute where
  name : String
  type : AttributeType
  nullable : Bool := true
  /-- Given where it differs from the default. -/
  collation : Option Collation := none
deriving DecidableEq, Repr, Inhabited

def Attribute.notNull (a : Attribute) : Attribute :=
  { a with nullable := false }

def Attribute.dataType (a : Attribute) : DataType :=
  a.type.dataType

inductive RelationshipKind where
  | oneToMany
  | manyToOne
  | manyToMany
deriving DecidableEq, Repr, Inhabited

namespace RelationshipKind

def names : List (String × RelationshipKind) :=
  [("1:N", .oneToMany), ("N:1", .manyToOne), ("N:N", .manyToMany)]

def ofName? (s : String) : Option RelationshipKind :=
  names.lookup s

def name : RelationshipKind → String
  | .oneToMany => "1:N"
  | .manyToOne => "N:1"
  | .manyToMany => "N:N"

end RelationshipKind

structure Relationship where
  name : String
  kind : RelationshipKind
  ownAttribute : String
  relatedEntity : String
  relatedAttribute : String
  hierarchical : Bool := false
deriving DecidableEq, Repr, Inhabited

structure Entity where
  name : String
  primaryKey : String
  attributes : List Attribute
  relationships : List Relationship := []
  recycleBin : Bool := false
  archive : Bool := false
  rowCount : Option UInt64 := none
deriving DecidableEq, Repr, Inhabited

namespace Entity

def new (name primaryKey : String) : Entity where
  name
  primaryKey
  attributes := [{ name := primaryKey, type := .uniqueIdentifier, nullable := false }]

def withAttribute (e : Entity) (a : Attribute) : Entity :=
  { e with attributes := e.attributes ++ [a] }

def withRelationship (e : Entity) (r : Relationship) : Entity :=
  { e with relationships := e.relationships ++ [r] }

def withRecycleBin (e : Entity) (recycleBin : Bool) : Entity :=
  { e with recycleBin }

def withArchive (e : Entity) (archive : Bool) : Entity :=
  { e with archive }

def withRowCount (e : Entity) (rows : UInt64) : Entity :=
  { e with rowCount := some rows }

def attribute? (e : Entity) (name : String) : Option Attribute :=
  e.attributes.find? fun a => Text.sameAscii a.name name

def relationship? (e : Entity) (ownAttribute relatedEntity relatedAttribute : String) :
    Option Relationship :=
  e.relationships.find? fun r =>
    Text.sameAscii r.ownAttribute ownAttribute && Text.sameAscii r.relatedEntity relatedEntity &&
      Text.sameAscii r.relatedAttribute relatedAttribute

def repeated? (seen : List String) : List Attribute → Option Attribute
  | [] => none
  | a :: rest =>
    if seen.contains (Text.lower a.name) then some a else repeated? (Text.lower a.name :: seen) rest

/-- An entity has its key among its attributes, and no attribute twice. -/
def validate (e : Entity) : Result Unit := do
  if (e.attribute? e.primaryKey).isNone then
    throw (.metadata ("Entity '" ++ e.name ++ "' has no attribute for its primary key '" ++
      e.primaryKey ++ "'"))
  if let some a := repeated? [] e.attributes then
    throw (.metadata ("Entity '" ++ e.name ++ "' defines attribute '" ++ a.name ++
      "' more than once"))

end Entity

end BatchPlan
