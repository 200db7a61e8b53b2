import BatchPlan.Collation
import BatchPlan.DataType

namespace BatchPlan

/-- A column of a stored table. The collation is absent where the default holds. -/
structure TableColumn where
  name : String
  dataType : DataType
  nullable : Bool
  collation : Option Collation
deriving DecidableEq, Repr, Inhabited

structure TempTable where
  name : String
  columns : List TableColumn
deriving DecidableEq, Repr, Inhabited

/-- A reference to a column, with or without the alias of its source. -/
structure Column where
  relation : Option String
  name : String
deriving DecidableEq, Repr, Inhabited

namespace Column

def bare (name : String) : Column := ⟨none, name⟩

def qualified (relation name : String) : Column := ⟨some relation, name⟩

def text (c : Column) : String :=
  match c.relation with
  | some r => r ++ "." ++ c.name
  | none => c.name

def sameAs (a b : Column) : Bool :=
  Text.sameAscii a.name b.name &&
    match a.relation, b.relation with
    | some r, some s => Text.sameAscii r s
    | none, none => true
    | _, _ => false

end Column

inductive SortDirection where
  | asc
  | desc
deriving DecidableEq, Repr, Inhabited

def SortDirection.text : SortDirection → String
  | .asc => "ASC"
  | .desc => "DESC"

structure SortKey where
  column : Column
  direction : SortDirection := .asc
deriving DecidableEq, Repr, Inhabited

def SortKey.text (k : SortKey) : String :=
  k.column.text ++ " " ++ k.direction.text

structure Field where
  name : String
  dataType : DataType
  nullable : Bool := true
  relation : Option String := none
  calculated : Bool := false
  /-- A hidden column can be named, but a star leaves it out. -/
  visible : Bool := true
  collation : Option Collation := none
deriving DecidableEq, Repr, Inhabited

def Field.column (f : Field) : Column :=
  ⟨f.relation, f.name⟩

/-- Does a field answer to a name in lower case, qualified or bare? A qualified name is compared as
one text, so that only fields with a source answer to it. -/
def Field.answersTo (f : Field) (qualified : Bool) (key : String) : Bool :=
  if qualified then f.relation.isSome && Text.lower f.column.text == key
  else Text.lower f.name == key

/-- The fields of an operator's output, the column that tells rows apart, and the order of rows. -/
structure Schema where
  fields : List Field
  primaryKey : Option Column := none
  sortOrder : List SortKey := []
deriving DecidableEq, Repr, Inhabited

namespace Schema

def empty : Schema := ⟨[], none, []⟩

def ofFields (fields : List Field) : Schema := ⟨fields, none, []⟩

def size (s : Schema) : Nat := s.fields.length

def candidates (s : Schema) (c : Column) : List (Nat × Field) :=
  let key := Text.lower c.text
  s.fields.zipIdx.filterMap fun (f, i) =>
    if f.answersTo c.relation.isSome key then some (i, f) else none

def find? (s : Schema) (c : Column) : Result (Option (Nat × Field)) :=
  match s.candidates c with
  | [] => .ok none
  | [found] => .ok (some found)
  | _ => .error (.ambiguousColumn c.text)

def resolve (s : Schema) (c : Column) : Result (Nat × Field) := do
  match ← s.find? c with
  | some found => return found
  | none => throw (.columnNotFound c.text)

def field? (s : Schema) (c : Column) : Option Field :=
  match s.candidates c with
  | [(_, f)] => some f
  | _ => none

def index? (s : Schema) (c : Column) : Option Nat :=
  match s.candidates c with
  | [(i, _)] => some i
  | _ => none

def contains (s : Schema) (c : Column) : Bool :=
  (s.index? c).isSome

/-- A key that is no longer among the fields tells nothing apart. -/
def withPrimaryKey (s : Schema) (key : Option Column) : Schema :=
  { s with primaryKey := key.filter s.contains }

/-- An order holds up to its first column that is not among the fields. -/
def withSortOrder (s : Schema) (keys : List SortKey) : Schema :=
  { s with sortOrder := keys.takeWhile fun k => s.contains k.column }

def hasRelation (s : Schema) (relation : String) : Bool :=
  s.fields.any fun f => f.relation.any (Text.sameAscii · relation)

def visibleFields (s : Schema) (relation : Option String) : List Field :=
  s.fields.filter fun f => f.visible &&
    match relation with
    | some r => f.relation.any (Text.sameAscii · r)
    | none => true

def isPrimaryKey (s : Schema) (c : Column) : Bool :=
  match s.primaryKey, s.index? c with
  | some key, some i => s.index? key == some i
  | _, _ => false

def sameField (s : Schema) (a b : Column) : Bool :=
  match s.index? a, s.index? b with
  | some i, some j => i == j
  | _, _ => false

def isSortedBy (s : Schema) (keys : List SortKey) : Bool :=
  decide (keys.length ≤ s.sortOrder.length) &&
    (keys.zip s.sortOrder).all fun (wanted, held) =>
      wanted.direction == held.direction && s.sameField wanted.column held.column

def merge (a b : Schema) : Schema :=
  ofFields (a.fields ++ b.fields)

end Schema

end BatchPlan
