import BatchPlan.Schema

namespace BatchPlan

/-- Temporary tables in the order of their lower case names, each name once. -/
structure Session where
  tables : List TempTable := []
deriving DecidableEq, Repr, Inhabited

namespace Session

def empty : Session := {}

def key (name : String) : String :=
  Text.lower name

def find? (s : Session) (name : String) : Option TempTable :=
  s.tables.find? fun t => key t.name == key name

def names (s : Session) : List String :=
  s.tables.map (·.name)

/-- Puts a table in its place, instead of an earlier one of the same name. -/
def insertTable (table : TempTable) : List TempTable → List TempTable
  | [] => [table]
  | t :: rest =>
    if key table.name = key t.name then table :: rest
    else if key table.name < key t.name then table :: t :: rest
    else t :: insertTable table rest

def create (s : Session) (table : TempTable) : Session :=
  ⟨insertTable table s.tables⟩

def drop (s : Session) (name : String) : Session :=
  ⟨s.tables.filter fun t => key t.name != key name⟩

end Session

end BatchPlan
