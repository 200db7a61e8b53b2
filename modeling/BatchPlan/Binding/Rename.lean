import BatchPlan.Binding.Join
import BatchPlan.Root

namespace BatchPlan

def columnCountError (relation : String) (names columns : Nat) : PlanError :=
  .semantic ("'" ++ relation ++ "' has " ++ (if names > columns then "fewer" else "more") ++
    " columns than were specified in the column list")

def unnamedColumnError (relation : String) (place : Nat) : PlanError :=
  .semantic ("No column name was specified for column " ++ toString place ++
    " of '" ++ relation ++ "'")

def repeatedColumnError (relation column : String) : PlanError :=
  .semantic ("The column '" ++ column ++ "' was specified multiple times for '" ++ relation ++ "'")

/-- The columns of a source from the first place on. Each has a name, and no two have the same one
in lower case. -/
def AliasColumn.list (relation : String) (place : Nat) (seen : List String) :
    List (String × OutputColumn) → Result (List AliasColumn)
  | [] => .ok []
  | (name, output) :: rest => do
    if name.isEmpty then throw (unnamedColumnError relation place)
    if seen.contains (Text.lower name) then throw (repeatedColumnError relation name)
    let more ← AliasColumn.list relation (place + 1) (Text.lower name :: seen) rest
    return { source := output.source, name } :: more

/-- A query as a source; without names its columns keep their own. -/
def QueryPlan.named (q : QueryPlan) (relation : String) (names : List String) :
    Result Relation := do
  if !names.isEmpty && names.length != q.columns.length then
    throw (columnCountError relation names.length q.columns.length)
  let names := if names.isEmpty then q.columnNames else names
  let columns ← AliasColumn.list relation 1 [] (names.zip q.columns)
  return ⟨.rename q.root relation columns, [relation]⟩

end BatchPlan
