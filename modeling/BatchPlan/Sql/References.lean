import BatchPlan.Sql.Query

namespace BatchPlan.Sql

mutual

def Query.reads (name : String) : Query → Bool
  | ⟨_, _, body, _, _, _, _, _, _, _, _⟩ => body.reads name

def SetExpr.reads (name : String) : SetExpr Query → Bool
  | .select s => s.reads name
  | .query q => q.reads name
  | .operation _ _ left right => left.reads name || right.reads name
  | .values _ _ | .other _ => false

def Select.reads (name : String) : Select Query → Bool
  | ⟨_, _, _, _, sources, _, _, _, _, _, _, _, _, _, _, _, _⟩ => anyReads name sources

def anyReads (name : String) : List (Source Query) → Bool
  | [] => false
  | s :: rest => s.reads name || anyReads name rest

def Source.reads (name : String) : Source Query → Bool
  | .table table _ _ _ => table.parts.length == 1 && Text.sameAscii table.base name
  | .derived _ query _ => query.reads name
  | .join left _ right _ _ => left.reads name || right.reads name
  | .nested inner _ => inner.reads name
  | .other _ => false

end

/-- A member of a chain of unions, and how it is joined to the members before it. The first one has
nothing before it. -/
structure UnionMember where
  body : SetExpr Query
  quantifier : Option SetQuantifier

namespace UnionMember

def isAll (m : UnionMember) : Bool :=
  m.quantifier == some .all

def isDistinct (m : UnionMember) : Bool :=
  m.quantifier.isSome && !m.isAll

end UnionMember

def SetExpr.unionMembers : SetExpr Query → List UnionMember
  | .operation .union quantifier left right =>
    left.unionMembers ++
      match right.unionMembers with
      | [] => []
      | first :: rest => { first with quantifier := some quantifier } :: rest
  | body => [⟨body, none⟩]

end BatchPlan.Sql
