import BatchPlan.Error
import BatchPlan.Text.Lowercase

namespace BatchPlan

structure Collation where
  name : String
deriving DecidableEq, Repr

namespace Collation

def default : Collation := ⟨"Latin1_General_CI_AI"⟩

instance : Inhabited Collation := ⟨default⟩

def occurs (part : List Char) : List Char → Bool
  | [] => part.isEmpty
  | c :: cs => part.isPrefixOf (c :: cs) || occurs part cs

def isCaseSensitive (c : Collation) : Bool :=
  occurs "_CS".toList (Text.upperAscii c.name).toList

def isAccentSensitive (c : Collation) : Bool :=
  !occurs "_AI".toList (Text.upperAscii c.name).toList

end Collation

inductive CollationLabel where
  | explicit (collation : Collation)
  | implicit (collation : Collation)
  | coercible (collation : Collation)
  | none
deriving DecidableEq, Repr, Inhabited

namespace CollationLabel

def collation? : CollationLabel → Option Collation
  | .explicit c | .implicit c | .coercible c => some c
  | .none => Option.none

def combine : CollationLabel → CollationLabel → Result CollationLabel
  | .explicit a, .explicit b =>
    if a = b then .ok (.explicit a)
    else .error (.semantic ("Expression type conflict: explicit collations '" ++ a.name ++
      "' and '" ++ b.name ++ "' cannot be combined"))
  | .explicit a, _ | _, .explicit a => .ok (.explicit a)
  | .none, _ | _, .none => .ok .none
  | .implicit a, .implicit b => .ok (if a = b then .implicit a else .none)
  | .implicit a, .coercible _ | .coercible _, .implicit a => .ok (.implicit a)
  | .coercible a, .coercible _ => .ok (.coercible a)

def describe (l : CollationLabel) : String :=
  match l.collation? with
  | some c => c.name
  | Option.none => "no collation"

def comparison (a b : CollationLabel) : Result Collation := do
  match (← combine a b).collation? with
  | some c => return c
  | Option.none => throw (.semantic ("Cannot resolve the collation conflict between '" ++
      a.describe ++ "' and '" ++ b.describe ++ "' in the equal to operation"))

end CollationLabel

end BatchPlan
