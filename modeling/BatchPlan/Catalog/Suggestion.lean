import BatchPlan.Error
import BatchPlan.Text.Lowercase

namespace BatchPlan

namespace Suggestion

/-- The row of the edit distance table below a given one: the distances of all beginnings of `t` to
a beginning that now ends in `c`. `diagonal` is the entry above and to the left, `left` the entry
to the left. -/
def nextRow (c : Char) (diagonal left : Nat) : List Char → List Nat → List Nat
  | d :: t, above :: row =>
    let here := min (min (above + 1) (left + 1)) (diagonal + if c = d then 0 else 1)
    here :: nextRow c above here t row
  | _, _ => []

/-- The distances of all beginnings of `t` to `s`, read after `i` characters with the given row. -/
def rows (t : List Char) (i : Nat) (row : List Nat) : List Char → List Nat
  | [] => row
  | c :: s => rows t (i + 1) ((i + 1) :: nextRow c (row.headD 0) (i + 1) t row.tail) s

/-- How many insertions, deletions and replacements lead from one text to the other. -/
def distance (s t : List Char) : Nat :=
  (rows t 0 (List.range (t.length + 1)) s).getLastD 0

/-- The distance that still counts as close: a third of the name, but at least one and at most
three. -/
def tolerance (name : List Char) : Nat :=
  max 1 (min 3 (name.length / 3))

def closer (a b : Nat × String) : Bool :=
  a.1 < b.1 || (a.1 == b.1 && !(b.2 < a.2))

def close (name : String) (candidates : List String) : List String :=
  let target := (Text.lower name).toList
  let scored := candidates.filterMap fun c =>
    let d := distance target (Text.lower c).toList
    if d ≤ tolerance target then some (d, c) else none
  ((scored.mergeSort closer).take 3).map (·.2)

end Suggestion

def PlanError.unknownObject (name : String) (candidates : List String) : PlanError :=
  .invalidObjectName name (Suggestion.close name candidates)

end BatchPlan
