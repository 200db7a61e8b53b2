import BatchPlan.Proofs.Binding.Gives
import BatchPlan.Proofs.Correlation.Params
import BatchPlan.Proofs.Meaning.Fields

namespace BatchPlan

namespace Plan

def isTable : Plan → Bool
  | .spool _ _ _ .table => true
  | _ => false

/-- The rows are ordered by a column, if it stands for one of theirs. -/
def SortedBy (p : Plan) (key : Column) : Prop :=
  p.schema.contains key → p.schema.isSortedBy [⟨key, .asc⟩]

def MergesSorted : Plan → Prop
  | .join left right j => ∀ l r, j.strategy = .merge l r → left.SortedBy l ∧ right.SortedBy r
  | _ => True

/-- A plan as binding makes it. A table of rows is the right side of a loop that sets no parameter;
if the loop adds values of its own, the rows read no parameter either. -/
inductive WellFormed : Plan → Prop
  | operator {p : Plan} (htable : p.isTable = false) (hsorted : p.MergesSorted)
    (hinputs : ∀ q ∈ p.children, q.WellFormed) : p.WellFormed
  | cached {left right : Plan} {id : Nat} {j : JoinSpec}
    (hloop : j.strategy = .nestedLoop []) (hparams : j.definitions ≠ [] → right.params = [])
    (hleft : left.WellFormed) (hright : right.WellFormed) :
    (Plan.join left (.spool id right .eager .table) j).WellFormed

variable {p q left right : Plan} {j : JoinSpec}

theorem mergesSorted_of_length (h : p.children.length < 2) : p.MergesSorted := by
  cases p with
  | join => exact absurd h (by simp [children])
  | _ => trivial

theorem sortedBy_ordered (p : Plan) (key : Column) : (p.ordered [⟨key, .asc⟩]).SortedBy key := by
  unfold ordered
  split
  next h => exact fun _ => h
  next =>
    intro hkey
    obtain ⟨i, hi⟩ := Option.isSome_iff_exists.1 hkey
    have hkey : p.schema.contains key := hkey
    have horder : (sort p [⟨key, .asc⟩]).schema.sortOrder = [⟨key, .asc⟩] := by
      simp [schema, Schema.withSortOrder, hkey]
    have hsame : (sort p [⟨key, .asc⟩]).schema.sameField key key := by simp [Schema.sameField, hi]
    simp [Schema.isSortedBy, horder, hsame]

namespace WellFormed

theorem unary (hq : q.WellFormed) (hchildren : p.children = [q]) (htable : p.isTable = false) :
    p.WellFormed :=
  .operator htable (mergesSorted_of_length (by simp [hchildren])) (by simpa [hchildren] using hq)

theorem leaf (hchildren : p.children = []) (htable : p.isTable = false) : p.WellFormed :=
  .operator htable (mergesSorted_of_length (by simp [hchildren])) (by simp [hchildren])

theorem join (hleft : left.WellFormed) (hright : right.WellFormed)
    (hsorted : (Plan.join left right j).MergesSorted) : (Plan.join left right j).WellFormed :=
  .operator rfl hsorted (by simp [children, hleft, hright])

end WellFormed

/-- The rows of a plan, kept in a table or produced anew. -/
def Kept (p q : Plan) : Prop :=
  q = p ∨ ∃ id, q = .spool id p .eager .table

theorem gives_spooled (p : Plan) : Gives p.spooled p.Kept := by
  unfold spooled
  split
  · exact .pure (.inl rfl)
  · exact .pure (.inl rfl)
  · exact .after fun id => .pure (.inr ⟨id, rfl⟩)

theorem WellFormed.keep {kept : Plan} (hleft : left.WellFormed) (hright : right.WellFormed)
    (hkept : right.Kept kept) (hloop : j.strategy = .nestedLoop [])
    (hparams : j.definitions ≠ [] → right.params = []) : (Plan.join left kept j).WellFormed := by
  obtain rfl | ⟨id, rfl⟩ := hkept
  · exact hleft.join hright (by simp [MergesSorted, hloop])
  · exact .cached hloop hparams hleft hright

end Plan

end BatchPlan
