import BatchPlan.Proofs.Correlation.Params
import BatchPlan.Proofs.Meaning.Fields

namespace BatchPlan

namespace Schema

variable {a b c : Schema}
variable {s : Schema} {f : Field} {found : Nat × Field} {column : Column}

theorem resolve_column (hf : f ∈ s.fields) (h : s.resolve f.column = .ok found) : found.2 = f := by
  obtain ⟨i, hi⟩ := List.mem_iff_getElem?.1 hf
  have hmem : (i, f) ∈ s.candidates f.column := mem_candidates.2 ⟨hi, f.answersTo_column⟩
  rw [candidates_of_resolve h, List.mem_singleton] at hmem
  rw [← hmem]

theorem mem_of_field? (h : s.field? column = some f) : f ∈ s.fields := by
  obtain ⟨i, hi⟩ := field?_eq_some.1 h
  exact List.mem_of_getElem? (getElem?_of_candidates hi)

theorem resolve_congr (h : a.fields = b.fields) (column : Column) :
    a.resolve column = b.resolve column := by
  simp only [resolve, find?, candidates, h]

/-- The fields of a schema are fields of another, up to what does not matter to names and types. -/
def Extends (a b : Schema) : Prop :=
  ∀ f ∈ a.fields, ∃ g ∈ b.fields, g.column = f.column ∧ g.dataType = f.dataType

theorem Extends.refl (a : Schema) : a.Extends a :=
  fun f hf => ⟨f, hf, rfl, rfl⟩

theorem Extends.of_subset (h : ∀ f ∈ a.fields, f ∈ b.fields) : a.Extends b :=
  fun f hf => ⟨f, h f hf, rfl, rfl⟩

theorem Extends.trans (hab : a.Extends b) (hbc : b.Extends c) : a.Extends c := by
  intro f hf
  obtain ⟨g, hg, hcolumn, htype⟩ := hab f hf
  obtain ⟨g', hg', hcolumn', htype'⟩ := hbc g hg
  exact ⟨g', hg', hcolumn'.trans hcolumn, htype'.trans htype⟩

theorem Extends.resolve_column (h : a.Extends b) (hf : f ∈ a.fields)
    (hfound : b.resolve f.column = .ok found) : found.2.dataType = f.dataType := by
  obtain ⟨g, hg, hcolumn, htype⟩ := h f hf
  rw [← hcolumn] at hfound
  rw [Schema.resolve_column hg hfound, htype]

theorem answersTo_congr {g : Field} (h : g.column = f.column) (qualified : Bool) (key : String) :
    g.answersTo qualified key = f.answersTo qualified key := by
  have hrelation : g.relation = f.relation := congrArg Column.relation h
  have hname : g.name = f.name := congrArg Column.name h
  rw [Field.answersTo, Field.answersTo, h, hrelation, hname]

/-- A name that stands for one field in each of two schemas stands for fields of the same type. -/
theorem Extends.dataType_eq (h : a.Extends b) {found' : Nat × Field}
    (ha : a.resolve column = .ok found)
    (hb : b.resolve column = .ok found') : found'.2.dataType = found.2.dataType := by
  obtain ⟨hi, hanswers⟩ := mem_candidates.1
    (candidates_of_resolve ha ▸ List.mem_singleton_self (found.1, found.2))
  obtain ⟨g, hg, hcolumn, htype⟩ := h found.2 (List.mem_of_getElem? hi)
  obtain ⟨j, hj⟩ := List.mem_iff_getElem?.1 hg
  have hmem : (j, g) ∈ b.candidates column :=
    mem_candidates.2 ⟨hj, by rwa [answersTo_congr hcolumn]⟩
  rw [candidates_of_resolve hb, List.mem_singleton] at hmem
  rw [← hmem, htype]

end Schema

def Agree {α : Type} (r r' : Result α) : Prop :=
  ∀ x x', r = .ok x → r' = .ok x' → x' = x

namespace Agree

variable {α β : Type}

theorem refl (r : Result α) : Agree r r :=
  fun _ _ h h' => Except.ok.inj (h'.symm.trans h)

theorem bind {r r' : Result α} {f f' : α → Result β} (h : Agree r r')
    (hf : ∀ x, Agree (f x) (f' x)) : Agree (r >>= f) (r' >>= f') := by
  intro y y' hy hy'
  obtain ⟨x, hx, hy⟩ := Result.exists_of_bind hy
  obtain ⟨x', hx', hy'⟩ := Result.exists_of_bind hy'
  obtain rfl := h x x' hx hx'
  exact hf x' y y' hy hy'

end Agree

namespace Scalar

variable {a b : Schema}

theorem agree_dataType (h : a.Extends b) (e : Scalar) : Agree (e.dataType a) (e.dataType b) := by
  refine TypeRelation.dataType (R := fun _ r r' => Agree r r')
    ⟨fun _ => .refl _, .bind, fun c => ?_⟩ e
  intro t t' ht ht'
  rw [dataType] at ht ht'
  obtain ⟨found, hfound, ht⟩ := Result.exists_of_bind ht
  obtain ⟨found', hfound', ht'⟩ := Result.exists_of_bind ht'
  cases ht
  cases ht'
  exact h.dataType_eq hfound hfound'

theorem dataType_congr (h : a.fields = b.fields) (e : Scalar) : e.dataType a = e.dataType b := by
  refine TypeRelation.dataType (R := fun _ r r' => r = r') ⟨fun _ => rfl, ?_, fun c => ?_⟩ e
  · rintro α β r _ f g rfl hf
    rw [funext hf]
  · rw [dataType, dataType, Schema.resolve_congr h]

end Scalar

end BatchPlan
