import BatchPlan.Scalar.Value
import BatchPlan.Schema
import Mathlib.Logic.Function.Basic

namespace BatchPlan

theorem toDigits_injective : Function.Injective (Nat.toDigits 10) :=
  Function.LeftInverse.injective (g := fun cs => Nat.ofDigitChars 10 cs 0)
    fun _ => Nat.ofDigitChars_toDigits (by omega) (by omega)

theorem toList_toString (n : Nat) : (toString n).toList = Nat.toDigits 10 n := by
  rw [Nat.toString_eq_repr, Nat.toList_repr]

theorem ne_of_mem_toDigits {n : Nat} {c d : Char} (h : c ∈ Nat.toDigits 10 n)
    (hd : d.isDigit = false) : c ≠ d := by
  rintro rfl
  rw [Nat.isDigit_of_mem_toDigits (by omega) (by omega) h] at hd
  cases hd

abbrev Row := List Value

namespace Schema

/-- The value of a column. A column that does not stand for exactly one field has none. -/
def read (s : Schema) (row : Row) (c : Column) : Value :=
  ((s.index? c).bind (row[·]?)).getD .null

/-- A row has a value for each field, and NULL only where a field admits it. -/
def Fits (s : Schema) (row : Row) : Prop :=
  row.length = s.fields.length ∧ ∀ entry ∈ s.fields.zip row, entry.1.nullable = false →
    entry.2 ≠ .null

instance (s : Schema) (row : Row) : Decidable (s.Fits row) :=
  inferInstanceAs (Decidable (_ ∧ _))

def Lacks (s : Schema) (c : Column) : Prop :=
  s.candidates c = []

instance (s : Schema) (c : Column) : Decidable (s.Lacks c) :=
  inferInstanceAs (Decidable (_ = _))

end Schema

@[simp]
theorem Field.answersTo_bare (f : Field) (key : String) :
    f.answersTo false key = (Text.lower f.name == key) := rfl

theorem Field.answersTo_column (f : Field) :
    f.answersTo f.column.relation.isSome (Text.lower f.column.text) := by
  cases hr : f.relation with
  | none => simp [column, hr, Column.text]
  | some r => simp [answersTo, column, hr]

namespace Schema

variable {s a b : Schema} {c : Column} {i : Nat} {f : Field} {row : Row} {found : Nat × Field}

theorem mem_candidates : (i, f) ∈ s.candidates c ↔
    s.fields[i]? = some f ∧ f.answersTo c.relation.isSome (Text.lower c.text) := by
  simp only [candidates, List.mem_filterMap, List.mem_zipIdx_iff_getElem?, Prod.exists,
    Option.ite_none_right_eq_some, Option.some.injEq, Prod.mk.injEq]
  constructor
  · rintro ⟨f, i, hfield, hanswers, rfl, rfl⟩
    exact ⟨hfield, hanswers⟩
  · rintro ⟨hfield, hanswers⟩
    exact ⟨f, i, hfield, hanswers, rfl, rfl⟩

theorem lacks_iff :
    s.Lacks c ↔ ∀ f ∈ s.fields, f.answersTo c.relation.isSome (Text.lower c.text) = false := by
  rw [Lacks, List.eq_nil_iff_forall_not_mem]
  constructor
  · intro h f hf
    obtain ⟨i, hi⟩ := List.mem_iff_getElem?.1 hf
    exact Bool.eq_false_iff.2 fun hanswers => h (i, f) (mem_candidates.2 ⟨hi, hanswers⟩)
  · rintro h ⟨i, f⟩ hmem
    obtain ⟨hi, hanswers⟩ := mem_candidates.1 hmem
    simp [h f (List.mem_of_getElem? hi)] at hanswers

theorem index?_eq_some : s.index? c = some i ↔ ∃ f, s.candidates c = [(i, f)] := by
  unfold index?
  split
  next j f h => simp [h]
  next h =>
    constructor
    · intro hnone
      cases hnone
    · rintro ⟨f, hf⟩
      exact absurd hf (h i f)

theorem field?_eq_some : s.field? c = some f ↔ ∃ i, s.candidates c = [(i, f)] := by
  unfold field?
  split
  next j f h => simp [h]
  next h =>
    constructor
    · intro hnone
      cases hnone
    · rintro ⟨i, hi⟩
      exact absurd hi (h i f)

theorem candidates_of_resolve (h : s.resolve c = .ok found) : s.candidates c = [found] := by
  unfold resolve find? at h
  split at h
  next => cases h
  next hc =>
    cases h
    exact hc
  next => cases h

theorem find?_eq_some : s.find? c = .ok (some found) ↔ s.candidates c = [found] := by
  rcases h : s.candidates c with _ | ⟨first, _ | ⟨second, rest⟩⟩ <;> simp [find?, h]

theorem find?_eq_none : s.find? c = .ok none ↔ s.Lacks c := by
  rcases h : s.candidates c with _ | ⟨first, _ | ⟨second, rest⟩⟩ <;> simp [find?, Lacks, h]

theorem read_congr (h : a.fields = b.fields) : a.read row c = b.read row c := by
  simp only [read, index?, candidates, h]

theorem contains_iff : s.contains c ↔ ∃ i f, s.candidates c = [(i, f)] := by
  simp only [contains, Option.isSome_iff_exists, index?_eq_some]

theorem not_lacks_of_contains (h : s.contains c) : ¬ s.Lacks c := by
  obtain ⟨i, f, hf⟩ := contains_iff.1 h
  simp [Lacks, hf]

theorem not_lacks_of_mem (hf : f ∈ s.fields) : ¬ s.Lacks f.column := by
  intro h
  have hanswers := f.answersTo_column
  simp [lacks_iff.1 h f hf] at hanswers

theorem getElem?_of_candidates (h : s.candidates c = [(i, f)]) : s.fields[i]? = some f :=
  (mem_candidates.1 (h ▸ List.mem_singleton_self (i, f))).1

theorem mem_of_candidates (h : s.candidates c = [found]) :
    found.2 ∈ s.fields ∧ found.2.answersTo c.relation.isSome (Text.lower c.text) :=
  (mem_candidates.1 (h ▸ List.mem_singleton_self found)).imp_left List.mem_of_getElem?

theorem read_of_candidates (h : s.candidates c = [(i, f)]) : s.read row c = row[i]?.getD .null := by
  simp [read, index?_eq_some.2 ⟨f, h⟩]

theorem read_ne_null (hrow : s.Fits row) (hf : s.field? c = some f) (hnull : f.nullable = false) :
    s.read row c ≠ .null := by
  obtain ⟨i, hi⟩ := field?_eq_some.1 hf
  have hfield := getElem?_of_candidates hi
  have hlength : i < row.length := hrow.1 ▸ (List.getElem?_eq_some_iff.1 hfield).1
  have hentry : (f, row[i]) ∈ s.fields.zip row :=
    List.mem_of_getElem? (List.getElem?_zip_eq_some.2
      ⟨hfield, List.getElem?_eq_getElem hlength⟩)
  simpa [read_of_candidates hi, hlength] using hrow.2 _ hentry hnull

/-- A column that is in a schema where the bare name of a field is not is no column of the field. -/
theorem not_answersTo (s : Schema) {g : Field} (hrelation : g.relation = none)
    (hg : s.Lacks (.bare g.name)) (hc : ¬ s.Lacks c) :
    g.answersTo c.relation.isSome (Text.lower c.text) = false := by
  obtain ⟨f, hf, hanswers⟩ : ∃ f ∈ s.fields, f.answersTo c.relation.isSome (Text.lower c.text) := by
    simpa [lacks_iff] using hc
  have hother := lacks_iff.1 hg f hf
  cases hc : c.relation with
  | none =>
    simp only [hc, Option.isSome_none, Field.answersTo_bare, Column.text, beq_eq_false_iff_ne,
      beq_iff_eq, Column.bare] at hanswers hother ⊢
    rw [← hanswers]
    exact Ne.symm hother
  | some r => simp [Field.answersTo, hrelation]

theorem candidates_append (h : s.fields = a.fields ++ b.fields) :
    s.candidates c = a.candidates c ++
      (b.candidates c).map fun found => (found.1 + a.fields.length, found.2) := by
  simp only [candidates, h, List.zipIdx_append, List.filterMap_append, Nat.zero_add,
    List.map_filterMap]
  rw [List.zipIdx_eq_map_add (i := a.fields.length), List.filterMap_map]
  congr 2
  funext ⟨f, i⟩
  by_cases hf : f.answersTo c.relation.isSome (Text.lower c.text) = true <;> simp [hf, Nat.add_comm]

theorem lacks_append (h : s.fields = a.fields ++ b.fields) :
    s.Lacks c ↔ a.Lacks c ∧ b.Lacks c := by
  simp [Lacks, candidates_append h]

theorem contains_append (h : s.fields = a.fields ++ b.fields) (ha : a.contains c) (hb : b.Lacks c) :
    s.contains c := by
  obtain ⟨i, f, hf⟩ := contains_iff.1 ha
  exact contains_iff.2 ⟨i, f, by simp [candidates_append h, hf, show b.candidates c = [] from hb]⟩

theorem contains_append_right (h : s.fields = a.fields ++ b.fields) (ha : a.Lacks c)
    (hb : b.contains c) : s.contains c := by
  obtain ⟨i, f, hf⟩ := contains_iff.1 hb
  exact contains_iff.2 ⟨i + a.fields.length, f,
    by simp [candidates_append h, hf, show a.candidates c = [] from ha]⟩

variable {left right : Row}

theorem read_append_left (h : s.fields = a.fields ++ b.fields)
    (hleft : left.length = a.fields.length)
    (hb : b.Lacks c) : s.read (left ++ right) c = a.read left c := by
  have hindex : s.index? c = a.index? c := by
    simp [index?, candidates_append h, show b.candidates c = [] from hb]
  rw [read, hindex, read]
  cases hi : a.index? c with
  | none => rfl
  | some i =>
    obtain ⟨f, hf⟩ := index?_eq_some.1 hi
    have hlt := (List.getElem?_eq_some_iff.1 (getElem?_of_candidates hf)).1
    simp [List.getElem?_append_left (hleft ▸ hlt)]

theorem read_append_right (h : s.fields = a.fields ++ b.fields)
    (hleft : left.length = a.fields.length)
    (ha : a.Lacks c) : s.read (left ++ right) c = b.read right c := by
  have hcandidates := candidates_append (c := c) h
  rw [show a.candidates c = [] from ha, List.nil_append] at hcandidates
  by_cases hb : ∃ i f, b.candidates c = [(i, f)]
  · obtain ⟨i, f, hf⟩ := hb
    rw [hf] at hcandidates
    rw [read_of_candidates hcandidates, read_of_candidates hf, ← hleft,
      List.getElem?_append_right (Nat.le_add_left ..), Nat.add_sub_cancel]
  · have hnone : b.index? c = none := Option.eq_none_iff_forall_ne_some.2 fun i hi =>
      hb ⟨i, index?_eq_some.1 hi⟩
    have hnone' : s.index? c = none := Option.eq_none_iff_forall_ne_some.2 fun i hi => by
      obtain ⟨f, hf⟩ := index?_eq_some.1 hi
      rw [hcandidates, List.map_eq_singleton_iff] at hf
      obtain ⟨⟨j, g⟩, hg, -⟩ := hf
      exact hb ⟨j, g, hg⟩
    simp [read, hnone, hnone']

theorem read_append_clash (h : s.fields = a.fields ++ b.fields) (ha : ¬ a.Lacks c)
    (hb : ¬ b.Lacks c) : s.read row c = .null := by
  have hnone : s.index? c = none := Option.eq_none_iff_forall_ne_some.2 fun i hi => by
    obtain ⟨f, hf⟩ := index?_eq_some.1 hi
    rw [candidates_append h] at hf
    have hlength := congrArg List.length hf
    have ha' := List.length_pos_iff.2 ha
    have hb' := List.length_pos_iff.2 hb
    simp only [List.length_append, List.length_map, List.length_singleton] at hlength
    omega
  simp [read, hnone]

end Schema

theorem Text.lowerFrom_of_ascii {cs passed : List Char} (h : ∀ c ∈ cs, c.toNat < 0x80) :
    lowerFrom passed cs = cs.map Char.toLower := by
  induction cs generalizing passed with
  | nil => rfl
  | cons c rest ih =>
    have hc : c.toNat < 0x80 := h c (by simp)
    have hsigma : c.toNat ≠ 0x3a3 := by omega
    simp [lowerFrom, lowerChar, hc, hsigma, ih fun d hd => h d (by simp [hd])]

theorem lower_numbered {stem : String} (hstem : ∀ c ∈ stem.toList, c.toNat < 0x80) (n : Nat) :
    Text.lower (stem ++ toString n) = String.ofList (stem.toList.map Char.toLower) ++
      toString n := by
  have hdigit (c : Char) (hc : c ∈ Nat.toDigits 10 n) : 48 ≤ c.val ∧ c.val ≤ 57 := by
    simpa [Char.isDigit] using Nat.isDigit_of_mem_toDigits (by omega) (by omega) hc
  have hascii : ∀ c ∈ (stem ++ toString n).toList, c.toNat < 0x80 := by
    intro c hc
    rw [String.toList_append, toList_toString, List.mem_append] at hc
    obtain hc | hc := hc
    · exact hstem c hc
    · exact Nat.lt_of_le_of_lt (hdigit c hc).2 (by decide)
  have hlower : (Nat.toDigits 10 n).map Char.toLower = Nat.toDigits 10 n := by
    refine List.map_congr_left (fun c hc => ?_) |>.trans (List.map_id _)
    have hdigit := hdigit c hc
    exact dif_neg (by grind)
  rw [Text.lower, Text.lowerFrom_of_ascii hascii, String.toList_append, List.map_append,
    toList_toString, hlower, ← toList_toString, String.ofList_append, String.ofList_toList]

def exprName (n : Nat) : String :=
  "Expr" ++ toString n

theorem lower_exprName (n : Nat) : Text.lower (exprName n) = "expr" ++ toString n :=
  lower_numbered (by simp) n

theorem lower_exprName_inj {m n : Nat} :
    Text.lower (exprName m) = Text.lower (exprName n) ↔ m = n := by
  refine ⟨fun h => toDigits_injective ?_, fun h => h ▸ rfl⟩
  rw [lower_exprName, lower_exprName] at h
  simpa [toList_toString] using congrArg String.toList h

namespace Schema

variable {first' last' : Nat} {a b : Schema}

def Free (s : Schema) (first last : Nat) : Prop :=
  ∀ n ≤ last, first < n → s.Lacks (.bare (exprName n))

instance (s : Schema) (first last : Nat) : Decidable (s.Free first last) :=
  inferInstanceAs (Decidable (∀ n ≤ last, _))

def Generated (s : Schema) (first last : Nat) : Prop :=
  ∀ f ∈ s.fields, f.relation = none ∧ ∃ n ≤ last, first < n ∧ f.name = exprName n

variable {s more : Schema} {c : Column} {first last : Nat}

theorem Free.lacks (hfree : s.Free first last) (hmore : more.Generated first last)
    (hc : ¬ s.Lacks c) : more.Lacks c := by
  rw [lacks_iff]
  intro g hg
  obtain ⟨hrelation, n, hlast, hfirst, hname⟩ := hmore g hg
  exact s.not_answersTo hrelation (hname ▸ hfree n hlast hfirst) hc

theorem Free.mono (h : s.Free first last) (hfirst : first ≤ first') (hlast : last' ≤ last) :
    s.Free first' last' :=
  fun n hn hn' => h n (Nat.le_trans hn hlast) (Nat.lt_of_le_of_lt hfirst hn')

theorem Generated.mono (h : s.Generated first last) (hfirst : first' ≤ first)
    (hlast : last ≤ last') : s.Generated first' last' := by
  intro f hf
  obtain ⟨hrelation, n, hn, hn', hname⟩ := h f hf
  exact ⟨hrelation, n, Nat.le_trans hn hlast, Nat.lt_of_le_of_lt hfirst hn', hname⟩

theorem Generated.merge (ha : a.Generated first last) (hb : b.Generated first last) :
    (a.merge b).Generated first last :=
  fun f hf => (List.mem_append.1 hf).elim (ha f) (hb f)

theorem Generated.free {middle : Nat} (h : s.Generated first middle) : s.Free middle last := by
  intro n hlast hmiddle
  rw [lacks_iff]
  intro f hf
  obtain ⟨-, m, hm, -, hname⟩ := h f hf
  have hmn : Text.lower (exprName m) ≠ Text.lower (exprName n) := by
    rw [Ne, lower_exprName_inj]
    omega
  simpa [Field.answersTo, Column.bare, Column.text, hname] using hmn

theorem free_append (h : s.fields = a.fields ++ b.fields) :
    s.Free first last ↔ a.Free first last ∧ b.Free first last := by
  simp only [Free, lacks_append h]
  grind

end Schema

end BatchPlan
