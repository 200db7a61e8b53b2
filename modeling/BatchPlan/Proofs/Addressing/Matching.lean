import BatchPlan.Proofs.Addressing.LetterCase
import BatchPlan.Proofs.Meaning.Fields
import Mathlib.Data.List.Basic

namespace BatchPlan

namespace Text

variable {a b : String}

/-- Have at most the letters from A to Z another lower case? -/
def isAsciiCased (s : String) : Bool :=
  s.toList.all fun c => c.toNat != 0x3a3 && lowerChar c == [c.toLower]

theorem isAsciiCased_append : isAsciiCased (a ++ b) = (isAsciiCased a && isAsciiCased b) := by
  simp [isAsciiCased]

theorem toList_lower_of_isAsciiCased (h : isAsciiCased a) :
    (lower a).toList = a.toList.map Char.toLower := by
  simp only [isAsciiCased, List.all_eq_true, Bool.and_eq_true, bne_iff_ne, beq_iff_eq] at h
  rw [toList_lower, lowerFrom_of_plain fun c hc => (h c hc).1]
  generalize a.toList = cs at h
  induction cs with
  | nil => rfl
  | cons c rest ih =>
    rw [List.forall_mem_cons] at h
    rw [List.flatMap_cons, h.1.2, ih h.2, List.map_cons, List.singleton_append]

theorem lower_eq_iff_sameAscii (ha : isAsciiCased a) (hb : isAsciiCased b) :
    lower a = lower b ↔ sameAscii a b := by
  rw [← String.toList_inj, toList_lower_of_isAsciiCased ha, toList_lower_of_isAsciiCased hb,
    sameAscii_iff]

theorem dot_mem_map_toLower {cs : List Char} : '.' ∈ cs.map Char.toLower ↔ '.' ∈ cs := by
  have hdot (c : Char) : (c.toLower == '.') = (c == '.') :=
    toLower_congr (f := (· == '.')) (by decide) c
  simp only [List.mem_map, ← beq_iff_eq (b := '.'), hdot]
  simp

theorem eq_of_append_dot {xs ys more more' : List Char} (hxs : '.' ∉ xs) (hys : '.' ∉ ys)
    (h : xs ++ '.' :: more = ys ++ '.' :: more') : xs = ys ∧ more = more' := by
  have hfirst {zs : List Char} (hzs : '.' ∉ zs) (rest : List Char) :
      (zs ++ '.' :: rest).takeWhile (· != '.') = zs := by
    have hall : ∀ c ∈ zs, (c != '.') = true := by
      intro c hc
      rw [bne_iff_ne]
      rintro rfl
      exact hzs hc
    rw [List.takeWhile_append_of_pos hall]
    simp
  obtain rfl : xs = ys := by rw [← hfirst hxs more, h, hfirst hys more']
  exact ⟨rfl, (List.cons.inj (List.append_cancel_left h)).2⟩

end Text

namespace Column

/-- A name whose parts can be told from its text in lower case. -/
structure Clear (c : Column) : Prop where
  cased : Text.isAsciiCased c.text
  dotless : ∀ r ∈ c.relation, '.' ∉ r.toList

theorem Clear.name {c : Column} (h : c.Clear) : Text.isAsciiCased c.name := by
  have hcased := h.cased
  unfold text at hcased
  split at hcased
  · rw [Text.isAsciiCased_append, Bool.and_eq_true] at hcased
    exact hcased.2
  · exact hcased

theorem lower_text_iff {r r' n n' : String} (h : (qualified r n).Clear)
    (h' : (qualified r' n').Clear) :
    Text.lower (qualified r n).text = Text.lower (qualified r' n').text ↔
      Text.sameAscii n n' ∧ Text.sameAscii r r' := by
  rw [Text.lower_eq_iff_sameAscii h.cased h'.cased]
  simp only [Text.sameAscii_iff, text, qualified, String.toList_append, List.map_append,
    List.append_assoc]
  refine ⟨fun heq => ?_, fun heq => by rw [heq.1, heq.2]⟩
  have hdot := mt Text.dot_mem_map_toLower.1 (h.dotless r rfl)
  have hdot' := mt Text.dot_mem_map_toLower.1 (h'.dotless r' rfl)
  exact (Text.eq_of_append_dot hdot hdot' heq).symm

end Column

/-- Does a field match a name part by part? A bare name leaves the source open. -/
def Field.matches (f : Field) (c : Column) : Bool :=
  if c.relation.isSome then f.column.sameAs c else Text.sameAscii f.name c.name

section

variable {f : Field} {c : Column}

theorem Field.answersTo_of_matches (h : f.matches c) :
    f.answersTo c.relation.isSome (Text.lower c.text) := by
  obtain ⟨_ | r', n'⟩ := c
  · exact beq_iff_eq.2 (Text.lower_eq_of_sameAscii h)
  · cases hr : f.relation with
    | none => simp [Field.matches, Column.sameAs, Field.column, hr] at h
    | some r =>
      simp only [Field.matches, Column.sameAs, Field.column, hr, Option.isSome_some,
        if_true, Bool.and_eq_true] at h
      simp only [answersTo, Column.text, Field.column, hr, Option.isSome_some,
        if_true, Bool.true_and, beq_iff_eq]
      exact Text.lower_eq_of_sameAscii
        (Text.sameAscii_append (Text.sameAscii_append h.2 (Text.sameAscii_refl _)) h.1)

theorem Field.matches_of_answersTo (hf : f.column.Clear) (hc : c.Clear)
    (h : f.answersTo c.relation.isSome (Text.lower c.text)) : f.matches c := by
  obtain ⟨_ | r', n'⟩ := c
  · exact (Text.lower_eq_iff_sameAscii hf.name hc.name).1 (beq_iff_eq.1 h)
  · cases hr : f.relation with
    | none => simp [answersTo, hr] at h
    | some r =>
      simp only [answersTo, hr, Option.isSome_some, if_true, Bool.true_and, beq_iff_eq] at h
      rw [Field.column, hr] at hf h
      simp only [Field.matches, Column.sameAs, Field.column, hr, Option.isSome_some,
        if_true, Bool.and_eq_true]
      exact (Column.lower_text_iff hf hc).1 h

end

namespace Schema

variable (s : Schema) (c : Column)

/-- The fields that a name stands for, with their places. -/
def matching : List (Nat × Field) :=
  s.fields.zipIdx.filterMap fun (f, i) => if f.matches c then some (i, f) else none

theorem matching_subset_candidates : s.matching c ⊆ s.candidates c := by
  intro found hfound
  obtain ⟨⟨f, i⟩, hentry, h⟩ := List.mem_filterMap.1 hfound
  dsimp only at h
  split at h
  next hmatches =>
    refine List.mem_filterMap.2 ⟨(f, i), hentry, ?_⟩
    rw [← h]
    exact if_pos (Field.answersTo_of_matches hmatches)
  next => cases h

theorem matching_eq_candidates (hs : ∀ f ∈ s.fields, f.column.Clear) (hc : c.Clear) :
    s.matching c = s.candidates c := by
  refine List.filterMap_congr fun (f, i) hentry => ?_
  have hf := hs f (List.fst_mem_of_mem_zipIdx hentry)
  exact if_congr ⟨Field.answersTo_of_matches, Field.matches_of_answersTo hf hc⟩ rfl rfl

/-- Whatever the names are, a field that matches is found unless the name is ambiguous. Among names
that are clear, a lookup gives the one field that matches, fails if there are several, and finds
nothing if there is none. -/
theorem find?_agrees_with_matching :
    (∀ found ∈ s.matching c, ∀ r, s.find? c = .ok r → r = some found) ∧
      ((∀ f ∈ s.fields, f.column.Clear) → c.Clear →
        (∀ found, s.find? c = .ok (some found) ↔ s.matching c = [found]) ∧
        (s.find? c = .error (.ambiguousColumn c.text) ↔ 2 ≤ (s.matching c).length) ∧
        (s.find? c = .ok none ↔ s.matching c = [])) := by
  refine ⟨fun found hfound r hr => ?_, fun hs hc => ?_⟩
  · have hmem := s.matching_subset_candidates c hfound
    unfold find? at hr
    generalize s.candidates c = candidates at hmem hr
    rcases candidates with _ | ⟨other, _ | ⟨third, rest⟩⟩
    · cases hmem
    · cases hr
      rw [List.mem_singleton.1 hmem]
    · cases hr
  · rw [s.matching_eq_candidates c hs hc]
    unfold find?
    rcases s.candidates c with _ | ⟨found, _ | ⟨other, rest⟩⟩ <;> simp

/-- A field of the first of two sources, whatever the case of the letters. -/
theorem twoSources_agree :
    let s : Schema := .ofFields [{ name := "Id", dataType := .int32, relation := some "a" },
      { name := "Id", dataType := .int32, relation := some "b" }]
    (∀ f ∈ s.fields, f.column.Clear) ∧ (Column.qualified "A" "id").Clear ∧
      (∀ found, s.find? (.qualified "A" "id") = .ok (some found) ↔
        s.matching (.qualified "A" "id") = [found]) ∧
      s.matching (.qualified "A" "id") ≠ [] := by
  intro s
  have hs : ∀ f ∈ s.fields, f.column.Clear :=
    List.forall_mem_cons.2 ⟨⟨by decide +kernel, by decide +kernel⟩, List.forall_mem_singleton.2
      ⟨by decide +kernel, by decide +kernel⟩⟩
  have hc : (Column.qualified "A" "id").Clear := ⟨by decide +kernel, by decide +kernel⟩
  exact ⟨hs, hc, ((s.find?_agrees_with_matching _).2 hs hc).1, by decide +kernel⟩

/-- A dot in the name of a source, and letters of another alphabet. -/
theorem dottedSource_found :
    let f : Field := { name := "c", dataType := .int32, relation := some "a.b" }
    let g : Field := { name := "É", dataType := .int32 }
    ((ofFields [f]).find? (.qualified "a" "b.c")).toOption = some (some (0, f)) ∧
      (ofFields [f]).matching (.qualified "a" "b.c") = [] ∧
      ((ofFields [g]).find? (.bare "é")).toOption = some (some (0, g)) ∧
      (ofFields [g]).matching (.bare "é") = [] := by
  intro f g
  decide +kernel

end Schema

end BatchPlan
