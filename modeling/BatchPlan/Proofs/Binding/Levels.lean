import BatchPlan.Binding.Scope
import BatchPlan.Proofs.Meaning.Fields

namespace BatchPlan

variable {levels : List Level} {s : Schema} {c : Column}

/-- The nearest query that has a name, by its place among queries, and the one field that it stands
for. -/
inductive Nearest (c : Column) : List Level → Nat → Nat × Field → Prop
  | here {l : Level} {rest : List Level} {found : Nat × Field}
    (h : l.schema.candidates c = [found]) : Nearest c (l :: rest) 0 found
  | outside {l : Level} {rest : List Level} {i : Nat} {found : Nat × Field} (hl : l.schema.Lacks c)
      (h : Nearest c rest i found) : Nearest c (l :: rest) (i + 1) found

theorem Nearest.owner {i : Nat} {found : Nat × Field} (h : Nearest c levels i found) :
    ∃ l, levels[i]? = some l ∧ l.schema.candidates c = [found] := by
  induction h with
  | here h => exact ⟨_, rfl, h⟩
  | outside _ _ ih => exact ih

theorem Scope.owner?_eq_some {start level : Nat} {field : Field} :
    owner? c start levels = .ok (some (level, field)) ↔
      ∃ i n, level = start + i ∧ Nearest c levels i (n, field) := by
  induction levels generalizing start with
  | nil => exact ⟨nofun, nofun⟩
  | cons l rest ih =>
    rcases hc : l.schema.candidates c with _ | ⟨found, _ | ⟨second, more⟩⟩
    · have hstep : owner? c start (l :: rest) = owner? c (start + 1) rest := by
        rw [owner?, Schema.find?_eq_none.2 hc]
        rfl
      rw [hstep, ih]
      constructor
      · rintro ⟨i, n, rfl, h⟩
        exact ⟨i + 1, n, by omega, .outside hc h⟩
      · rintro ⟨_, n, rfl, h | ⟨-, h⟩⟩
        · cases hc.symm.trans ‹_›
        · exact ⟨_, n, by omega, h⟩
    · rw [owner?, Schema.find?_eq_some.2 hc]
      constructor
      · rintro ⟨⟩
        exact ⟨0, found.1, rfl, .here hc⟩
      · rintro ⟨_, n, rfl, h | ⟨hl, -⟩⟩
        · cases hc.symm.trans ‹_›
          rfl
        · cases hc.symm.trans hl
    · have herror : owner? c start (l :: rest) = .error (.ambiguousColumn c.text) := by
        rw [owner?, Schema.find?, hc]
        rfl
      rw [herror]
      constructor
      · rintro ⟨⟩
      · rintro ⟨_, n, rfl, h | ⟨hl, -⟩⟩
        · cases hc.symm.trans ‹_›
        · cases hc.symm.trans hl

def Level.Offers (l : Level) (c : Captured) : Prop :=
  ∃ f ∈ l.schema.fields, c.binding.column = f.column ∧ c.dataType = f.dataType

/-- No field answers to a column under the column's own name. -/
def Schema.Hides (s : Schema) (c : Column) : Prop :=
  ∀ f ∈ s.fields, f.answersTo c.relation.isSome (Text.lower c.text) →
    Text.lower f.name ≠ Text.lower c.name

theorem Schema.hides_of_lacks {f : Field} (hs : s.Lacks c)
    (hf : f.answersTo c.relation.isSome (Text.lower c.text)) : s.Hides f.column := by
  intro g hg hanswers hname
  have hlacks := lacks_iff.1 hs g hg
  cases hc : c.relation with
  | none =>
    -- a bare name is compared with the names alone
    simp only [hc, Option.isSome_none, Field.answersTo_bare, beq_iff_eq] at hf
    simp only [hc, Option.isSome_none, Field.answersTo_bare, beq_eq_false_iff_ne] at hlacks
    exact hlacks (hname.trans hf)
  | some r =>
    simp only [Field.answersTo, hc, Option.isSome_some, if_true, Bool.and_eq_true, beq_iff_eq] at hf
    rw [← hf.2, hc, Option.isSome_some, ← hf.1] at hlacks
    exact Bool.eq_false_iff.1 hlacks hanswers

/-- A column that was read is one of the level at a place, and the levels before hide it. -/
def Visible : List Level → Nat → Captured → Prop
  | [], _, _ => False
  | l :: _, 0, e => l.Offers e
  | l :: rest, i + 1, e => l.schema.Hides e.binding.column ∧ Visible rest i e

theorem Nearest.visible {levels : List Level} {i : Nat} {found : Nat × Field}
    (h : Nearest c levels i found)
    (param : String) : Visible levels i ⟨⟨param, found.2.column⟩, found.2.dataType⟩ := by
  have hanswers : found.2.answersTo c.relation.isSome (Text.lower c.text) := by
    obtain ⟨l, -, hl⟩ := h.owner
    exact (Schema.mem_of_candidates hl).2
  induction h with
  | here h => exact ⟨_, (Schema.mem_of_candidates h).1, rfl, rfl⟩
  | outside hl _ ih => exact ⟨Schema.hides_of_lacks hl hanswers, ih hanswers⟩

end BatchPlan
