import BatchPlan.Proofs.Binding.Run
import BatchPlan.Proofs.Meaning.Fields

namespace BatchPlan

open BindM

namespace Schema

variable {s : Schema} {c : Column}

/-- A name that fields answer to stands for one of them, or for none because there are more. -/
theorem find?_of_not_lacks (h : ¬ s.Lacks c) :
    (∃ i f, s.candidates c = [(i, f)] ∧ s.find? c = .ok (some (i, f))) ∨
      s.contains c = false ∧ s.find? c = .error (.ambiguousColumn c.text) := by
  rcases hc : s.candidates c with _ | ⟨⟨i, f⟩, _ | ⟨second, rest⟩⟩
  · exact absurd hc h
  · exact .inl ⟨i, f, rfl, by simp [find?, hc]⟩
  · exact .inr ⟨by simp [contains, index?, hc], by simp [find?, hc]⟩

end Schema

namespace Level

/-- A query knows a column that it has, and one that its rows had before they were grouped. -/
def Knows (l : Level) (c : Column) : Prop :=
  ¬ l.schema.Lacks c ∨ ∃ before ∈ l.preAggregate, before.contains c

instance (l : Level) (c : Column) : Decidable (l.Knows c) :=
  inferInstanceAs (Decidable (_ ∨ _))

def holder? (levels : List Level) (c : Column) : Option Level :=
  levels.find? fun l => ¬ l.schema.Lacks c

end Level

namespace Scope

/-- A column is looked for outside, and the nearest query that has the name has it once. -/
def Leaks (s : Scope) (c : Column) : Prop :=
  s.schema.Lacks c ∧ ∃ l ∈ Level.holder? s.outer c, l.schema.contains c

instance (s : Scope) (c : Column) : Decidable (s.Leaks c) :=
  inferInstanceAs (Decidable (_ ∧ _))

def ungrouped (c : Column) : PlanError :=
  .semantic ("Column '" ++ c.text ++
    "' is invalid in the select list because it is not contained in either an aggregate " ++
    "function or the GROUP BY clause")

variable {s : Scope} {c : Column} {levels : List Level} {l : Level}

/-- The walk outwards stops at the first query that has the name, also where it has it twice. -/
theorem owner?_eq (c : Column) (start : Nat) (levels : List Level) :
    owner? c start levels = (Level.holder? levels c).elim (.ok none) fun l =>
      (l.schema.find? c).map (Option.map fun found =>
        (start + levels.findIdx fun l => ¬ l.schema.Lacks c, found.2)) := by
  induction levels generalizing start with
  | nil => rfl
  | cons l rest ih =>
    by_cases hl : l.schema.Lacks c
    · have hhere : owner? c start (l :: rest) = owner? c (start + 1) rest := by
        rw [owner?, Schema.find?_eq_none.2 hl]
        rfl
      rw [hhere, ih]
      simp [Level.holder?, hl, List.findIdx_cons, Nat.add_assoc, Nat.add_comm 1]
    · have hholder : Level.holder? (l :: rest) c = some l := by simp [Level.holder?, hl]
      rw [hholder, owner?, Option.elim_some]
      obtain ⟨i, f, -, hfind⟩ | ⟨-, hfind⟩ := Schema.find?_of_not_lacks hl
      · simp [hfind, hl, List.findIdx_cons, Except.map]
        rfl
      · rw [hfind]
        rfl

theorem not_lacks_of_holder? (h : Level.holder? levels c = some l) : ¬ l.schema.Lacks c := by
  simpa using List.find?_some h

section

variable (context : BindContext) (state : BindState)

theorem start_capture (level : Nat) (column : Column) (type : DataType) :
    ∃ param type' state', (capture level column type).start context state =
      (.ok (.outer param type'), state') := by
  unfold capture
  rw [start_bind, show (get : BindM BindState).start context state = (.ok state, state) from rfl]
  dsimp only
  split <;> exact ⟨_, _, _, rfl⟩

theorem holder?_levels_of_not_lacks (h : ¬ s.schema.Lacks c) :
    Level.holder? s.levels c = some s.toLevel := by
  simp [Level.holder?, levels, h]

theorem holder?_levels_of_lacks (h : s.schema.Lacks c) :
    Level.holder? s.levels c = Level.holder? s.outer c := by
  simp [Level.holder?, levels, h]

theorem start_resolve_own (h : ¬ s.schema.Lacks c) :
    (∃ i f, s.schema.candidates c = [(i, f)] ∧
      (s.resolve c).start context state = (.ok (.column f.column), state)) ∨
    s.schema.contains c = false ∧
      (s.resolve c).start context state = (.error (.ambiguousColumn c.text), state) := by
  unfold resolve
  rw [start_bind, start_lift]
  obtain ⟨i, f, hcandidates, hfind⟩ | ⟨hcontains, hfind⟩ := Schema.find?_of_not_lacks h
  · rw [hfind]
    exact .inl ⟨i, f, hcandidates, rfl⟩
  · rw [hfind]
    exact .inr ⟨hcontains, rfl⟩

theorem start_resolve_outer (h : s.schema.Lacks c) :
    (Level.holder? s.outer c = none ∧
      (s.resolve c).start context state = (.error (s.missing c), state)) ∨
    ∃ l, Level.holder? s.outer c = some l ∧
      (l.schema.contains c ∧ (∃ param type state', (s.resolve c).start context state =
        (.ok (.outer param type), state')) ∨
      l.schema.contains c = false ∧
        (s.resolve c).start context state = (.error (.ambiguousColumn c.text), state)) := by
  unfold resolve
  rw [start_bind, start_lift, Schema.find?_eq_none.2 h]
  dsimp only
  rw [start_bind, start_lift, owner?_eq]
  cases hholder : Level.holder? s.outer c with
  | none => exact .inl ⟨rfl, rfl⟩
  | some l =>
    refine .inr ⟨l, rfl, ?_⟩
    rw [Option.elim_some]
    obtain ⟨i, f, hcandidates, hfind⟩ | ⟨hcontains, hfind⟩ :=
      Schema.find?_of_not_lacks (not_lacks_of_holder? hholder)
    · rw [hfind]
      exact .inl ⟨Schema.contains_iff.2 ⟨i, f, hcandidates⟩, start_capture context state _ _ _⟩
    · rw [hfind]
      exact .inr ⟨hcontains, rfl⟩

end

/-- A column is read from an enclosing query exactly if it leaks. A column that a query knows and
that does not leak is its own, or it is an error: the nearest query with the name has it more than
once, or rows are not grouped by it and no query has the name any more. -/
theorem resolve_shadows (s : Scope) (c : Column) (context : BindContext) (state : BindState) :
    ((∃ param type state', (s.resolve c).start context state = (.ok (.outer param type), state')) ↔
      s.Leaks c) ∧
    (s.toLevel.Knows c → ¬ s.Leaks c →
      (∃ i f, s.schema.candidates c = [(i, f)] ∧
        (s.resolve c).start context state = (.ok (.column f.column), state)) ∨
      (∃ l ∈ Level.holder? s.levels c, l.schema.contains c = false) ∧
        (s.resolve c).start context state = (.error (.ambiguousColumn c.text), state) ∨
      Level.holder? s.levels c = none ∧
        (s.resolve c).start context state = (.error (ungrouped c), state)) := by
  by_cases hlacks : s.schema.Lacks c
  · rw [holder?_levels_of_lacks hlacks]
    obtain ⟨hholder, hrun⟩ | ⟨l, hholder, ⟨hcontains, hrun⟩ | ⟨hcontains, hrun⟩⟩ :=
      start_resolve_outer context state hlacks
    · have hleaks : ¬ s.Leaks c := by simp [Leaks, hholder]
      refine ⟨by simp [hrun, hleaks], fun hknows _ => .inr (.inr ⟨hholder, ?_⟩)⟩
      obtain ⟨before, hbefore, hcontains⟩ := hknows.resolve_left (not_not.2 hlacks)
      rw [hrun, missing, if_pos (by simp [Option.mem_def.1 hbefore, hcontains]), ungrouped]
    · have hleaks : s.Leaks c := ⟨hlacks, l, hholder, hcontains⟩
      exact ⟨iff_of_true hrun hleaks, fun _ h => absurd hleaks h⟩
    · have hleaks : ¬ s.Leaks c := by simp [Leaks, hholder, hcontains]
      exact ⟨by simp [hrun, hleaks], fun _ _ => .inr (.inl ⟨⟨l, hholder, hcontains⟩, hrun⟩)⟩
  · have hleaks : ¬ s.Leaks c := fun h => hlacks h.1
    rw [holder?_levels_of_not_lacks hlacks]
    obtain ⟨i, f, hcandidates, hrun⟩ | ⟨hcontains, hrun⟩ := start_resolve_own context state hlacks
    · exact ⟨by simp [hrun, hleaks], fun _ _ => .inl ⟨i, f, hcandidates, hrun⟩⟩
    · exact ⟨by simp [hrun, hleaks], fun _ _ => .inr (.inl ⟨⟨_, rfl, hcontains⟩, hrun⟩)⟩

/-- Teams that are grouped by their owners, in a query over accounts. Both have names. -/
def groupedTeams : Scope where
  schema := .ofFields [{ name := "ownerid", dataType := .utf8, relation := some "team" }]
  preAggregate := some (.ofFields [{ name := "name", dataType := .utf8, relation := some "team" },
    { name := "ownerid", dataType := .utf8, relation := some "team" }])
  outer := [{ schema := .ofFields [{ name := "name", dataType := .utf8, relation := some "a" }] }]

def noEntities : BindContext := { catalog := { entities := [] }, options := {} }

theorem groupedTeams_shadows :
    (groupedTeams.resolve (.qualified "team" "name")).start noEntities { session := .empty } =
      (.error (ungrouped (.qualified "team" "name")), { session := .empty }) := by
  have hlacks : groupedTeams.schema.Lacks (.qualified "team" "name") := by decide +kernel
  have hholder : Level.holder? groupedTeams.levels (.qualified "team" "name") = none :=
    List.find?_eq_none.2 (by decide +kernel)
  obtain ⟨i, f, hcandidates, -⟩ | ⟨⟨l, hl, -⟩, -⟩ | ⟨-, hrun⟩ :=
    (groupedTeams.resolve_shadows (.qualified "team" "name") noEntities { session := .empty }).2
      (by decide +kernel) (by decide +kernel)
  · exact nomatch hlacks.symm.trans hcandidates
  · exact nomatch hholder.symm.trans hl
  · exact hrun

theorem groupedTeams_leaks :
    groupedTeams.toLevel.Knows (.bare "name") ∧ ∃ param type state',
      (groupedTeams.resolve (.bare "name")).start noEntities { session := .empty } =
        (.ok (.outer param type), state') :=
  ⟨by decide +kernel, start_capture _ _ 0 (.qualified "a" "name") .utf8⟩

end Scope

end BatchPlan
