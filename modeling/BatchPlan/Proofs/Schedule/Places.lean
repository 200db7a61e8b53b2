import BatchPlan.Proofs.Caching.Schedule
import Mathlib.Data.List.Nodup

namespace BatchPlan.Plan

variable {p left right : Plan} {id i : Nat} {path : List Nat} {available : List Nat}

/-- The operator at a place, which is given by the numbers of the inputs on the way from the
root. -/
def at? : Plan → List Nat → Option Plan
  | p, [] => some p
  | p, i :: path => p.children[i]?.bind (at? · path)

def Fills (p : Plan) (id : Nat) (path : List Nat) : Prop :=
  (p.at? path).bind producer? = some id

/-- No two spools have the same number. -/
def FillsOnce (p : Plan) : Prop :=
  ∀ id path path', p.Fills id path → p.Fills id path' → path = path'

def Consumes (p : Plan) (id : Nat) (path : List Nat) : Prop :=
  (p.at? path).bind consumed? = some id

/-- The spool of a number is filled before rows are read at a place: the place is inside of it, or
on the inner side of a nested loop that has it on the outer side. -/
def Ready (p : Plan) (id : Nat) (path : List Nat) : Prop :=
  (∃ above, above <+: path ∧ p.Fills id above) ∨
    ∃ above left right spec outer below, p.at? above = some (.join left right spec) ∧
      spec.strategy = .nestedLoop outer ∧ above ++ [1] <+: path ∧ left.Fills id below

/-- The spools that an operator offers to one of its inputs. -/
def offered : Plan → Nat → List Nat
  | .spool id _ _ _, _ => [id]
  | .join left _ spec, 1 => JoinStrategy.offers spec.strategy left
  | _, _ => []

theorem fills_nil : p.Fills id [] ↔ p.producer? = some id :=
  Iff.rfl

theorem fills_cons : p.Fills id (i :: path) ↔ ∃ child, p.children[i]? = some child ∧
    child.Fills id path := by
  rw [Fills, at?]
  cases p.children[i]? with
  | none => simp
  | some child => simp [Fills]

theorem consumes_cons :
    p.Consumes id (i :: path) ↔ ∃ child, p.children[i]? = some child ∧ child.Consumes id path := by
  rw [Consumes, at?]
  cases p.children[i]? with
  | none => simp
  | some child => simp [Consumes]

theorem mem_inputs (h : ∀ child ∈ p.children, id ∈ child.producers ↔ ∃ path, child.Fills id path) :
    id ∈ p.children.flatMap producers ↔ ∃ i path, p.Fills id (i :: path) := by
  rw [List.mem_flatMap]
  constructor
  · rintro ⟨child, hchild, hid⟩
    obtain ⟨i, hi⟩ := List.mem_iff_getElem?.1 hchild
    obtain ⟨path, hpath⟩ := (h child hchild).1 hid
    exact ⟨i, path, fills_cons.2 ⟨child, hi, hpath⟩⟩
  · rintro ⟨i, path, hpath⟩
    obtain ⟨child, hi, hpath⟩ := fills_cons.1 hpath
    have hchild := List.mem_of_getElem? hi
    exact ⟨child, hchild, (h child hchild).2 ⟨path, hpath⟩⟩

theorem mem_producers : id ∈ p.producers ↔ ∃ path, p.Fills id path := by
  induction p using byChildren with
  | step p ih =>
    rw [producers_eq, List.mem_append, Option.mem_toList, mem_inputs ih]
    constructor
    · rintro (hown | ⟨i, path, hpath⟩)
      · exact ⟨[], hown⟩
      · exact ⟨i :: path, hpath⟩
    · rintro ⟨_ | ⟨i, path⟩, hpath⟩
      · exact .inl hpath
      · exact .inr ⟨i, path, hpath⟩

section

variable (ih : ∀ child ∈ p.children, child.producers.Nodup ↔ child.FillsOnce)

include ih

/-- Spools in different inputs are apart, and so are those inside of each input. -/
theorem nodup_inputs_iff : (p.children.flatMap producers).Nodup ↔
    ∀ id i path j path', p.Fills id (i :: path) → p.Fills id (j :: path') →
    i :: path = j :: path' := by
  rw [List.nodup_flatMap, List.pairwise_iff_getElem]
  constructor
  · rintro ⟨hown, hapart⟩ id i path j path' hpath hpath'
    obtain ⟨child, hi, hpath⟩ := fills_cons.1 hpath
    obtain ⟨child', hj, hpath'⟩ := fills_cons.1 hpath'
    obtain ⟨hilt, rfl⟩ := List.getElem?_eq_some_iff.1 hi
    obtain ⟨hjlt, rfl⟩ := List.getElem?_eq_some_iff.1 hj
    have hmem := mem_producers.2 ⟨path, hpath⟩
    have hmem' := mem_producers.2 ⟨path', hpath'⟩
    rcases Nat.lt_trichotomy i j with hlt | rfl | hlt
    · exact absurd hmem' (hapart i j hilt hjlt hlt hmem)
    · have hchild := List.getElem_mem hilt
      rw [(ih _ hchild).1 (hown _ hchild) id path path' hpath hpath']
    · exact absurd hmem (hapart j i hjlt hilt hlt hmem')
  · intro h
    refine ⟨fun child hchild => (ih child hchild).2 fun id path path' hpath hpath' => ?_, ?_⟩
    · obtain ⟨i, hi⟩ := List.mem_iff_getElem?.1 hchild
      have hsame := h id i path i path' (fills_cons.2 ⟨child, hi, hpath⟩)
        (fills_cons.2 ⟨child, hi, hpath'⟩)
      exact (List.cons.inj hsame).2
    · intro i j hi hj hlt id hmem hmem'
      obtain ⟨path, hpath⟩ := mem_producers.1 hmem
      obtain ⟨path', hpath'⟩ := mem_producers.1 hmem'
      have hsame := h id i path j path' (fills_cons.2 ⟨_, List.getElem?_eq_getElem hi, hpath⟩)
        (fills_cons.2 ⟨_, List.getElem?_eq_getElem hj, hpath'⟩)
      exact absurd (List.cons.inj hsame).1 (Nat.ne_of_lt hlt)

/-- The spool at the top is apart from those in the inputs. -/
theorem nodup_producers_step : p.producers.Nodup ↔ p.FillsOnce := by
  have hmem {id : Nat} : id ∈ p.children.flatMap producers ↔ ∃ i path, p.Fills id (i :: path) :=
    mem_inputs fun _ _ => mem_producers
  rw [producers_eq, List.nodup_append, nodup_inputs_iff ih]
  constructor
  · rintro ⟨-, hinputs, hown⟩ id path path' hpath hpath'
    cases path with
    | nil =>
      cases path' with
      | nil => rfl
      | cons j path' =>
        exact absurd rfl (hown id (Option.mem_toList.2 hpath) id (hmem.2 ⟨j, path', hpath'⟩))
    | cons i path =>
      cases path' with
      | nil => exact absurd rfl (hown id (Option.mem_toList.2 hpath') id (hmem.2 ⟨i, path, hpath⟩))
      | cons j path' => exact hinputs id i path j path' hpath hpath'
  · intro h
    refine ⟨by cases p.producer? <;> simp, fun id i path j path' => h id _ _, ?_⟩
    rintro id hown _ hid rfl
    obtain ⟨i, path, hpath⟩ := hmem.1 hid
    cases h id [] (i :: path) (Option.mem_toList.1 hown) hpath

end

theorem nodup_producers_iff : p.producers.Nodup ↔ p.FillsOnce := by
  induction p using byChildren with
  | step p ih => exact nodup_producers_step ih

theorem mem_offered : id ∈ p.offered i ↔ p.producer? = some id ∨
    i = 1 ∧ ∃ left right spec outer, p = .join left right spec ∧ spec.strategy = .nestedLoop outer ∧
      ∃ below, left.Fills id below := by
  cases p with
  | spool id' input kind mode => simp [offered, producer?, eq_comm]
  | join left right spec =>
    by_cases hi : i = 1
    · subst hi
      cases hstrategy : spec.strategy with
      | nestedLoop outer => simp [offered, producer?, JoinStrategy.offers, hstrategy, mem_producers]
      | _ => simp [offered, producer?, JoinStrategy.offers, hstrategy]
    · simp [offered, producer?, hi]
  | _ => simp [offered, producer?]

theorem ready_nil : p.Ready id [] ↔ p.producer? = some id := by
  simp [Ready, fills_nil]

/-- At an input, what is ready is offered by the operator or ready in the input itself. -/
theorem ready_cons {child : Plan} (hchild : p.children[i]? = some child) :
    p.Ready id (i :: path) ↔ id ∈ p.offered i ∨ child.Ready id path := by
  have hat (above : List Nat) : p.at? (i :: above) = child.at? above := by
    rw [at?, hchild]
    rfl
  rw [mem_offered]
  constructor
  · rintro (⟨_ | ⟨j, above⟩, habove, hfills⟩ |
      ⟨_ | ⟨j, above⟩, left, right, spec, outer, below, hjoin, hstrategy, habove, hfills⟩)
    · exact .inl (.inl hfills)
    · obtain ⟨rfl, hbelow⟩ := List.cons_prefix_cons.1 habove
      rw [Fills, hat] at hfills
      exact .inr (.inl ⟨above, hbelow, hfills⟩)
    · obtain ⟨rfl, -⟩ := List.cons_prefix_cons.1 habove
      exact .inl (.inr ⟨rfl, left, right, spec, outer, Option.some.inj hjoin, hstrategy,
        below, hfills⟩)
    · obtain ⟨rfl, hbelow⟩ := List.cons_prefix_cons.1 habove
      rw [hat] at hjoin
      exact .inr (.inr ⟨above, left, right, spec, outer, below, hjoin, hstrategy, hbelow, hfills⟩)
  · rintro ((hown | ⟨rfl, left, right, spec, outer, rfl, hstrategy, below, hfills⟩) | ⟨above,
      habove, hfills⟩ | ⟨above, left, right, spec, outer, below, hjoin, hstrategy, habove, hfills⟩)
    · exact .inl ⟨[], List.nil_prefix, hown⟩
    · exact .inr ⟨[], left, right, spec, outer, below, rfl, hstrategy, by simp, hfills⟩
    · refine .inl ⟨i :: above, List.cons_prefix_cons.2 ⟨rfl, habove⟩, ?_⟩
      rwa [Fills, hat]
    · exact .inr ⟨i :: above, left, right, spec, outer, below, by rwa [hat], hstrategy,
        List.cons_prefix_cons.2 ⟨rfl, habove⟩, hfills⟩

theorem forall_input {P : Nat → Plan → Prop} :
    (∀ (i : Nat) (child : Plan), [p][i]? = some child → P i child) ↔ P 0 p := by
  refine ⟨fun h => h 0 p rfl, fun h i child hi => ?_⟩
  rcases i with _ | i
  · cases hi
    exact h
  · cases hi

/-- One step of the check: an operator reads a spool that is available, and its inputs are checked
with what it offers. -/
theorem checkConsumers_iff : p.checkConsumers available = .ok () ↔
    (∀ id, p.consumed? = some id → id ∈ available) ∧
      ∀ (i : Nat) (child : Plan), p.children[i]? = some child →
        child.checkConsumers (p.offered i ++ available) = .ok () := by
  cases p with
  | consumer producer schema => simp [checkConsumers, consumed?, children]
  | join left right spec =>
    rw [checkConsumers_join]
    constructor
    · rintro ⟨hleft, hright⟩
      refine ⟨by simp [consumed?], fun i child hi => ?_⟩
      rcases i with _ | _ | i
      · cases hi
        exact hleft
      · cases hi
        exact hright
      · cases hi
    · rintro ⟨-, h⟩
      exact ⟨h 0 left rfl, h 1 right rfl⟩
  | concat inputs columns =>
    rw [checkConsumers, checkAllConsumers_eq_ok]
    refine ⟨fun h => ⟨by simp [consumed?], fun i child hi => h child (List.mem_of_getElem? hi)⟩, ?_⟩
    rintro ⟨-, h⟩ child hchild
    obtain ⟨i, hi⟩ := List.mem_iff_getElem?.1 hchild
    exact h i child hi
  | scan | constant | function => simp [checkConsumers, consumed?, children]
  | _ => simp [checkConsumers, consumed?, children, offered, forall_input]

theorem checkConsumers_eq_ok_iff_places : p.checkConsumers available = .ok () ↔
    ∀ id path, p.Consumes id path → id ∈ available ∨ p.Ready id path := by
  induction p using byChildren generalizing available with
  | step p ih =>
    rw [checkConsumers_iff]
    constructor
    · rintro ⟨hown, hinputs⟩ id (_ | ⟨i, path⟩) hpath
      · exact .inl (hown id hpath)
      · obtain ⟨child, hi, hpath⟩ := consumes_cons.1 hpath
        rw [ready_cons hi]
        have hchild := (ih child (List.mem_of_getElem? hi)).1 (hinputs i child hi) id path hpath
        rw [List.mem_append] at hchild
        tauto
    · intro h
      refine ⟨fun id hid => ?_, fun i child hi => (ih child (List.mem_of_getElem? hi)).2
        fun id path hpath => ?_⟩
      · refine (h id [] hid).resolve_right fun hready => ?_
        rw [ready_nil] at hready
        cases p <;> simp [consumed?, producer?] at hid hready
      · have hready := h id (i :: path) (consumes_cons.2 ⟨child, hi, hpath⟩)
        rw [ready_cons hi] at hready
        rw [List.mem_append]
        tauto

/-- The check of a plan decides its rule. -/
theorem validateSpools_iff_places (p : Plan) : p.validateSpools = .ok () ↔
    p.FillsOnce ∧ ∀ id path, p.Consumes id path → p.Ready id path := by
  rw [validateSpools_eq_ok, nodup_producers_iff, checkConsumers_eq_ok_iff_places]
  simp

end BatchPlan.Plan
