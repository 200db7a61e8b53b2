import BatchPlan.Collation

namespace BatchPlan.CollationLabel

/-- Labels that are combined two by two, in some order and some bracketing. -/
inductive Combination where
  | label (l : CollationLabel)
  | both (left right : Combination)

namespace Combination

def labels : Combination → List CollationLabel
  | label l => [l]
  | both left right => left.labels ++ right.labels

def outcome : Combination → Result CollationLabel
  | label l => .ok l
  | both left right => do
    let l ← left.outcome
    l.combine (← right.outcome)

end Combination

def Conflicting (labels : List CollationLabel) : Prop :=
  ∃ a b, .explicit a ∈ labels ∧ .explicit b ∈ labels ∧ a ≠ b

def Undecided (labels : List CollationLabel) : Prop :=
  .none ∈ labels ∨ ∃ a b, .implicit a ∈ labels ∧ .implicit b ∈ labels ∧ a ≠ b

/-- The label that stands for all of them, where no two explicit ones differ. -/
inductive Prevails (labels : List CollationLabel) : CollationLabel → Prop
  | explicit {c : Collation} (h : .explicit c ∈ labels) : Prevails labels (.explicit c)
  | none (hexplicit : ∀ c, .explicit c ∉ labels) (h : Undecided labels) : Prevails labels .none
  | implicit {c : Collation} (hexplicit : ∀ c, .explicit c ∉ labels) (hdecided : ¬ Undecided labels)
      (h : .implicit c ∈ labels) : Prevails labels (.implicit c)
  | coercible {c : Collation} (hexplicit : ∀ c, .explicit c ∉ labels)
    (hdecided : ¬ Undecided labels)
      (himplicit : ∀ c, .implicit c ∉ labels) (h : .coercible c ∈ labels) :
        Prevails labels (.coercible c)

/-- What the rule makes of labels: an error if they are in conflict, else the label that
prevails. -/
def Settled (labels : List CollationLabel) : Result CollationLabel → Prop
  | .ok l => ¬ Conflicting labels ∧ Prevails labels l
  | .error _ => Conflicting labels

/-- All literals have one collation, the default of the batch. -/
def SameDefault (base : Collation) (labels : List CollationLabel) : Prop :=
  ∀ c, .coercible c ∈ labels → c = base

variable {labels lefts rights : List CollationLabel} {l r : CollationLabel} {base : Collation}

theorem Settled.of_perm {outcome : Result CollationLabel} (h : Settled lefts outcome)
    (hperm : lefts.Perm rights) : Settled rights outcome := by
  have hmem (l : CollationLabel) : l ∈ lefts ↔ l ∈ rights := hperm.mem_iff
  cases outcome with
  | error e => grind [Settled, Conflicting]
  | ok l =>
    obtain ⟨hagree, h⟩ := h
    refine ⟨by grind [Conflicting], ?_⟩
    cases h with | _ => grind [Prevails, Undecided]

theorem settled_combine (hlefts : ¬ Conflicting lefts) (hrights : ¬ Conflicting rights)
    (hl : Prevails lefts l) (hr : Prevails rights r) : Settled (lefts ++ rights) (l.combine r) := by
  -- An explicit label wins on either side; below it, one side without a collation leaves none.
  cases hl with
  | explicit => cases hr with | _ => grind [combine, Settled, Prevails, Conflicting]
  | none => cases hr with | _ => grind [combine, Settled, Prevails, Conflicting, Undecided]
  | implicit => cases hr with | _ => grind [combine, Settled, Prevails, Conflicting, Undecided]
  | coercible => cases hr with | _ => grind [combine, Settled, Prevails, Conflicting, Undecided]

theorem Combination.settled (t : Combination) : Settled t.labels t.outcome := by
  induction t with
  | label l => cases l <;> grind [Settled, Prevails, Conflicting, Undecided, labels, outcome]
  | both left right ihl ihr =>
    rw [labels, outcome]
    cases hl : left.outcome with
    | error e =>
      rw [hl] at ihl
      exact ihl.imp fun a => Exists.imp fun b => by grind
    | ok l =>
      cases hr : right.outcome with
      | error e =>
        rw [hr] at ihr
        exact ihr.imp fun a => Exists.imp fun b => by grind
      | ok r =>
        rw [hl] at ihl
        rw [hr] at ihr
        exact settled_combine ihl.1 ihr.1 ihl.2 ihr.2

theorem Prevails.unique (hagree : ¬ Conflicting labels) (hbase : SameDefault base labels)
    (hl : Prevails labels l) (hr : Prevails labels r) : l = r := by
  cases hl with
  | explicit => cases hr with | _ => grind [Conflicting]
  | none => cases hr with | _ => grind
  | implicit => cases hr with | _ => grind [Undecided]
  | coercible => cases hr with | _ => grind [SameDefault]

theorem Settled.eq_ok_iff {outcome : Result CollationLabel} (h : Settled labels outcome)
    (hbase : SameDefault base labels) : outcome = .ok l ↔ ¬ Conflicting labels ∧
    Prevails labels l := by
  cases outcome with
  | error e => exact iff_of_false nofun fun hl => hl.1 h
  | ok r =>
    refine ⟨fun hr => Except.ok.inj hr ▸ h, fun hl => ?_⟩
    rw [h.2.unique h.1 hbase hl.2]

theorem Settled.eq_error_iff {outcome : Result CollationLabel} (h : Settled labels outcome) :
    (∃ e, outcome = .error e) ↔ Conflicting labels := by
  cases outcome with
  | error e => exact iff_of_true ⟨e, rfl⟩ h
  | ok r => exact iff_of_false nofun h.1

theorem comparison_eq_error_iff (l r : CollationLabel) :
    (∃ e, l.comparison r = .error e) ↔ (∃ e, l.combine r = .error e) ∨ l.combine r = .ok .none := by
  unfold comparison
  cases l.combine r with
  | error e => exact iff_of_true ⟨e, rfl⟩ (.inl ⟨e, rfl⟩)
  | ok m =>
    cases m with
    | none => exact iff_of_true ⟨_, rfl⟩ (.inr rfl)
    | _ => exact iff_of_false nofun nofun

theorem Combination.outcome_of_perm (labels : List CollationLabel) (base : Collation)
    (hbase : SameDefault base labels) (t : Combination) (ht : t.labels.Perm labels) :
    ((∃ e, t.outcome = .error e) ↔ Conflicting labels) ∧
    (∀ l, t.outcome = .ok l ↔ ¬ Conflicting labels ∧ Prevails labels l) ∧
    ∀ l r : CollationLabel,
      (∃ e, l.comparison r = .error e) ↔ (∃ e, l.combine r = .error e) ∨
      l.combine r = .ok .none := by
  have hsettled : Settled labels t.outcome := t.settled.of_perm ht
  exact ⟨hsettled.eq_error_iff, fun _ => hsettled.eq_ok_iff hbase, comparison_eq_error_iff⟩

/-- Two columns with different collations, a literal, and an explicit collation that decides. -/
def rescued : Combination :=
  .both (.both (.label (.implicit .default)) (.label (.implicit ⟨"Latin1_General_CS_AS"⟩)))
    (.both (.label (.coercible .default)) (.label (.explicit ⟨"Latin1_General_CI_AS"⟩)))

theorem rescued_outcome : rescued.outcome = .ok (.explicit ⟨"Latin1_General_CI_AS"⟩) := by
  have hbase : SameDefault .default rescued.labels.reverse := by
    simp [SameDefault, rescued, Combination.labels]
  have h := Combination.outcome_of_perm rescued.labels.reverse .default hbase rescued
    (List.reverse_perm _).symm
  refine (h.2.1 _).2 ⟨?_, .explicit ?_⟩
  · simp [Conflicting, rescued, Combination.labels]
  · simp [rescued, Combination.labels]

end BatchPlan.CollationLabel
