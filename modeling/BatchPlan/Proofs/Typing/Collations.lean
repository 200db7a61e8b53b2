import BatchPlan.Proofs.Binding.Operands
import BatchPlan.Sql.Grammar.Batch

namespace BatchPlan

open BindM

namespace Result

variable {α β : Type}

theorem forM_eq_ok {xs : List α} {f : α → Result Unit} :
    xs.forM f = .ok () ↔ ∀ a ∈ xs, f a = .ok () := by
  induction xs with
  | nil => simp [pure, Except.pure]
  | cons a rest ih =>
    rw [List.forall_mem_cons, ← ih, List.forM]
    cases hfirst : f a with
    | error e => simp [bind, Except.bind]
    | ok => simp [bind, Except.bind]

end Result

namespace Scalar

/-- The values that an expression compares, not those that its parts compare. -/
def compared : Scalar → List (Scalar × Scalar)
  | .binary left op right => if op.isComparison then [(left, right)] else []
  | .inList e items _ => items.map fun item => (e, item)
  | .between e low high _ => [(e, low), (e, high)]
  | .case (some operand) branches _ => branches.map fun branch => (operand, branch.1)
  | _ => []

def isBinary : Scalar → Bool
  | .binary .. => true
  | _ => false

def isText (schema : Schema) (e : Scalar) : Bool :=
  (e.dataType schema).toOption.any DataType.isString

/-- There is a collation with which to compare two texts. -/
def Resolves (schema : Schema) (base : Collation) (left right : Scalar) : Prop :=
  ∃ l r collation, left.collationLabel schema base = .ok l ∧
    right.collationLabel schema base = .ok r ∧ l.comparison r = .ok collation

variable {schema : Schema} {base : Collation}

theorem resolves_iff {left right : Scalar} : Resolves schema base left right ↔
    (do
      let l ← left.collationLabel schema base
      discard <| l.comparison (← right.collationLabel schema base)) = .ok () := by
  unfold Resolves
  cases left.collationLabel schema base with
  | error e => simp [bind, Except.bind]
  | ok l =>
    cases right.collationLabel schema base with
    | error e => simp [bind, Except.bind]
    | ok r =>
      change _ ↔ discard (l.comparison r) = _
      cases hcomparison : l.comparison r with
      | error e => simp [hcomparison, discard, Functor.mapConst, Except.map]
      | ok collation => simp [hcomparison, discard, Functor.mapConst, Except.map]

theorem checkCollations_eq_ok {e : Scalar} : e.checkCollations schema base = .ok () ↔
    ∀ part ∈ e.parts, ∀ pair ∈ part.compared, pair.1.isText schema → pair.2.isText schema →
      Resolves schema base pair.1 pair.2 ∨ part.isBinary = false := by
  unfold checkCollations
  rw [Result.forM_eq_ok]
  refine forall₂_congr fun part _ => ?_
  cases part with
  | binary left op right =>
    simp only [isBinary, compared, isText, resolves_iff]
    cases op.isComparison with
    | false => simp [pure, Except.pure]
    | true =>
      simp only [Bool.true_and, if_true, List.forall_mem_singleton, reduceCtorEq, or_false]
      cases left.dataType schema with
      | error e => simp [pure, Except.pure, Except.toOption]
      | ok l =>
        cases right.dataType schema with
        | error e => simp [pure, Except.pure, Except.toOption]
        | ok r =>
          simp [pure, Except.pure, Except.toOption]
  | _ => simp [isBinary, pure, Except.pure]

end Scalar

theorem Scope.bindChecked_accepts_iff (s : Scope) (e : Sql.Expr) (bound : Scalar) (c : BindContext)
    (st st' : BindState) :
    (s.bindChecked e).start c st = (.ok bound, st') ↔
      (s.bind e).start c st = (.ok bound, st') ∧ (∃ t, bound.dataType s.schema = .ok t) ∧
      ∀ part : Scalar, part.Within bound → ∀ pair ∈ part.compared,
        pair.1.isText s.schema → pair.2.isText s.schema →
          Scalar.Resolves s.schema c.options.collation pair.1 pair.2 ∨ part.isBinary = false := by
  simp only [← Scalar.mem_parts_iff]
  rw [← Scalar.checkCollations_eq_ok]
  constructor
  · intro h
    obtain ⟨bound', st₁, hbind, h⟩ := exists_of_start_bind h
    obtain ⟨t, htype, h⟩ := exists_of_start_test_bind h
    rw [start_read_bind] at h
    obtain ⟨⟨⟩, hcheck, h⟩ := exists_of_start_lift_bind h
    cases h
    exact ⟨hbind, ⟨t, htype⟩, hcheck⟩
  · rintro ⟨hbind, ⟨t, htype⟩, hcheck⟩
    unfold bindChecked
    rw [start_bind_ok hbind, htype]
    change ((liftM (bound.checkCollations s.schema c.options.collation) : BindM Unit) >>=
      _).start c st' = _
    rw [hcheck]
    rfl

def collated (collation : String) : Sql.Expr :=
  .collate (.literal (.string "x")) ⟨[⟨collation, none⟩]⟩

def conflictingIn : Sql.Expr :=
  .inList (collated "Latin1_General_CI_AS") [collated "Latin1_General_CS_AS"] false

/-- Two explicit collations are in conflict, and the list is accepted. -/
theorem Scope.conflictingIn_accepted :
    ∃ bound st', ((ofSchema .empty []).bindChecked conflictingIn).start
      { catalog := {}, options := {} } { session := .empty } = (.ok bound, st') ∧
      ∃ pair ∈ bound.compared, pair.1.isText .empty ∧ pair.2.isText .empty ∧
        ¬ Scalar.Resolves .empty .default pair.1 pair.2 := by
  refine ⟨_, _, rfl, _, List.mem_cons_self, by decide, by decide, ?_⟩
  rintro ⟨l, r, collation, hl, hr, h⟩
  cases hl
  cases hr
  cases h

end BatchPlan
