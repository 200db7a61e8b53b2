namespace BatchPlan

/-- What a condition comes out as. A comparison with NULL is neither true nor false. -/
inductive Truth where
  | true
  | false
  | unknown
deriving DecidableEq, Repr, Inhabited

namespace Truth

variable {t u : Truth} {b : Bool}

def ofBool : Bool → Truth
  | .true => .true
  | .false => .false

def not : Truth → Truth
  | .true => .false
  | .false => .true
  | .unknown => .unknown

def and : Truth → Truth → Truth
  | .true, t => t
  | .false, _ => .false
  | .unknown, .false => .false
  | .unknown, _ => .unknown

def or : Truth → Truth → Truth
  | .true, _ => .true
  | .false, t => t
  | .unknown, .true => .true
  | .unknown, _ => .unknown

def notIf (negate : Bool) (t : Truth) : Truth :=
  if negate then t.not else t

@[simp]
theorem ofBool_eq_true : ofBool b = .true ↔ b = Bool.true := by
  cases b <;> simp [ofBool]

@[simp]
theorem ofBool_eq_false : ofBool b = .false ↔ b = Bool.false := by
  cases b <;> simp [ofBool]

@[simp]
theorem ofBool_ne_unknown (b : Bool) : ofBool b ≠ .unknown := by
  cases b <;> simp [ofBool]

@[simp]
theorem not_eq_true : t.not = .true ↔ t = .false := by
  cases t <;> simp [not]

@[simp]
theorem and_eq_true : t.and u = .true ↔ t = .true ∧ u = .true := by
  cases t <;> cases u <;> simp [and]

@[simp]
theorem or_eq_true : t.or u = .true ↔ t = .true ∨ u = .true := by
  cases t <;> cases u <;> simp [or]

@[simp]
theorem or_eq_false : t.or u = .false ↔ t = .false ∧ u = .false := by
  cases t <;> cases u <;> simp [or]

theorem and_ne_unknown (ht : t ≠ .unknown) (hu : u ≠ .unknown) : t.and u ≠ .unknown := by
  cases t <;> cases u <;> simp_all [and]

theorem or_ne_unknown (ht : t ≠ .unknown) (hu : u ≠ .unknown) : t.or u ≠ .unknown := by
  cases t <;> cases u <;> simp_all [or]

end Truth

end BatchPlan
