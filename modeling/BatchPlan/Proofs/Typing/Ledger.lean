import BatchPlan.Proofs.Binding.Levels
import BatchPlan.Proofs.Binding.Operands
import Mathlib.Order.Defs.PartialOrder

namespace BatchPlan

variable {t : DataType} {c : Column}

def segmentName (n : Nat) : String :=
  "Segment" ++ toString n

theorem lower_segmentName (n : Nat) : Text.lower (segmentName n) = "segment" ++ toString n :=
  lower_numbered (by simp) n

theorem lower_segmentName_inj {m n : Nat} :
    Text.lower (segmentName m) = Text.lower (segmentName n) ↔ m = n := by
  refine ⟨fun h => toDigits_injective ?_, fun h => h ▸ rfl⟩
  rw [lower_segmentName, lower_segmentName] at h
  simpa [toList_toString] using congrArg String.toList h

theorem lower_exprName_ne_segmentName (m n : Nat) :
    Text.lower (exprName m) ≠ Text.lower (segmentName n) := by
  intro h
  rw [lower_exprName, lower_segmentName] at h
  simpa using congrArg String.toList h

/-- What was given out so far: a name for each number, with a type where it is a parameter, and a
number of marks. -/
structure Ledger where
  exprs : List (Option DataType)
  segments : Nat

namespace Ledger

variable {name param : String}

instance : Preorder Ledger where
  le w w' := w.exprs <+: w'.exprs ∧ w.segments ≤ w'.segments
  le_refl w := ⟨List.prefix_refl _, Nat.le_refl _⟩
  le_trans _ _ _ h h' := ⟨h.1.trans h'.1, Nat.le_trans h.2 h'.2⟩

/-- A parameter was given out for values of a type. -/
def Types (w : Ledger) (param : String) (t : DataType) : Prop :=
  ∃ n, param = "@" ++ exprName (n + 1) ∧ w.exprs[n]? = some (some t)

def Coined (w : Ledger) (name : String) : Prop :=
  (∃ n < w.exprs.length, name = exprName (n + 1)) ∨ ∃ n < w.segments, name = segmentName (n + 1)

/-- A column that names its source, or whose name was given out. -/
def Gives (w : Ledger) (c : Column) : Prop :=
  c.relation = none → w.Coined c.name

variable {w w' : Ledger}

theorem Types.mono (h : w.Types param t) (hw : w ≤ w') : w'.Types param t := by
  obtain ⟨n, hparam, hn⟩ := h
  obtain ⟨more, hmore⟩ := hw.1
  have hlt := (List.getElem?_eq_some_iff.1 hn).1
  exact ⟨n, hparam, by rwa [← hmore, List.getElem?_append_left hlt]⟩

theorem Coined.mono (h : w.Coined name) (hw : w ≤ w') : w'.Coined name :=
  h.imp (fun ⟨n, hn, hname⟩ => ⟨n, Nat.lt_of_lt_of_le hn hw.1.length_le, hname⟩)
    fun ⟨n, hn, hname⟩ => ⟨n, Nat.lt_of_lt_of_le hn hw.2, hname⟩

theorem Gives.mono (h : w.Gives c) (hw : w ≤ w') : w'.Gives c :=
  fun hc => (h hc).mono hw

theorem Types.unique {t' : DataType} (h : w.Types param t) (h' : w.Types param t') : t = t' := by
  obtain ⟨n, rfl, hn⟩ := h
  obtain ⟨m, hm, hn'⟩ := h'
  have hname : exprName (n + 1) = exprName (m + 1) := by
    have := congrArg String.toList hm
    rw [String.toList_append, String.toList_append, List.append_cancel_left_eq] at this
    exact String.toList_inj.1 this
  have hnm := lower_exprName_inj.1 (congrArg Text.lower hname)
  obtain rfl : n = m := by omega
  rw [hn] at hn'
  simpa using hn'

theorem gives_qualified (relation name : String) : w.Gives (.qualified relation name) :=
  nofun

theorem Coined.gives (h : w.Coined name) : w.Gives (.bare name) :=
  fun _ => h

def add (w : Ledger) (type : Option DataType) : Ledger :=
  { w with exprs := w.exprs ++ [type] }

def addSegment (w : Ledger) : Ledger :=
  { w with segments := w.segments + 1 }

theorem le_add (w : Ledger) (type : Option DataType) : w ≤ w.add type :=
  ⟨List.prefix_append _ _, Nat.le_refl _⟩

theorem le_addSegment (w : Ledger) : w ≤ w.addSegment :=
  ⟨List.prefix_refl _, Nat.le_succ _⟩

def Lacks (w : Ledger) (name : String) : Prop :=
  ∀ old, w.Coined old → Text.lower old ≠ Text.lower name

theorem Lacks.anti (h : w'.Lacks name) (hw : w ≤ w') : w.Lacks name :=
  fun old hold => h old (hold.mono hw)

theorem lacks_exprName (w : Ledger) : w.Lacks (exprName (w.exprs.length + 1)) := by
  rintro old (⟨n, hn, rfl⟩ | ⟨n, hn, rfl⟩)
  · rw [Ne, lower_exprName_inj]
    omega
  · exact (lower_exprName_ne_segmentName _ _).symm

theorem lacks_segmentName (w : Ledger) : w.Lacks (segmentName (w.segments + 1)) := by
  rintro old (⟨n, hn, rfl⟩ | ⟨n, hn, rfl⟩)
  · exact lower_exprName_ne_segmentName _ _
  · rw [Ne, lower_segmentName_inj]
    omega

/-- A part of an expression that reads nothing, or something that was given out. -/
def Admits (w : Ledger) : Scalar → Prop
  | .column c => w.Gives c
  | .outer param t => w.Types param t
  | _ => True

end Ledger

/-- All that an expression reads is in the ledger. -/
def Scalar.Logged (w : Ledger) (e : Scalar) : Prop :=
  ∀ part ∈ e.parts, w.Admits part

namespace Scalar

variable {w w' : Ledger}
variable {e : Scalar}

theorem Logged.mono (h : e.Logged w) (hw : w ≤ w') : e.Logged w' := by
  intro part hpart
  have hadmits := h part hpart
  cases part with
  | column c => exact hadmits.mono hw
  | outer param t => exact Ledger.Types.mono hadmits hw
  | _ => trivial

@[simp]
theorem logged_column : (column c).Logged w ↔ w.Gives c := by
  simp [Logged, parts, Ledger.Admits]

@[simp]
theorem logged_literal (v : Value) : (literal v).Logged w := by
  simp [Logged, parts, Ledger.Admits]

@[simp]
theorem logged_var (name : String) (t : DataType) : (var name t).Logged w := by
  simp [Logged, parts, Ledger.Admits]

@[simp]
theorem logged_outer {param : String} : (outer param t).Logged w ↔ w.Types param t := by
  simp [Logged, parts, Ledger.Admits]

@[simp]
theorem logged_binary {l : Scalar} {op : BinaryOp} {r : Scalar} :
    (binary l op r).Logged w ↔ l.Logged w ∧ r.Logged w := by
  simp only [Logged, parts, List.forall_mem_cons, List.forall_mem_append, Ledger.Admits, true_and]

theorem logged_of_madeOf {values : List Scalar} (h : e.MadeOf values)
    (hvalues : ∀ v ∈ values, v.Logged w) : e.Logged w := by
  intro part hpart
  by_cases hleaf : part.isLeaf
  · obtain ⟨value, hvalue, hpart⟩ := h part hpart hleaf
    exact hvalues value hvalue part hpart
  · cases part <;> trivial

theorem Logged.operand {d : Scalar} (h : e.Logged w) (hd : d ∈ e.operands) : d.Logged w := by
  intro part hpart
  rw [Logged, parts_eq] at h
  exact h part (List.mem_cons_of_mem _ (List.mem_flatMap.2 ⟨d, hd, hpart⟩))

end Scalar

end BatchPlan
