import BatchPlan.Binding.Scalar
import BatchPlan.Proofs.Meaning.Fields
import Mathlib.Order.Defs.Unbundled

namespace BatchPlan

theorem columns_asc (columns : List Column) :
    (columns.map (SortKey.mk · .asc)).map (·.column) = columns := by
  rw [List.map_map]
  exact List.map_id columns

structure ValueOrder where
  le : Value → Value → Bool
  total : ∀ v w, le v w ∨ le w v
  trans : ∀ {u v w}, le u v → le v w → le u w

namespace ValueOrder

variable (o : ValueOrder) (s : Schema)

def keyLe (key : SortKey) (row other : Row) : Bool :=
  match key.direction with
  | .asc => o.le (s.read row key.column) (s.read other key.column)
  | .desc => o.le (s.read other key.column) (s.read row key.column)

/-- Does a row come no later than another in the order of some keys? -/
def rowLe : List SortKey → Row → Row → Bool
  | [], _, _ => true
  | key :: rest, row, other =>
    o.keyLe s key row other && (!o.keyLe s key other row || rowLe rest row other)

def agree (columns : List Column) (row other : Row) : Bool :=
  columns.all fun c => o.le (s.read row c) (s.read other c) && o.le (s.read other c) (s.read row c)

variable {o s} {key : SortKey} {keys more : List SortKey} {a b c : Row}

theorem keyLe_total (key : SortKey) (a b : Row) : o.keyLe s key a b ∨ o.keyLe s key b a := by
  unfold keyLe
  cases key.direction
  · exact o.total _ _
  · exact o.total _ _

theorem keyLe_trans (hab : o.keyLe s key a b) (hbc : o.keyLe s key b c) : o.keyLe s key a c := by
  unfold keyLe at *
  cases hd : key.direction <;> simp only [hd] at hab hbc ⊢
  · exact o.trans hab hbc
  · exact o.trans hbc hab

theorem rowLe_total (keys : List SortKey) (a b : Row) :
    o.rowLe s keys a b ∨ o.rowLe s keys b a := by
  induction keys with
  | nil => exact .inl rfl
  | cons key rest ih =>
    have hkey := o.keyLe_total (s := s) key a b
    simp only [rowLe, Bool.and_eq_true, Bool.or_eq_true, Bool.not_eq_true']
    grind

theorem rowLe_trans (hab : o.rowLe s keys a b) (hbc : o.rowLe s keys b c) : o.rowLe s keys a c := by
  induction keys with
  | nil => rfl
  | cons key rest ih =>
    simp only [rowLe, Bool.and_eq_true, Bool.or_eq_true, Bool.not_eq_true'] at hab hbc ⊢
    refine ⟨keyLe_trans hab.1 hbc.1, or_iff_not_imp_left.2 fun hca => ?_⟩
    rw [Bool.not_eq_false] at hca
    -- all three rows are equal in this key
    have hba := hab.2.resolve_left (by simp [keyLe_trans hbc.1 hca])
    have hcb := hbc.2.resolve_left (by simp [keyLe_trans hca hab.1])
    exact ih hba hcb

instance : Std.Total (o.rowLe s keys · · : Row → Row → Prop) :=
  ⟨rowLe_total keys⟩

instance : IsTrans Row (o.rowLe s keys · ·) :=
  ⟨fun _ _ _ => rowLe_trans⟩

theorem rowLe_append : o.rowLe s (keys ++ more) a b =
    (o.rowLe s keys a b && (!o.rowLe s keys b a || o.rowLe s more a b)) := by
  induction keys with
  | nil => simp [rowLe]
  | cons key rest ih =>
    simp only [List.cons_append, rowLe, ih]
    have hkey := o.keyLe_total (s := s) key a b
    grind

theorem agree_columns : o.agree s (keys.map (·.column)) a b =
    (o.rowLe s keys a b && o.rowLe s keys b a) := by
  induction keys with
  | nil => rfl
  | cons key rest ih =>
    simp only [agree] at ih
    simp only [agree, List.map_cons, List.all_cons, ih, rowLe, keyLe]
    cases key.direction <;> grind

theorem agree_symm {columns : List Column} : o.agree s columns a b = o.agree s columns b a := by
  simp only [agree, Bool.and_comm]

/-- Between two equal rows all rows are equal to them. -/
theorem agree_of_between (hab : o.rowLe s keys a b) (hbc : o.rowLe s keys b c)
    (hac : o.agree s (keys.map (·.column)) a c) : o.agree s (keys.map (·.column)) b c := by
  rw [agree_columns, Bool.and_eq_true] at hac ⊢
  exact ⟨hbc, rowLe_trans hac.2 hab⟩

theorem rowLe_congr_left (h : o.agree s (keys.map (·.column)) a b) :
    o.rowLe s keys a c = o.rowLe s keys b c := by
  rw [agree_columns, Bool.and_eq_true] at h
  exact Bool.eq_iff_iff.2 ⟨fun hac => rowLe_trans h.2 hac, fun hbc => rowLe_trans h.1 hbc⟩

theorem rowLe_congr_right (h : o.agree s (keys.map (·.column)) a b) :
    o.rowLe s keys c a = o.rowLe s keys c b := by
  rw [agree_columns, Bool.and_eq_true] at h
  exact Bool.eq_iff_iff.2 ⟨fun hca => rowLe_trans hca h.1, fun hcb => rowLe_trans hcb h.2⟩

theorem rowLe_of_zip {held : List SortKey} (hlength : keys.length ≤ held.length)
    (h : (keys.zip held).all fun (wanted, held) =>
      wanted.direction == held.direction && s.sameField wanted.column held.column)
    (hab : o.rowLe s held a b) : o.rowLe s keys a b := by
  induction keys generalizing held with
  | nil => rfl
  | cons key rest ih =>
    obtain - | ⟨first, held⟩ := held
    · simp at hlength
    · simp only [List.zip_cons_cons, List.all_cons, Bool.and_eq_true, beq_iff_eq] at h
      obtain ⟨⟨hdirection, hfield⟩, hrest⟩ := h
      have hread (row : Row) : s.read row key.column = s.read row first.column := by
        unfold Schema.sameField at hfield
        unfold Schema.read
        split at hfield <;> simp_all
      have hkey (row other : Row) : o.keyLe s key row other = o.keyLe s first row other := by
        simp only [keyLe, hdirection, hread]
      simp only [rowLe, Bool.and_eq_true, Bool.or_eq_true, hkey] at hab ⊢
      exact ⟨hab.1, hab.2.imp_right (ih (by simpa using hlength) hrest)⟩

/-- What an order is known to begin with holds of its rows. -/
theorem rowLe_of_isSortedBy (h : s.isSortedBy keys) (hab : o.rowLe s s.sortOrder a b) :
    o.rowLe s keys a b := by
  simp only [Schema.isSortedBy, Bool.and_eq_true, decide_eq_true_eq] at h
  exact rowLe_of_zip h.1 h.2 hab

end ValueOrder

end BatchPlan
