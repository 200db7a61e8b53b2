import BatchPlan.Catalog.Suggestion
import Mathlib.Order.Bounds.Basic

namespace BatchPlan.Suggestion

/-- One character is put in, taken out or replaced, at any place. -/
inductive Edit : List Char → List Char → Prop
  | insert (a b : List Char) (c : Char) : Edit (a ++ b) (a ++ c :: b)
  | delete (a b : List Char) (c : Char) : Edit (a ++ c :: b) (a ++ b)
  | replace (a b : List Char) (c d : Char) : Edit (a ++ c :: b) (a ++ d :: b)

/-- A number of edits, one after the other. -/
inductive Edited : Nat → List Char → List Char → Prop
  | refl (s : List Char) : Edited 0 s s
  | step {n : Nat} {s u t : List Char} (first : Edit s u) (rest : Edited n u t) : Edited (n + 1) s t

/-- The distance by recursion on the first characters. -/
def apart : List Char → List Char → Nat
  | [], [] => 0
  | [], d :: t => apart [] t + 1
  | _ :: s, [] => apart s [] + 1
  | c :: s, d :: t =>
    min (min (apart s (d :: t) + 1) (apart (c :: s) t + 1)) (apart s t + if c = d then 0 else 1)
termination_by s t => s.length + t.length

variable {n : Nat} {s t u : List Char}

theorem apart_cons_cons (c d : Char) (s t : List Char) : apart (c :: s) (d :: t) =
    min (min (apart s (d :: t) + 1) (apart (c :: s) t + 1))
      (apart s t + if c = d then 0 else 1) := by
  rw [apart]

theorem apart_nil_left (t : List Char) : apart [] t = t.length := by
  induction t with
  | nil => rw [apart, List.length_nil]
  | cons d t ih => rw [apart, ih, List.length_cons]

theorem apart_nil_right (s : List Char) : apart s [] = s.length := by
  induction s with
  | nil => rw [apart, List.length_nil]
  | cons c s ih => rw [apart, ih, List.length_cons]

theorem apart_self (s : List Char) : apart s s = 0 := by
  induction s with
  | nil => rw [apart]
  | cons c s ih => simp [apart_cons_cons, ih]

theorem Edit.cons (c : Char) (h : Edit s t) : Edit (c :: s) (c :: t) := by
  cases h with
  | insert a b d => exact .insert (c :: a) b d
  | delete a b d => exact .delete (c :: a) b d
  | replace a b d e => exact .replace (c :: a) b d e

theorem Edited.cons (c : Char) (h : Edited n s t) : Edited n (c :: s) (c :: t) := by
  induction h with
  | refl s => exact .refl _
  | step first _ ih => exact .step (first.cons c) ih

theorem edited_apart (s t : List Char) : Edited (apart s t) s t := by
  fun_induction apart s t with
  | case1 => exact .refl _
  | case2 d t ih => exact .step (.insert [] [] d) (ih.cons d)
  | case3 c s ih => exact .step (.delete [] s c) ih
  | case4 c s d t ihs iht ih =>
    have hs : Edited (apart s (d :: t) + 1) (c :: s) (d :: t) := .step (.delete [] s c) ihs
    have ht : Edited (apart (c :: s) t + 1) (c :: s) (d :: t) :=
      .step (.insert [] (c :: s) d) (iht.cons d)
    have hboth : Edited (apart s t + if c = d then 0 else 1) (c :: s) (d :: t) := by
      split
      case isTrue h => exact h ▸ ih.cons c
      case isFalse => exact .step (.replace [] s c d) (ih.cons d)
    grind

theorem apart_cons_right (s t : List Char) (d : Char) : apart s (d :: t) ≤ apart s t + 1 := by
  cases s with
  | nil => rw [apart]
  | cons c s => rw [apart_cons_cons]; omega

theorem apart_cons_left (s t : List Char) (c : Char) : apart (c :: s) t ≤ apart s t + 1 := by
  cases t with
  | nil => rw [apart]
  | cons d t => rw [apart_cons_cons]; omega

theorem apart_tail (s t : List Char) (c : Char) : apart s t ≤ apart (c :: s) t + 1 := by
  induction t with
  | nil => simp only [apart_nil_right, List.length_cons]; omega
  | cons d t ih => grind [apart_cons_cons c d s t, apart_cons_right s t d]

theorem apart_replace (s t : List Char) (c d : Char) : apart (c :: s) t ≤ apart (d :: s) t + 1 := by
  induction t with
  | nil => simp [apart_nil_right]
  | cons e t ih => grind [apart_cons_cons c e s t, apart_cons_cons d e s t]

theorem apart_cons (c : Char) (h : ∀ t, apart s t ≤ apart u t + 1) (t : List Char) :
    apart (c :: s) t ≤ apart (c :: u) t + 1 := by
  induction t with
  | nil => simpa [apart] using h []
  | cons e t ih => grind [apart_cons_cons c e s t, apart_cons_cons c e u t, h t, h (e :: t)]

theorem apart_append (a : List Char) (h : ∀ t, apart s t ≤ apart u t + 1) (t : List Char) :
    apart (a ++ s) t ≤ apart (a ++ u) t + 1 := by
  induction a generalizing t with
  | nil => exact h t
  | cons c a ih => exact apart_cons c ih t

theorem Edit.apart_le (h : Edit s u) (t : List Char) : apart s t ≤ apart u t + 1 := by
  cases h with
  | insert a b c => exact apart_append a (fun t => apart_tail b t c) t
  | delete a b c => exact apart_append a (fun t => apart_cons_left b t c) t
  | replace a b c d => exact apart_append a (fun t => apart_replace b t c d) t

theorem Edited.apart_le (h : Edited n s t) : apart s t ≤ n := by
  induction h with
  | refl s => exact (apart_self s).le
  | step first _ ih => exact (first.apart_le _).trans (Nat.succ_le_succ ih)

/-- The row of `u` from behind `v` on, both read backwards: the distances to `v` with more and more
of `t` in front. -/
def rowBehind (u v : List Char) : List Char → List Nat
  | [] => []
  | d :: t => apart u (d :: v) :: rowBehind u (d :: v) t

theorem nextRow_rowBehind (c : Char) (u v t : List Char) :
    nextRow c (apart u v) (apart (c :: u) v) t (rowBehind u v t) = rowBehind (c :: u) v t := by
  induction t generalizing v with
  | nil => rfl
  | cons d t ih =>
    rw [rowBehind, rowBehind, ← ih, nextRow, ← apart_cons_cons]

theorem rows_rowBehind (t u s : List Char) :
    rows t u.length (apart u [] :: rowBehind u [] t) s =
      apart (s.reverse ++ u) [] :: rowBehind (s.reverse ++ u) [] t := by
  induction s generalizing u with
  | nil => rfl
  | cons c s ih =>
    have hhead : u.length + 1 = apart (c :: u) [] := by rw [apart_nil_right, List.length_cons]
    rw [rows, List.headD_cons, List.tail_cons, hhead, nextRow_rowBehind]
    simpa [← hhead] using ih (c :: u)

theorem rowBehind_nil (v t : List Char) :
    rowBehind [] v t = List.range' (v.length + 1) t.length := by
  induction t generalizing v with
  | nil => rfl
  | cons d t ih => rw [rowBehind, ih, apart_nil_left]; rfl

theorem getLastD_rowBehind (u v t : List Char) (first : Nat) :
    (apart u v :: rowBehind u v t).getLastD first = apart u (t.reverse ++ v) := by
  induction t generalizing v first with
  | nil => rfl
  | cons d t ih =>
    rw [rowBehind, List.getLastD_cons, ih]
    simp

theorem distance_eq (s t : List Char) : distance s t = apart s.reverse t.reverse := by
  have hstart : List.range (t.length + 1) = apart [] [] :: rowBehind [] [] t := by
    rw [rowBehind_nil, apart_nil_left, List.range_eq_range']
    rfl
  have hrows := rows_rowBehind t [] s
  rw [distance, hstart]
  simp only [List.length_nil, List.append_nil] at hrows
  rw [hrows, getLastD_rowBehind, List.append_nil]

theorem Edit.reverse (h : Edit s t) : Edit s.reverse t.reverse := by
  cases h with
  | insert a b c => simpa using Edit.insert b.reverse a.reverse c
  | delete a b c => simpa using Edit.delete b.reverse a.reverse c
  | replace a b c d => simpa using Edit.replace b.reverse a.reverse c d

theorem Edited.reverse (h : Edited n s t) : Edited n s.reverse t.reverse := by
  induction h with
  | refl s => exact .refl _
  | step first _ ih => exact .step first.reverse ih

theorem distance_isLeast (s t : List Char) : IsLeast {n | Edited n s t} (distance s t) := by
  rw [distance_eq]
  constructor
  · simpa using (edited_apart s.reverse t.reverse).reverse
  · exact fun n h => h.reverse.apart_le

section

variable (target : List Char)

def away (candidate : String) : Nat :=
  distance target (Text.lower candidate).toList

/-- Nearer candidates stand first, and those of one distance in the order of names. -/
def Precedes (a b : String) : Prop :=
  away target a < away target b ∨ away target a = away target b ∧ a ≤ b

def ranks (a b : String) : Bool :=
  closer (away target a, a) (away target b, b)

variable {target}

theorem ranks_iff {a b : String} : ranks target a b ↔ Precedes target a b := by
  simp only [ranks, closer, Precedes, Bool.or_eq_true, Bool.and_eq_true, Bool.not_eq_true',
    decide_eq_true_eq, decide_eq_false_iff_not, beq_iff_eq, String.not_lt]

theorem Precedes.trans {a b c : String} (hab : Precedes target a b) (hbc : Precedes target b c) :
    Precedes target a c := by
  have htrans : a ≤ b → b ≤ c → a ≤ c := String.le_trans
  grind [Precedes]

theorem precedes_total (a b : String) : Precedes target a b ∨ Precedes target b a := by
  have htotal : a ≤ b ∨ b ≤ a := String.le_total a b
  grind [Precedes]

theorem pairwise_precedes (candidates : List String) :
    (candidates.mergeSort (ranks target)).Pairwise (Precedes target) := by
  refine (List.pairwise_mergeSort (fun a b c hab hbc => ?_) (fun a b => ?_) candidates).imp
    ranks_iff.1
  · exact ranks_iff.2 ((ranks_iff.1 hab).trans (ranks_iff.1 hbc))
  · rw [Bool.or_eq_true, ranks_iff, ranks_iff]
    exact precedes_total a b

theorem scored_eq (candidates : List String) :
    (candidates.filterMap fun c =>
      if away target c ≤ tolerance target then some (away target c, c) else none) =
    (candidates.filter fun c => away target c ≤ tolerance target).map fun c =>
    (away target c, c) := by
  induction candidates with
  | nil => rfl
  | cons c rest ih => by_cases h : away target c ≤ tolerance target <;> simp [h, ih]

end

theorem close_eq (name : String) (candidates : List String) :
    let target := (Text.lower name).toList
    close name candidates = ((candidates.filter fun c => away target c ≤ tolerance target).mergeSort
      (ranks target)).take 3 := by
  intro target
  change (((candidates.filterMap fun c => if away target c ≤ tolerance target then
    some (away target c, c) else none).mergeSort closer).take 3).map (·.2) = _
  have hsort (near : List String) : (near.map fun c => (away target c, c)).mergeSort closer =
      (near.mergeSort (ranks target)).map fun c => (away target c, c) := by
    rw [List.map_mergeSort]
    exact fun a _ b _ => rfl
  rw [scored_eq, hsort, ← List.map_take, List.map_map]
  exact List.map_id _

/-- The distance is that of a shortest way of edits. Suggestions are the first three of the
candidates within the tolerance, each as often as it is there, nearer ones first and then in the
order of names. -/
theorem closest_suggested :
    (∀ s t : List Char, IsLeast {n | Edited n s t} (distance s t)) ∧
    ∀ (name : String) (candidates : List String),
      let target := (Text.lower name).toList
      ∃ ranked : List String,
        ranked.Perm (candidates.filter fun c => away target c ≤ max 1 (min 3 (target.length / 3))) ∧
        ranked.Pairwise (Precedes target) ∧ close name candidates = ranked.take 3 := by
  refine ⟨distance_isLeast, fun name candidates => ?_⟩
  exact ⟨_, List.mergeSort_perm _ _, pairwise_precedes _, close_eq name candidates⟩

end BatchPlan.Suggestion
