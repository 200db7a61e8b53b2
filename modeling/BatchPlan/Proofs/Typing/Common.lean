import BatchPlan.DataType
import Mathlib.Data.List.Perm.Basic

namespace BatchPlan.DataType

variable {a b t u : DataType} {ts us : List DataType} {f : TypeFamily}

def commonAll (ts : List DataType) : Result DataType :=
  ts.foldlM common .null

/-- How wide a number is, for integers from 32 bits on. -/
inductive Width where
  | int32
  | int64
  | decimal (precision : UInt8) (scale : Int8)
  | float64

namespace Width

def join : Width → Width → Width
  | .float64, _ | _, .float64 => .float64
  | .decimal p s, .decimal p' s' => .decimal (max p p') (max s s')
  | .decimal p s, _ | _, .decimal p s => .decimal p s
  | .int64, _ | _, .int64 => .int64
  | .int32, .int32 => .int32

def type : Width → DataType
  | .int32 => .int32
  | .int64 => .int64
  | .decimal p s => .decimal128 p s
  | .float64 => .float64

theorem max_precision (p q : UInt8) : max p q = if p ≤ q then q else p := rfl

theorem max_scale (s r : Int8) : max s r = if s ≤ r then r else s := rfl

instance : Std.Commutative join where
  comm v w := by
    cases v with
    | decimal p s =>
      cases w with
      | decimal q r => grind [join, max_precision, max_scale]
      | _ => rfl
    | _ => cases w <;> rfl

instance : Std.Associative join where
  assoc v w x := by
    cases v <;> cases w <;> cases x <;> first | rfl | grind [join, max_precision, max_scale]

theorem int32_join (w : Width) : join .int32 w = w := by
  cases w <;> rfl

end Width

def width : DataType → Width
  | .float32 | .float64 => .float64
  | .decimal128 p s => .decimal p s
  | .int64 => .int64
  | _ => .int32

/-- The numbers from 32 bits on. -/
def isWide : DataType → Bool
  | .int32 | .int64 | .decimal128 .. | .float32 | .float64 => true
  | _ => false

/-- The integers that are neither wide nor of 16 bits with a sign. -/
def isSmall : DataType → Bool
  | .int8 | .uint8 | .uint16 | .uint32 | .uint64 => true
  | _ => false

theorem width_widen (a b : DataType) : (widen a b).width = a.width.join b.width := by
  cases a <;> cases b <;> rfl

theorem type_width_widen (h : a.isWide ∨ b.isWide) : (widen a b).width.type = widen a b := by
  cases a <;> cases b <;> first | rfl | (rcases h with h | h <;> cases h)

theorem isWide_of_type_width (h : t.width.type = t) : t.isWide := by
  cases t <;> first | rfl | cases h

theorem eq_of_narrow (hnumeric : t.family = .numeric) (hwide : t.isWide = false) :
    t = .int16 ∨ t.isSmall := by
  cases t with
  | fixedSizeBinary size =>
    dsimp only [family] at hnumeric
    split at hnumeric <;> cases hnumeric
  | _ => first | exact .inl rfl | exact .inr rfl | (cases hwide; done) | cases hnumeric

theorem widen_small (ha : a.isSmall ∨ a = .int32) (hb : b.isSmall) : widen a b = .int32 := by
  cases a <;> cases b <;> first | rfl | (cases hb; done) | (rcases ha with ha | ha <;> cases ha)

theorem widen_int16 (hb : b.isSmall ∨ b = .int16) :
    widen .int16 b = .int16 ∧ widen b .int16 = .int16 := by
  cases b <;> first | exact ⟨rfl, rfl⟩ | (rcases hb with hb | hb <;> cases hb)

theorem width_foldl (a : DataType) (ts : List DataType) :
    (ts.foldl widen a).width = (ts.map width).foldl Width.join a.width := by
  induction ts generalizing a with
  | nil => rfl
  | cons t rest ih => rw [List.foldl_cons, ih, width_widen, List.map_cons, List.foldl_cons]

theorem foldl_int16 (h : ∀ t ∈ ts, t.isSmall ∨ t = .int16) : ts.foldl widen .int16 = .int16 := by
  induction ts with
  | nil => rfl
  | cons t rest ih =>
    rw [List.forall_mem_cons] at h
    rw [List.foldl_cons, (widen_int16 h.1).1, ih h.2]

theorem foldl_int32 (h : ∀ t ∈ ts, t.isSmall) : ts.foldl widen .int32 = .int32 := by
  induction ts with
  | nil => rfl
  | cons t rest ih =>
    rw [List.forall_mem_cons] at h
    rw [List.foldl_cons, widen_small (.inr rfl) h.1, ih h.2]

/-- Once a wide number has been met, the type is told by its width. -/
theorem type_width_foldl (a : DataType) (hts : ts ≠ []) (h : a.isWide ∨ ∃ t ∈ ts, t.isWide) :
    (ts.foldl widen a).width.type = ts.foldl widen a := by
  induction ts generalizing a with
  | nil => exact absurd rfl hts
  | cons t rest ih =>
    simp only [List.mem_cons, exists_eq_or_imp] at h
    rw [List.foldl_cons]
    by_cases hfirst : a.isWide ∨ t.isWide
    · have hnormal := type_width_widen hfirst
      by_cases hrest : rest = []
      · rw [hrest]
        exact hnormal
      · exact ih _ hrest (.inl (isWide_of_type_width hnormal))
    · obtain ⟨hrest, hwide⟩ : rest ≠ [] ∧ ∃ u ∈ rest, u.isWide := by
        rcases h with h | h | ⟨u, hu, hwide⟩
        · exact absurd (.inl h) hfirst
        · exact absurd (.inr h) hfirst
        · exact ⟨List.ne_nil_of_mem hu, u, hu, hwide⟩
      exact ih _ hrest (.inr hwide)

/-- The widest of some numbers. -/
def widest? : List DataType → Option DataType
  | [] => none
  | t :: ts => some (ts.foldl widen t)

/-- Small integers and those of 16 bits do not depend on their order here. -/
def Steady (ts : List DataType) : Prop :=
  .int16 ∈ ts → ts.countP isSmall ≤ 1 ∨ ∃ t ∈ ts, t.isWide

theorem widest?_wide (hlength : 2 ≤ ts.length) (h : ∃ t ∈ ts, t.isWide) :
    widest? ts = some ((ts.map width).foldl Width.join .int32).type := by
  cases ts with
  | nil => cases hlength
  | cons t rest =>
    have hrest : rest ≠ [] := by
      rintro rfl
      exact absurd hlength (by simp)
    simp only [List.mem_cons, exists_eq_or_imp] at h
    rw [widest?, List.map_cons, List.foldl_cons, Width.int32_join, ← width_foldl,
      type_width_foldl t hrest h]

theorem widest?_int16 (hnarrow : ∀ t ∈ ts, t = .int16 ∨ t.isSmall) (hmem : .int16 ∈ ts)
    (hcount : ts.countP isSmall ≤ 1) : widest? ts = some .int16 := by
  cases ts with
  | nil => cases hmem
  | cons t rest =>
    rw [List.forall_mem_cons] at hnarrow
    rw [widest?]
    rcases hnarrow.1 with rfl | hsmall
    · rw [foldl_int16 fun u hu => (hnarrow.2 u hu).symm]
    · -- the rest has no small integer any more
      rw [List.countP_cons_of_pos hsmall, Nat.add_le_add_iff_right, Nat.le_zero,
        List.countP_eq_zero] at hcount
      have hrest (u : DataType) (hu : u ∈ rest) : u = .int16 :=
        (hnarrow.2 u hu).resolve_right (hcount u hu)
      cases rest with
      | nil =>
        rw [← List.mem_singleton.1 hmem] at hsmall
        cases hsmall
      | cons u rest =>
        rw [List.forall_mem_cons] at hrest
        rw [List.foldl_cons, hrest.1, (widen_int16 (.inl hsmall)).2,
          foldl_int16 fun v hv => .inr (hrest.2 v hv)]

theorem widest?_int32 (hlength : 2 ≤ ts.length) (hsmall : ∀ t ∈ ts, t.isSmall) :
    widest? ts = some .int32 := by
  rcases ts with _ | ⟨t, _ | ⟨u, rest⟩⟩
  · cases hlength
  · exact absurd hlength (by simp)
  · rw [List.forall_mem_cons, List.forall_mem_cons] at hsmall
    rw [widest?, List.foldl_cons, widen_small (.inl hsmall.1) hsmall.2.1, foldl_int32 hsmall.2.2]

theorem widest?_perm (hnumeric : ∀ t ∈ ts, t.family = .numeric) (hsteady : Steady ts)
    (h : ts.Perm us) : widest? ts = widest? us := by
  by_cases hlength : 2 ≤ ts.length
  · by_cases hwide : ∃ t ∈ ts, t.isWide
    · obtain ⟨t, ht, htwide⟩ := hwide
      rw [widest?_wide hlength ⟨t, ht, htwide⟩, widest?_wide (h.length_eq ▸ hlength)
        ⟨t, h.mem_iff.1 ht, htwide⟩, (h.map width).foldl_op_eq]
    · have hnarrow (t : DataType) (ht : t ∈ ts) : t = .int16 ∨ t.isSmall :=
        eq_of_narrow (hnumeric t ht) (Bool.eq_false_iff.2 fun htwide => hwide ⟨t, ht, htwide⟩)
      by_cases hmem : .int16 ∈ ts
      · have hcount := (hsteady hmem).resolve_right hwide
        rw [widest?_int16 hnarrow hmem hcount,
          widest?_int16 (fun t ht => hnarrow t (h.mem_iff.2 ht)) (h.mem_iff.1 hmem)
            (h.countP_eq _ ▸ hcount)]
      · have hsmall (t : DataType) (ht : t ∈ ts) : t.isSmall :=
          (hnarrow t ht).resolve_left fun heq => hmem (heq ▸ ht)
        rw [widest?_int32 hlength hsmall,
          widest?_int32 (h.length_eq ▸ hlength) fun t ht => hsmall t (h.mem_iff.2 ht)]
  · rcases ts with _ | ⟨t, _ | ⟨u, rest⟩⟩
    · rw [h.nil_eq]
    · rw [List.singleton_perm.1 h]
    · exact absurd (by simp) hlength

/-- A value of the first family may stand for one of the second. -/
def dominates : TypeFamily → TypeFamily → Bool
  | _, .null => true
  | .numeric, .string | .boolean, .string | .temporal, .string | .guid, .string => true
  | .boolean, .numeric | .temporal, .numeric => true
  | f, g => f == g

section

variable {f g h : TypeFamily}

theorem comparable_of_dominates (hg : dominates f g) (hh : dominates f h) :
    comparableFamilies g h := by
  cases f <;> cases g <;> cases hg <;> cases h <;> first | rfl | cases hh

theorem dominates_trans (hg : dominates f g) (hh : dominates g h) : dominates f h := by
  cases f <;> cases g <;> cases hg <;> cases h <;> first | rfl | cases hh

theorem dominates_antisymm (hg : dominates f g) (hf : dominates g f) : f = g := by
  cases f <;> cases g <;> cases hg <;> first | rfl | cases hf

theorem dominates_refl (f : TypeFamily) : dominates f f := by
  cases f <;> rfl

end

/-- Of two types that may meet, one stands for both, or they are numbers. -/
theorem meet_cases (hcomparable : comparableFamilies a.family t.family)
    (hapart : a.family = .string → t.family ≠ .other)
    (hapart' : t.family = .string → a.family ≠ .other) :
    a.family = .numeric ∧ t.family = .numeric ∧ meet a t = widen a t ∨
      meet a t = a ∧ dominates a.family t.family ∧ (a.family = .numeric → t.family ≠ .numeric) ∨
      meet a t = t ∧ dominates t.family a.family ∧ (a.family = .numeric → t.family ≠ .numeric) := by
  unfold meet
  cases ha : a.family <;> cases ht : t.family <;> simp_all [comparableFamilies, dominates]

theorem family_widen (a t : DataType) : (widen a t).family = .numeric := by
  cases a <;> cases t <;> rfl

/-- A family that the type of a list belongs to, if it has one. -/
def Leads (f : TypeFamily) (ts : List DataType) : Prop :=
  ∀ t ∈ ts, dominates f t.family

theorem Leads.concat (h : Leads f ts) (ht : dominates f t.family) : Leads f (ts ++ [t]) :=
  List.forall_mem_append.2 ⟨h, List.forall_mem_singleton.2 ht⟩

/-- A type that stands for all of a list: it is one of them, or the widest of the numbers among
them. -/
structure Represents (ts : List DataType) (a : DataType) : Prop where
  above : Leads a.family ts
  mem : a.family ≠ .numeric → a = .null ∨ a ∈ ts
  widest : a.family = .numeric → widest? (ts.filter isNumeric) = some a

theorem Represents.dominated (h : Represents ts a) (hf : Leads f ts) : dominates f a.family := by
  by_cases hnumeric : a.family = .numeric
  · obtain ⟨t, ht⟩ : ∃ t, t ∈ ts.filter isNumeric := by
      refine List.exists_mem_of_ne_nil _ fun hnil => ?_
      have hwidest := h.widest hnumeric
      rw [hnil] at hwidest
      cases hwidest
    obtain ⟨hmem, ht⟩ := List.mem_filter.1 ht
    rw [hnumeric, ← eq_of_beq ht]
    exact hf t hmem
  · rcases h.mem hnumeric with rfl | hmem
    · cases f <;> rfl
    · exact hf a hmem

theorem Represents.nil : Represents [] .null where
  above := nofun
  mem _ := .inl rfl
  widest := nofun

theorem widest?_append_singleton (ts : List DataType) (t : DataType) :
    widest? (ts ++ [t]) = some (((widest? ts).map (widen · t)).getD t) := by
  cases ts with
  | nil => rfl
  | cons u rest => simp [widest?]

theorem filter_append_numeric (ht : t.family = .numeric) :
    (ts ++ [t]).filter isNumeric = ts.filter isNumeric ++ [t] := by
  simp [isNumeric, ht]

theorem filter_append_other (ht : t.family ≠ .numeric) :
    (ts ++ [t]).filter isNumeric = ts.filter isNumeric := by
  simp [isNumeric, ht]

theorem Represents.step (h : Represents ts a) (hcomparable : comparableFamilies a.family t.family)
    (hapart : a.family = .string → t.family ≠ .other)
    (hapart' : t.family = .string → a.family ≠ .other) : Represents (ts ++ [t]) (meet a t) := by
  rcases meet_cases hcomparable hapart hapart' with ⟨ha, ht, hmeet⟩ | ⟨hmeet, hdominates, hone⟩ |
    ⟨hmeet, hdominates, hone⟩
  · rw [hmeet]
    refine ⟨?_, ?_, ?_⟩
    all_goals rw [family_widen]
    · exact (ha ▸ h.above).concat (ht ▸ dominates_refl _)
    · exact fun hne => absurd rfl hne
    · intro _
      rw [filter_append_numeric ht, widest?_append_singleton, h.widest ha]
      rfl
  · rw [hmeet]
    refine ⟨h.above.concat hdominates, fun hne => (h.mem hne).imp_right (List.mem_append_left _),
      fun ha => ?_⟩
    rw [filter_append_other (hone ha), h.widest ha]
  · rw [hmeet]
    have habove : Leads t.family ts := fun u hu => dominates_trans hdominates (h.above u hu)
    refine ⟨habove.concat (dominates_refl _), fun _ => .inr (by simp), fun ht => ?_⟩
    -- no number came before, since none is below a type that is not one
    have hnone : ts.filter isNumeric = [] := by
      rw [List.filter_eq_nil_iff]
      intro u hu hnumeric
      have habove := h.above u hu
      rw [eq_of_beq hnumeric] at habove
      rw [ht] at hdominates
      exact hone (dominates_antisymm habove hdominates) ht
    rw [filter_append_numeric ht, hnone]
    rfl

/-- Types whose order does not matter. -/
structure Settled (ts : List DataType) : Prop where
  alike : ∀ t ∈ ts, ∀ u ∈ ts, Leads t.family ts → t.family = u.family → t.family ≠ .numeric → t = u
  apart : ∀ t ∈ ts, ∀ u ∈ ts, t.family = .string → u.family ≠ .other
  steady : Leads .numeric ts → Steady ts

theorem common_eq (a t : DataType) :
    a.common t = if comparableFamilies a.family t.family then .ok (meet a t)
      else .error (clash a t) := by
  unfold common checkComparable
  split <;> rfl

/-- The type that is found represents the list, and one is found if any represents it. -/
theorem represents_foldlM (hapart : ∀ t ∈ us ++ ts, ∀ u ∈ us ++ ts, t.family = .string →
    u.family ≠ .other) (h : Represents us a) :
    (∀ b, ts.foldlM common a = .ok b → Represents (us ++ ts) b) ∧
      ∀ f, Leads f (us ++ ts) → ∃ b, ts.foldlM common a = .ok b := by
  induction ts generalizing us a with
  | nil =>
    rw [List.append_nil]
    exact ⟨fun b hb => Except.ok.inj hb ▸ h, fun _ _ => ⟨a, rfl⟩⟩
  | cons t rest ih =>
    have hmem : t ∈ us ++ t :: rest := by simp
    have hus (u : DataType) (hu : u ∈ us) : u ∈ us ++ t :: rest := List.mem_append_left _ hu
    have hstring (ha : a.family = .string) : t.family ≠ .other := by
      rcases h.mem (by simp [ha]) with rfl | hin
      · cases ha
      · exact hapart a (hus a hin) t hmem ha
    have hother (ht : t.family = .string) : a.family ≠ .other := by
      intro ha
      rcases h.mem (by simp [ha]) with rfl | hin
      · cases ha
      · exact hapart t hmem a (hus a hin) ht ha
    rw [List.foldlM_cons, common_eq]
    split
    next hcomparable =>
      have hlists : us ++ t :: rest = us ++ [t] ++ rest := by simp
      rw [hlists] at hapart ⊢
      exact ih hapart (h.step hcomparable hstring hother)
    next hclash =>
      refine ⟨fun b hb => (by cases hb), fun f hf => absurd ?_ hclash⟩
      exact comparable_of_dominates (h.dominated fun u hu => hf u (hus u hu)) (hf t hmem)

theorem eq_null (h : t.family = .null) : t = .null := by
  cases t with
  | null => rfl
  | fixedSizeBinary size =>
    dsimp only [family] at h
    split at h <;> cases h
  | _ => cases h

theorem Steady.numbers (h : Steady ts) : Steady (ts.filter isNumeric) := by
  intro hmem
  refine (h (List.mem_filter.1 hmem).1).imp (fun hcount => ?_) ?_
  · exact Nat.le_trans (List.Sublist.countP_le List.filter_sublist) hcount
  · rintro ⟨t, ht, hwide⟩
    refine ⟨t, List.mem_filter.2 ⟨ht, ?_⟩, hwide⟩
    cases t <;> first | rfl | cases hwide

theorem Represents.unique (hsettled : Settled ts) (hperm : ts.Perm us) (ha : Represents ts a)
    (hb : Represents us b) : a = b := by
  have hfamily : a.family = b.family :=
    dominates_antisymm (hb.dominated fun t ht => ha.above t (hperm.mem_iff.2 ht))
      (ha.dominated fun t ht => hb.above t (hperm.mem_iff.1 ht))
  by_cases hnumeric : a.family = .numeric
  · have hnumbers : ∀ t ∈ ts.filter isNumeric, t.family = .numeric :=
      fun t ht => eq_of_beq (List.mem_filter.1 ht).2
    have hwidest := widest?_perm hnumbers (hsettled.steady (hnumeric ▸ ha.above)).numbers
      (hperm.filter isNumeric)
    rw [ha.widest hnumeric, hb.widest (hfamily ▸ hnumeric)] at hwidest
    exact Option.some.inj hwidest
  · rcases ha.mem hnumeric with rfl | hamem
    · exact (eq_null hfamily.symm).symm
    · rcases hb.mem (hfamily ▸ hnumeric) with rfl | hbmem
      · exact eq_null hfamily
      · exact hsettled.alike a hamem b (hperm.mem_iff.2 hbmem) ha.above hfamily hnumeric

theorem exists_commonAll (hsettled : Settled ts) (hperm : ts.Perm us) (h : commonAll ts = .ok a) :
    commonAll us = .ok a := by
  have hapart : ∀ t ∈ us, ∀ u ∈ us, t.family = .string → u.family ≠ .other :=
    fun t ht u hu => hsettled.apart t (hperm.mem_iff.2 ht) u (hperm.mem_iff.2 hu)
  have ha := (represents_foldlM hsettled.apart .nil).1 a h
  have hus := represents_foldlM hapart .nil
  obtain ⟨b, hb⟩ := hus.2 a.family fun t ht => ha.above t (hperm.mem_iff.2 ht)
  rw [ha.unique hsettled hperm (hus.1 b hb)]
  exact hb

theorem Leads.perm (h : Leads f ts) (hperm : ts.Perm us) : Leads f us :=
  fun t ht => h t (hperm.mem_iff.2 ht)

theorem Settled.perm (h : Settled ts) (hperm : ts.Perm us) : Settled us where
  alike t ht u hu hleads := h.alike t (hperm.mem_iff.2 ht) u (hperm.mem_iff.2 hu)
    (hleads.perm hperm.symm)
  apart t ht u hu := h.apart t (hperm.mem_iff.2 ht) u (hperm.mem_iff.2 hu)
  steady hleads hmem := by
    refine (h.steady (hleads.perm hperm.symm) (hperm.mem_iff.2 hmem)).imp
      (fun hcount => hperm.countP_eq _ ▸ hcount) ?_
    rintro ⟨t, ht, hwide⟩
    exact ⟨t, hperm.mem_iff.1 ht, hwide⟩

/-- In every order there is no common type, or the same one. -/
theorem commonAll_perm (hsettled : Settled ts) (hperm : ts.Perm us) :
    (commonAll ts).toOption = (commonAll us).toOption := by
  cases hts : commonAll ts with
  | ok a => rw [exists_commonAll hsettled hperm hts]
  | error e =>
    cases hus : commonAll us with
    | error e' => rfl
    | ok a =>
      rw [exists_commonAll (hsettled.perm hperm) hperm.symm hus] at hts
      cases hts

theorem commonAll_mixed_numbers :
    Settled [.uint8, .decimal128 10 2, .utf8, .int16, .uint8] ∧
      [uint8, decimal128 10 2, utf8, int16, uint8].Perm
        [utf8, uint8, uint8, int16, decimal128 10 2] ∧
      (commonAll [.uint8, .decimal128 10 2, .utf8, .int16, .uint8]).toOption =
        (commonAll [.utf8, .uint8, .uint8, .int16, .decimal128 10 2]).toOption := by
  have hsettled : Settled [.uint8, .decimal128 10 2, .utf8, .int16, .uint8] := by
    have halike : ∀ t ∈ [uint8, decimal128 10 2, utf8, int16, uint8],
        ∀ u ∈ [uint8, decimal128 10 2, utf8, int16, uint8], t.family = u.family →
          t.family ≠ .numeric → t = u := by
      decide
    exact ⟨fun t ht u hu _ => halike t ht u hu, by
      decide, fun _ _ => .inr ⟨.decimal128 10 2, by decide⟩⟩
  have hperm : [uint8, decimal128 10 2, utf8, int16, uint8].Perm
      [utf8, uint8, uint8, int16, decimal128 10 2] := by
    decide
  exact ⟨hsettled, hperm, commonAll_perm hsettled hperm⟩

/-- Two small integers and one of 16 bits, and two kinds of times, have another type in another
order. -/
theorem commonAll_depends_on_order :
    (commonAll [.uint8, .uint8, .int16]).toOption = some .int32 ∧
      (commonAll [.uint8, .int16, .uint8]).toOption = some .int16 ∧
      (commonAll [.date32, .timestamp]).toOption = some .date32 ∧
      (commonAll [.timestamp, .date32]).toOption = some .timestamp := by
  decide

end BatchPlan.DataType
