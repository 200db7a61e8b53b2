import BatchPlan.Text.Lowercase

namespace BatchPlan.Text

variable {a b : String}

/-- What holds of a small letter for each capital one does not depend on the case of ASCII
letters. -/
theorem toLower_congr {α : Type} {f : Char → α}
    (h : ∀ n : Fin 26, f (Char.ofNat (65 + n)).toLower = f (Char.ofNat (65 + n))) (c : Char) :
    f c.toLower = f c := by
  by_cases hc : 65 ≤ c.toNat ∧ c.toNat ≤ 90
  · have hletter := h ⟨c.toNat - 65, by omega⟩
    rwa [show 65 + (c.toNat - 65) = c.toNat by omega, Char.ofNat_toNat] at hletter
  · have hsame : c.toLower = c := by
      unfold Char.toLower
      exact dif_neg hc
    rw [hsame]

/-- What the tables say of letters: small and capital ones are treated alike. -/
theorem letter_tables (n : Fin 26) :
    (Char.ofNat (65 + n)).toNat = 65 + n ∧ (Char.ofNat (65 + n)).toLower.toNat = 97 + n ∧
      isCased (Char.ofNat (65 + n)).toLower = isCased (Char.ofNat (65 + n)) ∧
      isCaseIgnorable (Char.ofNat (65 + n)).toLower = isCaseIgnorable (Char.ofNat (65 + n)) ∧
      lowerChar (Char.ofNat (65 + n)).toLower = lowerChar (Char.ofNat (65 + n)) := by
  decide +kernel +revert

theorem isCased_toLower (c : Char) : isCased c.toLower = isCased c :=
  toLower_congr (fun n => (letter_tables n).2.2.1) c

theorem isCaseIgnorable_toLower (c : Char) : isCaseIgnorable c.toLower = isCaseIgnorable c :=
  toLower_congr (fun n => (letter_tables n).2.2.2.1) c

theorem lowerChar_toLower (c : Char) : lowerChar c.toLower = lowerChar c :=
  toLower_congr (fun n => (letter_tables n).2.2.2.2) c

theorem isSigma_toLower (c : Char) : (c.toLower.toNat = 0x3a3) = (c.toNat = 0x3a3) := by
  refine toLower_congr (f := fun c => c.toNat = 0x3a3) (fun n => propext ?_) c
  obtain ⟨hcapital, hsmall, -⟩ := letter_tables n
  omega

theorem continuesWord_map_toLower (cs : List Char) :
    continuesWord (cs.map Char.toLower) = continuesWord cs := by
  unfold continuesWord
  rw [List.dropWhile_map]
  simp only [Function.comp_def, isCaseIgnorable_toLower]
  cases cs.dropWhile isCaseIgnorable with
  | nil => rfl
  | cons c rest => exact isCased_toLower c

theorem lowerFrom_map_toLower (passed cs : List Char) :
    lowerFrom (passed.map Char.toLower) (cs.map Char.toLower) = lowerFrom passed cs := by
  induction cs generalizing passed with
  | nil => rfl
  | cons c rest ih =>
    have hrest := ih (c :: passed)
    rw [List.map_cons] at hrest
    simp only [List.map_cons, lowerFrom, hrest, isSigma_toLower, lowerChar_toLower,
      continuesWord_map_toLower]

theorem lower_map_toLower (s : String) : lower (s.map Char.toLower) = lower s := by
  rw [lower, String.toList_map, ← List.map_nil (f := Char.toLower), lowerFrom_map_toLower, lower]

theorem lower_eq_of_sameAscii (h : sameAscii a b) : lower a = lower b := by
  rw [← lower_map_toLower a, ← lower_map_toLower b, eq_of_beq h]

theorem sameAscii_iff : sameAscii a b ↔ a.toList.map Char.toLower = b.toList.map Char.toLower := by
  rw [sameAscii, beq_iff_eq, ← String.toList_inj, String.toList_map, String.toList_map]

theorem sameAscii_append {c d : String} (h : sameAscii a b) (h' : sameAscii c d) :
    sameAscii (a ++ c) (b ++ d) := by
  rw [sameAscii_iff] at h h' ⊢
  simp [h, h']

theorem sameAscii_refl (a : String) : sameAscii a a :=
  beq_self_eq_true _

theorem drop_lowerFrom_append (passed cs ds : List Char) :
    (lowerFrom passed (cs ++ ds)).drop (lowerFrom passed cs).length =
      lowerFrom (cs.reverse ++ passed) ds := by
  induction cs generalizing passed with
  | nil => rfl
  | cons c rest ih =>
    have hrest := ih (c :: passed)
    by_cases hc : c.toNat = 0x3a3 <;> simp [lowerFrom, hc, ← hrest, List.drop_append]

def plain (s : String) : Bool :=
  s.toList.all fun c => c.toNat != 0x3a3

theorem plain_iff {s : String} : plain s ↔ ∀ c ∈ s.toList, c.toNat ≠ 0x3a3 := by
  simp [plain]

theorem plain_of_sameAscii (h : sameAscii a b) (ha : plain a) : plain b := by
  rw [plain_iff] at ha ⊢
  intro c hc
  have hmem : c.toLower ∈ a.toList.map Char.toLower :=
    sameAscii_iff.1 h ▸ List.mem_map_of_mem hc
  obtain ⟨d, hd, hlower⟩ := List.mem_map.1 hmem
  rw [Ne, ← isSigma_toLower c, ← hlower, isSigma_toLower]
  exact ha d hd

theorem lowerFrom_of_plain {cs : List Char} (h : ∀ c ∈ cs, c.toNat ≠ 0x3a3) (passed : List Char) :
    lowerFrom passed cs = cs.flatMap lowerChar := by
  induction cs generalizing passed with
  | nil => rfl
  | cons c rest ih =>
    rw [List.forall_mem_cons] at h
    rw [lowerFrom, ih h.2, List.flatMap_cons]
    simp [h.1]

theorem toList_lower (s : String) : (lower s).toList = lowerFrom [] s.toList :=
  String.toList_ofList

theorem lower_eq_of_append {r : String} (ha : plain a) (hb : plain b)
    (h : lower (r ++ a) = lower (r ++ b)) : lower a = lower b := by
  rw [plain_iff] at ha hb
  have hlists := congrArg (fun s : String => s.toList.drop (lowerFrom [] r.toList).length) h
  simp only [toList_lower, String.toList_append, drop_lowerFrom_append, lowerFrom_of_plain ha,
    lowerFrom_of_plain hb] at hlists
  rw [lower, lower, lowerFrom_of_plain ha, lowerFrom_of_plain hb, hlists]

end BatchPlan.Text
