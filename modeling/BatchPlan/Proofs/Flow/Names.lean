import BatchPlan.Proofs.Flow.Layout
import BatchPlan.Proofs.Flow.Reading
import BatchPlan.Proofs.Meaning.Fields

namespace BatchPlan

namespace Text

variable {x c : Char} {s : String}

/-- A character up to the dot, which is no letter of any alphabet. -/
def IsSign (x : Char) : Prop :=
  0 < x.toNat ∧ x.toNat ≤ 0x2e

theorem IsSign.ne_ofNat (hx : IsSign x) {n : Nat} (h : 0x2e < n) : x ≠ Char.ofNat n := by
  rintro rfl
  obtain ⟨hpos, hle⟩ := hx
  by_cases hvalid : n.isValidChar
  · rw [Char.ofNat, dif_pos hvalid] at hle
    change n ≤ 0x2e at hle
    omega
  · rw [Char.ofNat, dif_neg hvalid] at hpos
    exact absurd hpos (Nat.lt_irrefl 0)

theorem dot_lt_lowercaseRuns : ∀ r ∈ lowercaseRuns, 0x2e < (r.1 : Int) + r.2.2.2 := by
  decide +kernel

theorem IsSign.eq_of_mem_lowerChar (hx : IsSign x) (h : x ∈ lowerChar c) : c = x := by
  unfold lowerChar at h
  dsimp only at h
  split at h
  next =>
    rw [List.mem_singleton] at h
    unfold Char.toLower at h
    split at h
    next hupper =>
      have hval : x.val ≤ 0x2e := UInt32.le_iff_toNat_le.2 hx.2
      rw [h] at hval
      dsimp only at hval
      grind
    next => exact h.symm
  next =>
    split at h
    next =>
      rcases List.mem_cons.1 h with rfl | h
      · exact absurd hx.2 (by decide)
      · exact absurd (List.mem_singleton.1 h) (hx.ne_ofNat (by decide))
    next =>
      split at h
      next r hr =>
        have hdot := dot_lt_lowercaseRuns r (Array.mem_of_find?_eq_some hr)
        have hrun := Array.find?_some hr
        simp only [Bool.and_eq_true, decide_eq_true_eq] at hrun
        exact absurd (List.mem_singleton.1 h) (hx.ne_ofNat (by omega))
      next => exact (List.mem_singleton.1 h).symm

theorem exists_lowerFrom_cons (passed : List Char) (c : Char) (rest : List Char) :
    ∃ low, low ≠ [] ∧ (∀ x ∈ low, IsSign x → c = x) ∧
      lowerFrom passed (c :: rest) = low ++ lowerFrom (c :: passed) rest := by
  refine ⟨_, ?_, ?_, rfl⟩
  · split
    · simp
    · unfold lowerChar
      dsimp only
      repeat' split
      all_goals simp
  · intro x hx hsign
    split at hx
    · refine absurd (List.mem_singleton.1 hx) (hsign.ne_ofNat ?_)
      split <;> decide
    · exact hsign.eq_of_mem_lowerChar hx

theorem IsSign.mem_of_lowerFrom (hx : IsSign x) {cs passed : List Char}
    (h : x ∈ lowerFrom passed cs) : x ∈ cs := by
  induction cs generalizing passed with
  | nil => cases h
  | cons c rest ih =>
    obtain ⟨low, -, hlow, heq⟩ := exists_lowerFrom_cons passed c rest
    rw [heq, List.mem_append] at h
    rcases h with h | h
    · exact List.mem_cons.2 (.inl (hlow x h hx).symm)
    · exact List.mem_cons_of_mem c (ih h)

theorem dot_mem_of_lower (h : '.' ∈ (lower s).toList) : '.' ∈ s.toList := by
  rw [lower, String.toList_ofList] at h
  exact IsSign.mem_of_lowerFrom ⟨by decide, by decide⟩ h

theorem IsSign.head?_of_lower (hx : IsSign x) (h : (lower s).toList.head? = some x) :
    s.toList.head? = some x := by
  rw [lower, String.toList_ofList] at h
  cases hs : s.toList with
  | nil =>
    rw [hs] at h
    cases h
  | cons c rest =>
    obtain ⟨low, hlow, hsign, heq⟩ := exists_lowerFrom_cons [] c rest
    obtain ⟨first, others, rfl⟩ := List.exists_cons_of_ne_nil hlow
    rw [hs, heq] at h
    cases h
    exact congrArg some (hsign x (by simp) hx)

theorem head?_lower_of_sign {rest : List Char} (hs : s.toList = c :: rest)
    (hc : c = '#' ∨ c = '@') : (lower s).toList.head? = some c := by
  rw [lower, hs, String.toList_ofList]
  rcases hc with rfl | rfl <;> rfl

def isSmall (c : Char) : Bool :=
  c.toNat < 0x80 && c.toLower == c

theorem lower_of_small (h : s.toList.all isSmall) : lower s = s := by
  simp only [List.all_eq_true, isSmall, Bool.and_eq_true, decide_eq_true_eq, beq_iff_eq] at h
  rw [lower, lowerFrom_of_ascii fun c hc => (h c hc).1,
    List.map_congr_left (g := id) fun c hc => (h c hc).2, List.map_id, String.ofList_toList]

theorem isSmall_of_isDigit (h : c.isDigit) : isSmall c := by
  have hdigit : 48 ≤ c.val ∧ c.val ≤ 57 := by simpa [Char.isDigit] using h
  have hval : c.toNat ≤ 57 := UInt32.le_iff_toNat_le.1 hdigit.2
  have hlower : c.toLower = c := dif_neg (by grind)
  simp only [isSmall, hlower, Bool.and_eq_true, decide_eq_true_eq, beq_self_eq_true, and_true]
  omega

end Text

namespace Flow

def IsMade (name : String) : Prop :=
  ∃ before n after, name = before ++ toString (n : Nat) ++ after ∧ before ∈ ["if.", "while."] ∧
    after ∈ [".else", ".end", ".start"]

theorem isMade_else (n : Nat) : IsMade (elseLabel n) := ⟨"if.", n, ".else", rfl, by simp, by simp⟩

theorem isMade_end (n : Nat) : IsMade (endLabel n) := ⟨"if.", n, ".end", rfl, by simp, by simp⟩

theorem isMade_start (n : Nat) : IsMade (loopLabels n).start :=
  ⟨"while.", n, ".start", rfl, by simp, by simp⟩

theorem isMade_stop (n : Nat) : IsMade (loopLabels n).stop :=
  ⟨"while.", n, ".end", rfl, by simp, by simp⟩

theorem IsMade.lower {name : String} (h : IsMade name) : Text.lower name = name := by
  obtain ⟨before, n, after, rfl, hbefore, hafter⟩ := h
  have hsmall : ∀ part ∈ ["if.", "while.", ".else", ".end", ".start"],
      part.toList.all Text.isSmall := by
    decide
  have hdigits : (Nat.toDigits 10 n).all Text.isSmall := by
    rw [List.all_eq_true]
    exact fun c hc => Text.isSmall_of_isDigit (Nat.isDigit_of_mem_toDigits (by omega) (by omega) hc)
  apply Text.lower_of_small
  rw [String.toList_append, String.toList_append, toList_toString, List.all_append, List.all_append,
    hdigits, hsmall before (by grind), hsmall after (by grind)]
  rfl

/-- No word without quotes is the same as a label that was made, in lower case or not. -/
theorem IsMade.ne_lower {name word : String} (h : IsMade name) (hword : Sql.isBareSpelling word) :
    Text.lower word ≠ name := by
  rintro rfl
  obtain ⟨before, n, after, heq, hbefore, -⟩ := h
  have hparts : ∀ part ∈ ["if.", "while."],
      '.' ∈ part.toList ∧ part.toList.head?.isSome ∧ part.toList.head? ≠ some '#' ∧
        part.toList.head? ≠ some '@' := by
    decide
  obtain ⟨hdot, hfirst, hhash, hat⟩ := hparts before hbefore
  have hlist : (Text.lower word).toList = before.toList ++
      ((toString n).toList ++ after.toList) := by
    rw [heq, String.toList_append, String.toList_append, List.append_assoc]
  have hhead : (Text.lower word).toList.head? = before.toList.head? := by
    rw [hlist, List.head?_append, Option.or_of_isSome hfirst]
  unfold Sql.isBareSpelling at hword
  split at hword
  next rest hrest => exact hhash (hhead ▸ Text.head?_lower_of_sign hrest (.inl rfl))
  next rest hrest => exact hat (hhead ▸ Text.head?_lower_of_sign hrest (.inr rfl))
  next =>
    have hmem : '.' ∈ (Text.lower word).toList := hlist ▸ List.mem_append_left _ hdot
    simp [Text.dot_mem_of_lower hmem] at hword

end Flow

namespace Sql

variable {commands : List Command}

mutual

def Command.hasBareLabels : Command → Bool
  | .mk node _ _ => node.hasBareLabels

def CommandNode.hasBareLabels : CommandNode → Bool
  | .label name => isBareSpelling name
  | .block body => haveBareLabels body
  | .ifElse _ yes none => yes.hasBareLabels
  | .ifElse _ yes (some no) => yes.hasBareLabels && no.hasBareLabels
  | .whileLoop _ body => body.hasBareLabels
  | .tryCatch body handler => haveBareLabels body && haveBareLabels handler
  | _ => true

def haveBareLabels : List Command → Bool
  | [] => true
  | command :: rest => command.hasBareLabels && haveBareLabels rest

end

theorem haveBareLabels_eq (commands : List Command) :
    haveBareLabels commands = commands.all Command.hasBareLabels := by
  induction commands with
  | nil => rw [haveBareLabels, List.all_nil]
  | cons command rest ih => rw [haveBareLabels, ih, List.all_cons]

theorem Reader.Reads.haveBareLabels {all : List PlacedHints} {s s' : List Placed}
    (h : Reads all s commands s') : haveBareLabels commands := by
  induction h with
  | skip => rfl
  | append _ _ ih ih' =>
    rw [haveBareLabels_eq, List.all_append, ← haveBareLabels_eq, ih, ← haveBareLabels_eq, ih']
    rfl
  | sql r => rfl
  | @control _ _ node _ hnode _ ih =>
    rw [Sql.haveBareLabels, Command.hasBareLabels, Bool.and_eq_true]
    refine ⟨?_, rfl⟩
    cases node with
    | sql => rfl
    | label => exact hnode
    | block => exact ih
    | ifElse _ yes no =>
      cases no <;>
        simpa [CommandNode.inner, CommandNode.hasBareLabels, Sql.haveBareLabels] using ih
    | whileLoop => simpa [CommandNode.inner, CommandNode.hasBareLabels, Sql.haveBareLabels] using ih
    | tryCatch =>
      simpa [CommandNode.inner, CommandNode.hasBareLabels, haveBareLabels_eq] using ih
    | _ => rfl

theorem haveBareLabels_of_parseBatch {text : String} (h : parseBatch text = .ok commands) :
    haveBareLabels commands := by
  obtain ⟨_, _, _, _, -, -, hread⟩ := exists_of_parseBatch h
  exact (Reader.gives_commandsWithin "" "" _ _ _ _ hread).haveBareLabels

end Sql

end BatchPlan
