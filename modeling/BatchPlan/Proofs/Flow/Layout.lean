import BatchPlan.Proofs.Flow.Linear
import BatchPlan.Proofs.Flow.Script
import BatchPlan.Proofs.Meaning.Fields

namespace BatchPlan.Flow

open Linear (labels)

variable {a b : List String} {n n' m : Nat} {l : Option Loop} {code : List Root}

def elseLabel (n : Nat) : String := "if." ++ toString n ++ ".else"

def endLabel (n : Nat) : String := "if." ++ toString n ++ ".end"

def loopLabels (n : Nat) : Loop :=
  ⟨"while." ++ toString n ++ ".start", "while." ++ toString n ++ ".end"⟩

def digitsOf (name : String) : List Char :=
  ((name.toList.dropWhile (· != '.')).drop 1).takeWhile (· != '.')

theorem digitsOf_numbered {before after : String} (n : Nat)
    (hb : before.toList.dropWhile (· != '.') = ['.']) (ha : after.toList.head? = some '.') :
    digitsOf (before ++ toString n ++ after) = Nat.toDigits 10 n := by
  obtain ⟨rest, hrest⟩ := List.head?_eq_some_iff.1 ha
  have hdrop : (before ++ toString n ++ after).toList.dropWhile (· != '.') =
      '.' :: (Nat.toDigits 10 n ++ '.' :: rest) := by
    rw [String.toList_append, String.toList_append, List.append_assoc, List.dropWhile_append, hb,
      toList_toString, hrest]
    rfl
  rw [digitsOf, hdrop, List.drop_succ_cons, List.drop_zero, List.takeWhile_append_of_pos]
  · simp
  · intro c hc
    simpa using ne_of_mem_toDigits hc (by decide)

def Numbered (n n' : Nat) (name : String) : Prop :=
  ∃ k, n < k ∧ k ≤ n' ∧ digitsOf name = Nat.toDigits 10 k

theorem Numbered.mono {m' : Nat} {name : String} (h : Numbered n n' name)
    (hm : m ≤ n) (hm' : n' ≤ m') : Numbered m m' name := by
  obtain ⟨k, hk, hk', hd⟩ := h
  exact ⟨k, by omega, by omega, hd⟩

theorem Numbered.ne {n'' : Nat} {a b : String} (ha : Numbered n n' a) (hb : Numbered n' n'' b) :
    a ≠ b := by
  rintro rfl
  obtain ⟨k, hk, hk', hd⟩ := ha
  obtain ⟨j, hj, hj', hd'⟩ := hb
  have : k = j := toDigits_injective (hd.symm.trans hd')
  omega

/-- The roots of a script, inside of a loop or not. Its IFs and WHILEs take the numbers above `n` up
to `n'`. -/
inductive Layout : Nat → Option Loop → List Script → List Root → Nat → Prop where
  | nil (n : Nat) (l : Option Loop) : Layout n l [] [] n
  | perform {n n' : Nat} {l : Option Loop} {rest : List Script} {code : List Root} (r : Root) :
      r.node.isPlain → Layout n l rest code n' → Layout n l (.perform r :: rest) (r :: code) n'
  | exit {n n' : Nat} {l : Option Loop} {rest : List Script} {code : List Root}
    (at_ : Sql.Location) :
      Layout n l rest code n' → Layout n l (.exit :: rest) (⟨.exit, at_⟩ :: code) n'
  | block {n m n' : Nat} {l : Option Loop} {body rest : List Script} {inner code : List Root} :
      Layout n l body inner m → Layout m l rest code n' →
      Layout n l (.block body :: rest) (inner ++ code) n'
  | ifThen {n m n' : Nat} {l : Option Loop} {yes : Script} {rest : List Script}
      {inner code : List Root} (c : QueryPlan) (at_ : Sql.Location) :
      Layout (n + 1) l [yes] inner m → Layout m l rest code n' →
      Layout n l (.ifThen c yes :: rest)
        (⟨.jumpWhen c (elseLabel (n + 1)) false, at_⟩ :: inner ++
          ⟨.label (elseLabel (n + 1)), at_⟩ :: code) n'
  | ifElse {n m m' n' : Nat} {l : Option Loop} {yes no : Script} {rest : List Script}
      {first second code : List Root} (c : QueryPlan) (at_ : Sql.Location) :
      Layout (n + 1) l [yes] first m → Layout m l [no] second m' → Layout m' l rest code n' →
      Layout n l (.ifElse c yes no :: rest)
        (⟨.jumpWhen c (elseLabel (n + 1)) false, at_⟩ :: first ++
          ⟨.jump (endLabel (n + 1)), at_⟩ :: ⟨.label (elseLabel (n + 1)), at_⟩ :: second ++
          ⟨.label (endLabel (n + 1)), at_⟩ :: code) n'
  | whileLoop {n m n' : Nat} {l : Option Loop} {body : Script} {rest : List Script}
      {inner code : List Root} (c : QueryPlan) (at_ : Sql.Location) :
      Layout (n + 1) (some (loopLabels (n + 1))) [body] inner m → Layout m l rest code n' →
      Layout n l (.whileLoop c body :: rest)
        (⟨.label (loopLabels (n + 1)).start, at_⟩ ::
          ⟨.jumpWhen c (loopLabels (n + 1)).stop false, at_⟩ :: inner ++
          ⟨.jump (loopLabels (n + 1)).start, at_⟩ ::
          ⟨.label (loopLabels (n + 1)).stop, at_⟩ :: code) n'
  | breakLoop {n n' : Nat} {rest : List Script} {code : List Root} (l : Loop) (at_ : Sql.Location) :
      Layout n (some l) rest code n' →
      Layout n (some l) (.breakLoop :: rest) (⟨.jump l.stop, at_⟩ :: code) n'
  | continueLoop {n n' : Nat} {rest : List Script} {code : List Root} (l : Loop)
      (at_ : Sql.Location) :
      Layout n (some l) rest code n' →
      Layout n (some l) (.continueLoop :: rest) (⟨.jump l.start, at_⟩ :: code) n'

theorem Layout.append {first rest : List Script} {inner : List Root} (h : Layout n l first inner m)
    (h' : Layout m l rest code n') : Layout n l (first ++ rest) (inner ++ code) n' := by
  induction h with
  | nil => exact h'
  | perform r hr _ ih => exact .perform r hr (ih h')
  | exit at_ _ ih => exact .exit at_ (ih h')
  | block hb _ _ ih => simpa using Layout.block hb (ih h')
  | ifThen c at_ hy _ _ ih => simpa using Layout.ifThen c at_ hy (ih h')
  | ifElse c at_ hy hn _ _ _ ih => simpa using Layout.ifElse c at_ hy hn (ih h')
  | whileLoop c at_ hb _ _ ih => simpa using Layout.whileLoop c at_ hb (ih h')
  | breakLoop l at_ _ ih => exact .breakLoop l at_ (ih h')
  | continueLoop l at_ _ ih => exact .continueLoop l at_ (ih h')

theorem isPlain_label? {node : RootNode} (h : node.isPlain) : node.label? = none := by
  cases node <;> simp_all [RootNode.isPlain, RootNode.label?]

structure FreshLabels (n n' : Nat) (names : List String) : Prop where
  le : n ≤ n'
  numbered : ∀ name ∈ names, Numbered n n' name
  nodup : names.Nodup

theorem FreshLabels.nil (n : Nat) : FreshLabels n n [] :=
  ⟨Nat.le_refl n, by simp, by simp⟩

theorem FreshLabels.append (ha : FreshLabels n m a) (hb : FreshLabels m n' b) :
    FreshLabels n n' (a ++ b) := by
  refine ⟨Nat.le_trans ha.le hb.le, fun name h => ?_, ?_⟩
  · rcases List.mem_append.1 h with h | h
    · exact (ha.numbered name h).mono (Nat.le_refl n) hb.le
    · exact (hb.numbered name h).mono ha.le (Nat.le_refl n')
  · rw [List.nodup_append]
    exact ⟨ha.nodup, hb.nodup, fun x hx y hy => (ha.numbered x hx).ne (hb.numbered y hy)⟩

theorem FreshLabels.perm (h : FreshLabels n n' a) (hp : a.Perm b) : FreshLabels n n' b :=
  ⟨h.le, fun name hn => h.numbered name (hp.mem_iff.2 hn), hp.nodup_iff.1 h.nodup⟩

theorem freshLabels_pair {before first second : String}
    (hbefore : before.toList.dropWhile (· != '.') = ['.']) (hfirst : first.toList.head? = some '.')
    (hsecond : second.toList.head? = some '.') (hne : first ≠ second) (n : Nat) :
    FreshLabels n (n + 1) [before ++ toString (n + 1) ++ first,
      before ++ toString (n + 1) ++ second] := by
  have hnumbered {after : String} (hafter : after.toList.head? = some '.') :
      Numbered n (n + 1) (before ++ toString (n + 1) ++ after) :=
    ⟨n + 1, by omega, by omega, digitsOf_numbered _ hbefore hafter⟩
  refine ⟨by omega, List.forall_mem_cons.2 ⟨hnumbered hfirst, ?_⟩, by simpa using hne⟩
  exact List.forall_mem_singleton.2 (hnumbered hsecond)

theorem freshLabels_if (n : Nat) : FreshLabels n (n + 1) [elseLabel (n + 1), endLabel (n + 1)] :=
  freshLabels_pair (by decide) (by decide) (by decide) (by decide) n

theorem freshLabels_while (n : Nat) :
    FreshLabels n (n + 1) [(loopLabels (n + 1)).start, (loopLabels (n + 1)).stop] :=
  freshLabels_pair (by decide) (by decide) (by decide) (by decide) n

theorem FreshLabels.sublist (h : FreshLabels n n' b) (hs : a.Sublist b) : FreshLabels n n' a :=
  ⟨h.le, fun name hn => h.numbered name (hs.mem hn), h.nodup.sublist hs⟩

theorem Layout.freshLabels {script : List Script} (h : Layout n l script code n') :
    FreshLabels n n' (labels code) := by
  induction h with
  | nil n => exact .nil n
  | perform r hr _ ih => simpa [labels, List.filterMap_cons, isPlain_label? hr] using ih
  | exit | breakLoop | continueLoop => simpa [labels, List.filterMap_cons, RootNode.label?]
  | block _ _ ihb ih => simpa [labels] using ihb.append ih
  | @ifThen n m n' l yes rest inner code c at_ _ _ ihy ih =>
    have hone := (freshLabels_if n).sublist (a := [elseLabel (n + 1)]) (by simp)
    refine ((hone.append ihy).append ih).perm ?_
    simpa [labels, List.filterMap_cons, RootNode.label?] using List.perm_middle.symm
  | @ifElse n m m' n' l yes no rest first second code c at_ _ _ _ ihy ihn ih =>
    refine ((((freshLabels_if n).append ihy).append ihn).append ih).perm ?_
    rw [List.perm_iff_count]
    intro name
    simp [labels, RootNode.label?, List.count_append, List.count_cons]
    omega
  | @whileLoop n m n' l body rest inner code c at_ _ _ ihb ih =>
    refine (((freshLabels_while n).append ihb).append ih).perm ?_
    simpa [labels, List.filterMap_cons, RootNode.label?] using List.perm_middle.symm

end BatchPlan.Flow
