import BatchPlan.Proofs.Binding.Run
import Mathlib.Data.List.Forall2

namespace BatchPlan

open BindM

/-- Wherever an action succeeds, its value is as stated. -/
def Gives {α : Type} (x : BindM α) (P : α → Prop) : Prop :=
  ∀ c s, Yields x c s fun a _ => P a

namespace Gives

variable {α β : Type} {x : BindM α} {f : α → BindM β} {P Q : α → Prop} {R : β → Prop}
    {xs : List α} {p : Prop}

theorem mono (h : Gives x P) (hPQ : ∀ a, P a → Q a) : Gives x Q :=
  fun c s => (h c s).mono fun a _ => hPQ a

theorem any : Gives x fun _ => True :=
  fun _ _ => .any

theorem bind (hx : Gives x P) (hf : ∀ a, P a → Gives (f a) R) : Gives (x >>= f) R :=
  fun c s => (hx c s).bind fun a s' ha => hf a ha c s'

theorem after (hf : ∀ a, Gives (f a) R) : Gives (x >>= f) R :=
  any.bind fun a _ => hf a

theorem pure {a : α} (h : P a) : Gives (pure a) P :=
  fun _ _ => .pure h

theorem throw {e : PlanError} : Gives (throw e : BindM α) P :=
  fun _ _ => .throw

theorem lift {r : Result α} (h : ∀ a, r = .ok a → P a) : Gives (liftM r : BindM α) P :=
  fun _ _ => .lift h

theorem result (r : Result α) : Gives (liftM r : BindM α) fun a => r = .ok a :=
  lift fun _ h => h

theorem counted {otherwise : α} {r : Except Overflow α} (h : ∀ a, r = .ok a → P a)
    (h' : P otherwise) : Gives (BindM.counted otherwise r) P := by
  cases r with
  | ok a => exact .pure (h a rfl)
  | error e => exact .after fun _ => .pure h'

theorem map {g : α → β} (h : Gives x fun a => R (g a)) : Gives (g <$> x) R :=
  fun c s => (h c s).map

theorem ite [Decidable p] {y : BindM α} (hx : p → Gives x P) (hy : ¬p → Gives y P) :
    Gives (if p then x else y) P :=
  fun c s => .ite (fun hp => hx hp c s) fun hp => hy hp c s

theorem check [Decidable p] {y : BindM β} {e : PlanError} (hy : ¬p → Gives y R) :
    Gives (if p then (MonadExcept.throw e : BindM α) >>= f else y) R :=
  fun c s => .check fun hp => hy hp c s

theorem attempt (h : Gives x P) : Gives (attempt x) fun r => ∀ a, r = .ok a → P a :=
  fun c s => .attempt ((h c s).mono fun _ _ ha _ hb => Except.ok.inj hb ▸ ha)
    fun _ _ _ _ h => nomatch h

theorem enclosed (h : Gives x P) : Gives (enclosed x) fun r => P r.1 :=
  fun c _ => .enclosed (h c _)

theorem mapM {S : α → β → Prop} (h : ∀ a ∈ xs, Gives (f a) (S a)) :
    Gives (xs.mapM f) (List.Forall₂ S xs) := by
  induction xs with
  | nil => exact .pure .nil
  | cons a xs ih =>
    rw [List.mapM_cons]
    refine (h a (by simp)).bind fun b hb => ?_
    exact (ih fun a ha => h a (by simp [ha])).bind fun bs hbs => .pure (.cons hb hbs)

theorem foldlM {f : β → α → BindM β} {b : β} (hb : R b) (h : ∀ b, R b → ∀ a ∈ xs, Gives (f b a) R) :
    Gives (xs.foldlM f b) R :=
  fun c _ => .foldlM (fun b _ => R b) hb fun b a ha s' hb => h b hb a ha c s'

end Gives

theorem BindM.gives_capture (level : Nat) (column : Column) (dataType : DataType) :
    Gives (capture level column dataType) fun e => ∀ c, e ≠ .column c := by
  refine .after fun s => ?_
  dsimp only
  split
  · exact .pure (by simp)
  · exact .after fun _ => .after fun _ => .pure (by simp)

namespace Progress

variable {p : Progress} {clause : Block → BindM Block}

theorem gives_extend {P : Block → Prop} (hp : P p.block) (hclause : Gives (clause p.block) P)
    (hrefresh : ∀ k, P k → P (k.withPlan k.plan)) : Gives (p.extend clause) (P ·.block) := by
  refine hclause.attempt.bind fun r hr => ?_
  cases r with
  | ok k => exact .pure (hrefresh k (hr k rfl))
  | error e => exact .pure hp

theorem gives_abandon {α : Type} (p : Progress) (s : Sql.Select Sql.Query) (tail : QueryTail)
    {P : α → Prop} : Gives (p.abandon s tail) P :=
  .after fun _ => .throw

end Progress

theorem AliasColumn.list_eq {relation : String} {place : Nat} {seen : List String}
    {entries : List (String × OutputColumn)} {columns : List AliasColumn}
    (h : AliasColumn.list relation place seen entries = .ok columns) :
    columns = entries.map fun entry => { source := entry.2.source, name := entry.1 } := by
  induction entries generalizing place seen columns with
  | nil =>
    cases h
    rfl
  | cons entry rest ih =>
    obtain ⟨-, h⟩ := Result.of_check h
    obtain ⟨-, h⟩ := Result.of_check h
    obtain ⟨more, hmore, h⟩ := Result.exists_of_bind h
    cases h
    rw [List.map_cons, ← ih hmore]

end BatchPlan
