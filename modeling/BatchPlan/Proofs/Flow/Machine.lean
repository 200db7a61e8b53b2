import BatchPlan.Proofs.Truth
import BatchPlan.Root
import Mathlib.Logic.Function.Iterate

namespace BatchPlan.Flow

inductive Visit where
  | root (r : Root)
  | condition (plan : QueryPlan)

/-- How each condition comes out, given all that was visited before it and the condition itself. -/
abbrev Oracle := List Visit → Truth

/-- What a machine does in a state. -/
inductive Step (σ : Type) where
  | halt
  | stuck
  | silent (next : σ)
  | perform (r : Root) (next : σ)
  | test (condition : QueryPlan) (next : Truth → σ)

structure Trail (σ : Type) where
  state : σ
  visited : List Visit

variable {σ τ : Type}

def Trail.next (m : σ → Step σ) (oracle : Oracle) (t : Trail σ) : Trail σ :=
  match m t.state with
  | .halt | .stuck => t
  | .silent s => ⟨s, t.visited⟩
  | .perform r s => ⟨s, t.visited ++ [.root r]⟩
  | .test c f => ⟨f (oracle (t.visited ++ [.condition c])), t.visited ++ [.condition c]⟩

def Trail.after (m : σ → Step σ) (oracle : Oracle) (n : Nat) (t : Trail σ) : Trail σ :=
  (Trail.next m oracle)^[n] t

/-- From a state a machine comes to have visited just these, in this order. A run that never ends is
the set of all its beginnings. -/
def Visits (m : σ → Step σ) (oracle : Oracle) (s : σ) (visited : List Visit) : Prop :=
  ∃ n, (Trail.after m oracle n ⟨s, []⟩).visited = visited

def Halts (m : σ → Step σ) (oracle : Oracle) (s : σ) (visited : List Visit) : Prop :=
  ∃ n, m (Trail.after m oracle n ⟨s, []⟩).state = .halt ∧
    (Trail.after m oracle n ⟨s, []⟩).visited = visited

def Sticks (m : σ → Step σ) (oracle : Oracle) (s : σ) : Prop :=
  ∃ n, m (Trail.after m oracle n ⟨s, []⟩).state = .stuck

inductive Quiet (m : σ → Step σ) : σ → σ → Prop where
  | refl (s : σ) : Quiet m s s
  | step {s s' s'' : σ} : m s = .silent s' → Quiet m s' s'' → Quiet m s s''

/-- On a silent way nothing is visited, and before its last state each step is silent. -/
theorem Quiet.after {m : σ → Step σ} {s s' : σ} (h : Quiet m s s') (oracle : Oracle)
    (v : List Visit) :
    ∃ k, Trail.after m oracle k ⟨s, v⟩ = ⟨s', v⟩ ∧
      ∀ j < k, (Trail.after m oracle j ⟨s, v⟩).visited = v ∧
        ∃ next, m (Trail.after m oracle j ⟨s, v⟩).state = .silent next := by
  induction h with
  | refl s => exact ⟨0, rfl, fun j hj => absurd hj (Nat.not_lt_zero j)⟩
  | @step s s₁ s₂ hs _ ih =>
    obtain ⟨k, hk, hbefore⟩ := ih
    have hnext : Trail.next m oracle ⟨s, v⟩ = ⟨s₁, v⟩ := by simp [Trail.next, hs]
    refine ⟨k + 1, ?_, fun j hj => ?_⟩
    · rw [Trail.after, Function.iterate_succ_apply, hnext]
      exact hk
    · cases j with
      | zero => exact ⟨rfl, s₁, hs⟩
      | succ j =>
        rw [Trail.after, Function.iterate_succ_apply, hnext]
        exact hbefore j (by omega)

variable {m : σ → Step σ} {m' : τ → Step τ} {R : σ → τ → Prop} {s : σ} {t : τ}

inductive Step.Agrees (R : σ → τ → Prop) : Step σ → Step τ → Prop where
  | halt : Agrees R .halt .halt
  | perform (r : Root) {s : σ} {t : τ} : R s t → Agrees R (.perform r s) (.perform r t)
  | test (c : QueryPlan) {f : Truth → σ} {g : Truth → τ} :
      (∀ a, R (f a) (g a)) → Agrees R (.test c f) (.test c g)

theorem Step.Agrees.symm {a : Step σ} {b : Step τ} (h : Agrees R a b) : Agrees (flip R) b a := by
  cases h with
  | halt => exact .halt
  | perform r h => exact .perform r h
  | test c h => exact .test c h

/-- Related states come silently to steps that agree. -/
def Alike (m : σ → Step σ) (m' : τ → Step τ) (R : σ → τ → Prop) : Prop :=
  ∀ s t, R s t → ∃ s' t', Quiet m s s' ∧ Quiet m' t t' ∧ Step.Agrees R (m s') (m' t')

theorem Alike.symm (h : Alike m m' R) : Alike m' m (flip R) := by
  intro t s hR
  obtain ⟨s', t', hs, ht, hstep⟩ := h s t hR
  exact ⟨t', s', ht, hs, hstep.symm⟩

theorem Step.Agrees.next (h : Agrees R (m s) (m' t)) (oracle : Oracle) (v : List Visit) :
    (m s = .halt ∧ m' t = .halt) ∨
      ∃ s₁ t₁ v₁, Trail.next m oracle ⟨s, v⟩ = ⟨s₁, v₁⟩ ∧ Trail.next m' oracle ⟨t, v⟩ = ⟨t₁, v₁⟩ ∧
        (m s ≠ .halt ∧ m s ≠ .stuck) ∧ R s₁ t₁ := by
  generalize hs : m s = a at h
  generalize ht : m' t = b at h
  cases h with
  | halt => exact .inl ⟨rfl, rfl⟩
  | @perform r s₁ t₁ hR =>
    exact .inr ⟨s₁, t₁, v ++ [.root r], by simp [Trail.next, hs], by simp [Trail.next, ht],
      by simp, hR⟩
  | @test c f g hR =>
    exact .inr ⟨_, _, v ++ [.condition c], by simp [Trail.next, hs], by simp [Trail.next, ht],
      by simp, hR (oracle (v ++ [.condition c]))⟩

theorem Trail.after_halt (oracle : Oracle) {t : Trail σ} (h : m t.state = .halt) (n : Nat) :
    Trail.after m oracle n t = t := by
  induction n with
  | zero => rfl
  | succ n ih =>
    have hnext : Trail.next m oracle t = t := by simp [Trail.next, h]
    rw [Trail.after, Function.iterate_succ_apply, hnext]
    exact ih

theorem Trail.after_add (m : σ → Step σ) (oracle : Oracle) (n k : Nat) (t : Trail σ) :
    Trail.after m oracle (n + k) t = Trail.after m oracle n (Trail.after m oracle k t) :=
  Function.iterate_add_apply _ n k t

/-- What one machine visits in `n` steps, and whether it has come to its end by then, the other one
matches after some number of steps of its own. It is not stuck then. -/
theorem Alike.follows (h : Alike m m' R) (oracle : Oracle) (n : Nat) (hR : R s t) (v : List Visit) :
    ∃ k, (Trail.after m' oracle k ⟨t, v⟩).visited = (Trail.after m oracle n ⟨s, v⟩).visited ∧
      (m (Trail.after m oracle n ⟨s, v⟩).state = .halt →
        m' (Trail.after m' oracle k ⟨t, v⟩).state = .halt) ∧
      m (Trail.after m oracle n ⟨s, v⟩).state ≠ .stuck := by
  induction n using Nat.strongRecOn generalizing s t v with
  | ind n ih =>
    obtain ⟨s', t', hs, ht, hstep⟩ := h s t hR
    obtain ⟨i, hi, hbefore⟩ := hs.after oracle v
    obtain ⟨j, hj, -⟩ := ht.after oracle v
    by_cases hn : n < i
    · obtain ⟨hv, next, hsilent⟩ := hbefore n hn
      exact ⟨0, hv.symm, by simp [hsilent], by simp [hsilent]⟩
    · -- the silent steps are over: `d` steps remain from states whose steps agree
      obtain ⟨d, rfl⟩ : ∃ d, n = d + i := ⟨n - i, by omega⟩
      rw [Trail.after_add, hi]
      obtain ⟨hend, hend'⟩ | ⟨s₁, t₁, v₁, hs₁, ht₁, hgo, hR₁⟩ := hstep.next oracle v
      · rw [Trail.after_halt oracle hend]
        exact ⟨j, by rw [hj], fun _ => by rw [hj]; exact hend', by simp [hend]⟩
      · cases d with
        | zero => exact ⟨j, by rw [hj]; rfl, fun hh => absurd hh hgo.1, hgo.2⟩
        | succ d =>
          obtain ⟨k, hk, hhalt, hstuck⟩ := ih d (by omega) hR₁ v₁
          have hleft : Trail.after m oracle (d + 1) ⟨s', v⟩ = Trail.after m oracle d ⟨s₁, v₁⟩ := by
            rw [Trail.after_add, ← hs₁]
            rfl
          have hright : Trail.after m' oracle (k + (1 + j)) ⟨t, v⟩ =
              Trail.after m' oracle k ⟨t₁, v₁⟩ := by
            rw [Trail.after_add, Trail.after_add, hj, ← ht₁]
            rfl
          rw [hleft]
          exact ⟨k + (1 + j), by rw [hright]; exact hk, by rw [hright]; exact hhalt, hstuck⟩

theorem Alike.visits_iff (h : Alike m m' R) (oracle : Oracle) (hR : R s t) (visited : List Visit) :
    Visits m oracle s visited ↔ Visits m' oracle t visited := by
  constructor
  · rintro ⟨n, rfl⟩
    obtain ⟨k, hk, -⟩ := h.follows oracle n hR []
    exact ⟨k, hk⟩
  · rintro ⟨n, rfl⟩
    obtain ⟨k, hk, -⟩ := h.symm.follows oracle n hR []
    exact ⟨k, hk⟩

theorem Alike.halts_iff (h : Alike m m' R) (oracle : Oracle) (hR : R s t) (visited : List Visit) :
    Halts m oracle s visited ↔ Halts m' oracle t visited := by
  constructor
  · rintro ⟨n, hend, rfl⟩
    obtain ⟨k, hk, hhalt, -⟩ := h.follows oracle n hR []
    exact ⟨k, hhalt hend, hk⟩
  · rintro ⟨n, hend, rfl⟩
    obtain ⟨k, hk, hhalt, -⟩ := h.symm.follows oracle n hR []
    exact ⟨k, hhalt hend, hk⟩

theorem Alike.not_sticks (h : Alike m m' R) (oracle : Oracle) (hR : R s t) :
    ¬ Sticks m oracle s := by
  rintro ⟨n, hn⟩
  obtain ⟨k, -, -, hstuck⟩ := h.follows oracle n hR []
  exact hstuck hn

end BatchPlan.Flow
