import BatchPlan.Proofs.Flow.Layout

namespace BatchPlan.Flow

open Linear (place? labels Holds)

variable {roots code : List Root} {p : Script.Position} {s : Option Nat}
    {l : Option Loop} {i e j : Nat}
  {todo : List Script} {name : String} {at_ : Sql.Location} {loops : List Script.Frame}
    {c : QueryPlan}

/-- From place `i` on, inside of loop `l`, a flat program does what is to do and comes to place
`e`. -/
inductive Does (roots : List Root) : Option Loop → Nat → List Script → Nat → Prop where
  | done (l : Option Loop) (e : Nat) : Does roots l e [] e
  | silent {l : Option Loop} {i j e : Nat} {todo : List Script} :
      Linear.step roots (some i) = .silent (some j) → Does roots l j todo e → Does roots l i todo e
  | perform {l : Option Loop} {i e : Nat} {rest : List Script} (r : Root) :
      Linear.step roots (some i) = .perform r (some (i + 1)) → Does roots l (i + 1) rest e →
      Does roots l i (.perform r :: rest) e
  | exit {l : Option Loop} {i e : Nat} {rest : List Script} :
      Linear.step roots (some i) = .halt → Does roots l i (.exit :: rest) e
  | block {l : Option Loop} {i e : Nat} {body rest : List Script} :
      Does roots l i (body ++ rest) e → Does roots l i (.block body :: rest) e
  | ifThen {l : Option Loop} {i j e : Nat} {c : QueryPlan} {yes : Script} {rest : List Script} :
      Linear.step roots (some i) = .test c (fun a => if a = .true then some (i + 1) else some j) →
      Does roots l (i + 1) (yes :: rest) e → Does roots l j rest e →
      Does roots l i (.ifThen c yes :: rest) e
  | ifElse {l : Option Loop} {i j e : Nat} {c : QueryPlan} {yes no : Script} {rest : List Script} :
      Linear.step roots (some i) = .test c (fun a => if a = .true then some (i + 1) else some j) →
      Does roots l (i + 1) (yes :: rest) e → Does roots l j (no :: rest) e →
      Does roots l i (.ifElse c yes no :: rest) e
  | whileLoop {l : Option Loop} {i j k e : Nat} {loop : Loop} {c : QueryPlan} {body : Script}
      {rest : List Script} :
      place? roots loop.start = some i → place? roots loop.stop = some j →
      Linear.step roots (some i) = .silent (some (i + 1)) →
      Linear.step roots (some (i + 1)) =
        .test c (fun a => if a = .true then some (i + 2) else some j) →
      Does roots (some loop) (i + 2) [body] k → Linear.step roots (some k) = .silent (some i) →
      Does roots l j rest e → Does roots l i (.whileLoop c body :: rest) e
  | breakLoop {i e : Nat} {loop : Loop} {rest : List Script} :
      Linear.step roots (some i) = .silent (place? roots loop.stop) →
      Does roots (some loop) i (.breakLoop :: rest) e
  | continueLoop {i e : Nat} {loop : Loop} {rest : List Script} :
      Linear.step roots (some i) = .silent (place? roots loop.start) →
      Does roots (some loop) i (.continueLoop :: rest) e

/-- From place `e` on, the end of the body of loop `l`, a flat program goes on with the loops. -/
inductive GoesOn (roots : List Root) : Option Loop → Nat → List Script.Frame → Prop where
  | halt {e : Nat} : Linear.step roots (some e) = .halt → GoesOn roots none e []
  | loop {l : Option Loop} {loop : Loop} {i j k e : Nat} {f : Script.Frame}
      {loops : List Script.Frame} :
      place? roots loop.start = some i → place? roots loop.stop = some j →
      Linear.step roots (some k) = .silent (some i) → Does roots l i f.again e →
      Does roots l j f.rest e → GoesOn roots l e loops → GoesOn roots (some loop) k (f :: loops)

inductive Matches (roots : List Root) : Script.Position → Option Nat → Prop where
  | mk {l : Option Loop} {i e : Nat} {p : Script.Position} :
      Does roots l i p.todo e → GoesOn roots l e p.loops → Matches roots p (some i)

def Settles (roots : List Root) (p : Script.Position) (s : Option Nat) : Prop :=
  ∃ p' s', Quiet Script.step p p' ∧ Quiet (Linear.step roots) s s' ∧
    Step.Agrees (Matches roots) (Script.step p') (Linear.step roots s')

theorem Settles.now (h : Step.Agrees (Matches roots) (Script.step p) (Linear.step roots s)) :
    Settles roots p s :=
  ⟨p, s, .refl p, .refl s, h⟩

theorem Settles.silent_script {p' : Script.Position} (hp : Script.step p = .silent p')
    (h : Settles roots p' s) : Settles roots p s := by
  obtain ⟨q, s', hq, hs, hstep⟩ := h
  exact ⟨q, s', .step hp hq, hs, hstep⟩

theorem Settles.silent_linear {s' : Option Nat} (hs : Linear.step roots s = .silent s')
    (h : Settles roots p s') : Settles roots p s := by
  obtain ⟨q, s'', hq, hs', hstep⟩ := h
  exact ⟨q, s'', hq, .step hs hs', hstep⟩

theorem Settles.test {yes no : Script.Position} {k : Nat}
    (hp : Script.step p = .test c fun a => if a = .true then yes else no)
    (hs : Linear.step roots (some i) = .test c fun a => if a = .true then some j else some k)
    (hy : Matches roots yes (some j)) (hn : Matches roots no (some k)) :
    Settles roots p (some i) := by
  refine .now ?_
  rw [hp, hs]
  refine .test c fun a => ?_
  by_cases ha : a = .true
  · simpa [ha] using hy
  · simpa [ha] using hn

/-- The induction is on the way through the innermost loop; what happens once that loop is left is
taken from the loops around it. -/
theorem Does.settles_inside (houter : ∀ f rest, loops = f :: rest →
    ∀ l i e todo, GoesOn roots l e rest →
      Does roots l i todo e → Settles roots ⟨todo, rest⟩ (some i)) (h : Does roots l i todo e)
    (hl : GoesOn roots l e loops) : Settles roots ⟨todo, loops⟩ (some i) := by
  induction h with
  | done l e =>
    cases hl with
    | halt hend =>
      refine .now ?_
      rw [hend]
      exact .halt
    | loop _ _ hk hagain _ hl =>
      exact .silent_script rfl (.silent_linear hk (houter _ _ rfl _ _ _ _ hl hagain))
  | silent hs _ ih => exact .silent_linear hs (ih hl)
  | perform r hs hd _ =>
    refine .now ?_
    rw [hs]
    exact .perform r (.mk hd hl)
  | exit hs =>
    refine .now ?_
    rw [hs]
    exact .halt
  | block _ ih => exact .silent_script rfl (ih hl)
  | ifThen hs hy hn _ _ => exact .test rfl hs (.mk hy hl) (.mk hn hl)
  | ifElse hs hy hn _ _ => exact .test rfl hs (.mk hy hl) (.mk hn hl)
  | whileLoop hstart hstop hs ht hb hk hrest _ _ =>
    have hagain := Does.whileLoop hstart hstop hs ht hb hk hrest
    exact .silent_linear hs (.test rfl ht
      (.mk hb (.loop hstart hstop hk hagain hrest hl)) (.mk hrest hl))
  | breakLoop hs =>
    cases hl with
    | loop _ hstop _ _ hrest hl =>
      rw [hstop] at hs
      exact .silent_script rfl (.silent_linear hs (houter _ _ rfl _ _ _ _ hl hrest))
  | continueLoop hs =>
    cases hl with
    | loop hstart _ _ hagain _ hl =>
      rw [hstart] at hs
      exact .silent_script rfl (.silent_linear hs (houter _ _ rfl _ _ _ _ hl hagain))

theorem Does.settles (h : Does roots l i todo e) (hl : GoesOn roots l e loops) :
    Settles roots ⟨todo, loops⟩ (some i) := by
  induction loops generalizing l i e todo with
  | nil => exact h.settles_inside (fun _ _ hf => by cases hf) hl
  | cons f loops ih =>
    refine h.settles_inside (fun f' rest hf l i e todo hl' h' => ?_) hl
    cases hf
    exact ih h' hl'

theorem matches_alike (roots : List Root) :
    Alike Script.step (Linear.step roots) (Matches roots) := by
  intro p s hm
  cases hm with
  | mk hd hl => exact hd.settles hl

theorem step_label (h : Holds roots i (⟨.label name, at_⟩ :: code)) :
    Linear.step roots (some i) = .silent (some (i + 1)) :=
  Linear.step_of_getElem? h.head

theorem step_jump (h : Holds roots i (⟨.jump name, at_⟩ :: code)) :
    Linear.step roots (some i) = .silent (place? roots name) :=
  Linear.step_of_getElem? h.head

theorem step_jumpUnless (h : Holds roots i (⟨.jumpWhen c name false, at_⟩ :: code))
    (hj : place? roots name = some j) :
    Linear.step roots (some i) =
      .test c fun a => if a = .true then some (i + 1) else some j := by
  rw [Linear.step_of_getElem? h.head]
  simp only [Linear.act, hj]
  congr 1
  funext a
  by_cases ha : a = .true <;> simp [ha]

theorem Does.from_eq (h : Does roots l i todo e) (hij : i = j) : Does roots l j todo e :=
  hij ▸ h

/-- Where a layout stands, the program does what its script says and then what follows. -/
theorem Layout.does {n n' : Nat} {script : List Script} (h : Layout n l script code n')
    (hu : (labels roots).Nodup) (hc : Holds roots i code)
    (hd : Does roots l (i + code.length) todo e) : Does roots l i (script ++ todo) e := by
  induction h generalizing i todo e with
  | nil => exact hd
  | perform r hr _ ih =>
    refine .perform r ?_ (ih hc.tail (hd.from_eq (by simp; omega)))
    rw [Linear.step_of_getElem? hc.head, Linear.act_plain roots hr]
  | exit at_ _ ih => exact .exit (Linear.step_of_getElem? hc.head)
  | block _ _ ihb ih =>
    refine .block (ihb hc.left (ih hc.right (hd.from_eq ?_)))
    rw [List.length_append, Nat.add_assoc]
  | ifThen c at_ _ _ ihy ih =>
    have hlabel := hc.right
    have hrest := Does.silent (step_label hlabel) (ih hlabel.tail (hd.from_eq (by simp; omega)))
    have hj := Linear.place?_of_nodup hu hlabel.head rfl
    exact .ifThen (step_jumpUnless hc hj)
      (ihy hc.left.tail (hrest.from_eq (by simp; omega))) hrest
  | ifElse c at_ _ _ _ ihy ihn ih =>
    have hend := hc.right
    have hjump := hc.left.right
    have helse := hjump.tail
    have hrest := Does.silent (step_label hend) (ih hend.tail (hd.from_eq (by simp; omega)))
    have hj := Linear.place?_of_nodup hu helse.head rfl
    have hk := Linear.place?_of_nodup hu hend.head rfl
    have hover := Does.silent ((step_jump hjump).trans (by rw [hk])) hrest
    have hno := Does.silent (step_label helse) (ihn helse.tail (hrest.from_eq (by simp; omega)))
    exact .ifElse (step_jumpUnless hc hj)
      (ihy hc.left.left.tail (hover.from_eq (by simp; omega))) hno
  | whileLoop c at_ _ _ ihb ih =>
    have hjump := hc.right
    have hstop := hjump.tail
    have hrest := Does.silent (step_label hstop) (ih hstop.tail (hd.from_eq (by simp; omega)))
    have hi := Linear.place?_of_nodup hu hc.head rfl
    have hj := Linear.place?_of_nodup hu hstop.head rfl
    refine .whileLoop hi hj (step_label hc) (step_jumpUnless hc.tail hj)
      (ihb hc.left.tail.tail (.done _ _)) ?_ hrest
    have hback := (step_jump hjump).trans (by rw [hi])
    rw [← hback]
    congr 2
    simp
    omega
  | breakLoop l at_ _ ih => exact .breakLoop (step_jump hc)
  | continueLoop l at_ _ ih => exact .continueLoop (step_jump hc)

end BatchPlan.Flow
