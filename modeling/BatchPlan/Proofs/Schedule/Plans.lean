import BatchPlan.Proofs.Binding.Advance
import BatchPlan.Proofs.Binding.Tame
import BatchPlan.Proofs.Caching.Schedule
import Mathlib.Data.List.Nodup

namespace BatchPlan

namespace Plan

variable {p q : Plan}

/-- The spools of a plan are numbered from after `n` up to `m`, each once, and consumers read only
spools that are filled, whatever stands around the plan. -/
structure Scheduled (n m : Nat) (p : Plan) : Prop where
  le : n ≤ m
  nodup : p.producers.Nodup
  numbered : ∀ id ∈ p.producers, n < id ∧ id ≤ m
  ready : ∀ around, p.checkConsumers around = .ok ()

def Apart (p q : Plan) : Prop :=
  p.producers.Disjoint q.producers

/-- Two plans have the same spools, and their consumers need the same spools around them. -/
structure Alike (p q : Plan) : Prop where
  producers : q.producers = p.producers
  ready : ∀ around, q.checkConsumers around = .ok () ↔ p.checkConsumers around = .ok ()

theorem producers_of_isPlain (h : p.isPlain) : p.producers = p.children.flatMap producers := by
  rw [producers_eq]
  cases p with
  | spool | consumer | join => cases h
  | _ => rfl

theorem checkConsumers_of_isPlain (h : p.isPlain) (around : List Nat) :
    p.checkConsumers around = .ok () ↔ ∀ child ∈ p.children,
      child.checkConsumers around = .ok () := by
  cases p with
  | spool | consumer | join => cases h
  | concat inputs columns => exact checkAllConsumers_eq_ok
  | _ => simp [checkConsumers, children]

namespace Alike

variable {p q r : Plan}

theorem refl (p : Plan) : p.Alike p :=
  ⟨rfl, fun _ => Iff.rfl⟩

theorem above (hq : q.isPlain) (hchildren : q.children = [p]) : p.Alike q where
  producers := by rw [producers_of_isPlain hq, hchildren, List.flatMap_singleton]
  ready around := by simp [checkConsumers_of_isPlain hq, hchildren]

theorem bounded (p : Plan) (level : Column) (bound : Nat) : p.Alike (p.bounded level bound) := by
  unfold Plan.bounded
  split
  · exact .refl p
  · exact .above rfl rfl

end Alike

theorem Apart.symm (h : p.Apart q) : q.Apart p :=
  fun _ hq hp => h hp hq

theorem Apart.alike {p' q' : Plan} (h : p.Apart q) (hp : p.Alike p') (hq : q.Alike q') :
    p'.Apart q' := by
  unfold Apart
  rw [hp.producers, hq.producers]
  exact h

theorem producers_join (left right : Plan) (spec : JoinSpec) :
    (join left right spec).producers = left.producers ++ right.producers := by
  rw [producers_eq]
  simp [producer?, children]

theorem producers_spool (id : Nat) (input : Plan) (kind : SpoolKind) (mode : SpoolMode) :
    (spool id input kind mode).producers = id :: input.producers := by
  rw [producers_eq]
  simp [producer?, children]

namespace Scheduled

variable {n m k m' : Nat} {p q left right : Plan} {inputs : List Plan}
variable {columns : List ConcatColumn}

theorem validateSpools (h : p.Scheduled n m) : p.validateSpools = .ok () :=
  validateSpools_eq_ok.2 ⟨h.nodup, h.ready []⟩

theorem mono {n' : Nat} (h : p.Scheduled n m) (hn : n' ≤ n) (hm : m ≤ m') : p.Scheduled n' m' where
  le := Nat.le_trans hn (Nat.le_trans h.le hm)
  nodup := h.nodup
  numbered id hid := ⟨Nat.lt_of_le_of_lt hn (h.numbered id hid).1,
    Nat.le_trans (h.numbered id hid).2 hm⟩
  ready := h.ready

theorem later (h : p.Scheduled n m) (hm : m ≤ m') : p.Scheduled n m' :=
  h.mono (Nat.le_refl n) hm

theorem alike (h : p.Scheduled n m) (hq : p.Alike q) : q.Scheduled n m where
  le := h.le
  nodup := hq.producers ▸ h.nodup
  numbered := hq.producers ▸ h.numbered
  ready around := (hq.ready around).2 (h.ready around)

theorem above (h : p.Scheduled n m) (hq : q.isPlain) (hchildren : q.children = [p]) :
    q.Scheduled n m :=
  h.alike (.above hq hchildren)

theorem leaf (hle : n ≤ m) (hp : p.isPlain) (hchildren : p.children = []) : p.Scheduled n m := by
  have hnone : p.producers = [] := by rw [producers_of_isPlain hp, hchildren, List.flatMap_nil]
  refine ⟨hle, by simp [hnone], by simp [hnone], fun around => ?_⟩
  rw [checkConsumers_of_isPlain hp, hchildren]
  simp

theorem apart (hleft : left.Scheduled n k) (hright : right.Scheduled k m) : left.Apart right := by
  intro id hl hr
  have := (hleft.numbered id hl).2
  have := (hright.numbered id hr).1
  omega

theorem join (hleft : left.Scheduled n m) (hright : right.Scheduled n m) (h : left.Apart right)
    (spec : JoinSpec) : (Plan.join left right spec).Scheduled n m where
  le := hleft.le
  nodup := by
    rw [producers_join]
    exact List.nodup_append'.2 ⟨hleft.nodup, hright.nodup, h⟩
  numbered := by
    rw [producers_join]
    exact List.forall_mem_append.2 ⟨hleft.numbered, hright.numbered⟩
  ready around := checkConsumers_join.2 ⟨hleft.ready around, hright.ready _⟩

theorem join_next (hleft : left.Scheduled n k) (hright : right.Scheduled k m) (spec : JoinSpec) :
    (Plan.join left right spec).Scheduled n m :=
  (hleft.later hright.le).join (hright.mono hleft.le (Nat.le_refl m)) (hleft.apart hright) spec

theorem spool (h : p.Scheduled n m) (kind : SpoolKind) (mode : SpoolMode) :
    (Plan.spool (m + 1) p kind mode).Scheduled n (m + 1) where
  le := Nat.le_succ_of_le h.le
  nodup := by
    rw [producers_spool, List.nodup_cons]
    exact ⟨fun hid => by have := (h.numbered _ hid).2; omega, h.nodup⟩
  numbered := by
    rw [producers_spool, List.forall_mem_cons]
    exact ⟨⟨Nat.lt_succ_of_le h.le, Nat.le_refl _⟩, (h.later (Nat.le_succ m)).numbered⟩
  ready around := by
    rw [checkConsumers]
    exact h.ready _

theorem concat_append (h : (Plan.concat inputs columns).Scheduled n k) (hp : p.Scheduled k m) :
    (Plan.concat (inputs ++ [p]) columns).Scheduled n m := by
  have hproducers : (Plan.concat (inputs ++ [p]) columns).producers =
      (Plan.concat inputs columns).producers ++ p.producers := by
    simp [producers_eq (concat _ _), producer?, children]
  refine ⟨Nat.le_trans h.le hp.le, ?_, ?_, fun around => ?_⟩
  · rw [hproducers]
    exact List.nodup_append'.2 ⟨h.nodup, hp.nodup, h.apart hp⟩
  · rw [hproducers]
    exact List.forall_mem_append.2 ⟨(h.later hp.le).numbered,
      (hp.mono h.le (Nat.le_refl m)).numbered⟩
  · have hinputs := (checkConsumers_of_isPlain rfl around).1 (h.ready around)
    rw [checkConsumers_of_isPlain rfl]
    exact List.forall_mem_append.2 ⟨hinputs, by simpa using hp.ready around⟩

theorem concat_columns (h : (Plan.concat inputs columns).Scheduled n m)
    (columns' : List ConcatColumn) : (Plan.concat inputs columns').Scheduled n m :=
  h.alike ⟨by rw [producers_of_isPlain rfl, producers_of_isPlain rfl]; rfl, fun around => by
    rw [checkConsumers_of_isPlain rfl, checkConsumers_of_isPlain rfl]; rfl⟩

theorem concat_nil (hle : n ≤ m) (columns : List ConcatColumn) :
    (Plan.concat [] columns).Scheduled n m :=
  .leaf hle rfl rfl

theorem of_concat_singleton (h : (Plan.concat [p] columns).Scheduled n m) : p.Scheduled n m :=
  have hp : p.Alike (Plan.concat [p] columns) := .above rfl rfl
  h.alike ⟨hp.producers.symm, fun around => (hp.ready around).symm⟩

theorem of_producers (h : p.Scheduled n m) (hq : q.producers = p.producers)
    (hready : ∀ around, q.checkConsumers around = .ok ()) : q.Scheduled n m :=
  ⟨h.le, hq ▸ h.nodup, hq ▸ h.numbered, hready⟩

/-- A stack: rows of an anchor go in, and a step runs for each row that is taken out. -/
theorem stack {anchor step recursion : Plan} {schema : Schema} {spec : JoinSpec}
    (hanchor : anchor.Scheduled n m) (hstep : step.Scheduled m k)
    (hrecursion : (Plan.join (.consumer (k + 1) schema) step spec).Alike recursion)
    (columns : List ConcatColumn) (kind : SpoolKind) (mode : SpoolMode) :
    (Plan.spool (k + 1) (.concat [anchor, recursion] columns) kind mode).Scheduled n (k + 1) := by
  have hinputs : (Plan.concat [anchor, step] columns).Scheduled n k :=
    ((concat_nil (Nat.le_refl n) columns).concat_append hanchor).concat_append hstep
  have hconsumer : (Plan.consumer (k + 1) schema).producers = [] := by rw [producers_eq]; rfl
  refine (hinputs.spool kind mode).of_producers ?_ fun around => ?_
  · simp [producers_spool, producers_of_isPlain (p := .concat _ _) rfl, children,
      hrecursion.producers, producers_join, hconsumer]
  · -- the consumer stands in the input of the stack
    rw [checkConsumers, checkConsumers_of_isPlain rfl]
    simp only [children, List.forall_mem_cons, List.not_mem_nil, false_implies,
      implies_true, and_true]
    refine ⟨hanchor.ready _, (hrecursion.ready _).2 (checkConsumers_join.2 ⟨?_, hstep.ready _⟩)⟩
    simp [checkConsumers]

theorem replay {schema : Schema} {total : Plan} (h : p.Scheduled n m)
    (htotal : (Plan.consumer (m + 1) schema).Alike total) (kind : SpoolKind) (mode : SpoolMode)
    (type : JoinType) {spec : JoinSpec} (hspec : spec.strategy = .nestedLoop []) :
    (Plan.join (.spool (m + 1) p kind mode) (total.loop (.consumer (m + 1) schema) type [])
      spec).Scheduled n (m + 1) := by
  have hconsumer : (Plan.consumer (m + 1) schema).producers = [] := by rw [producers_eq]; rfl
  have hspool := h.spool kind mode
  refine hspool.of_producers ?_ fun around => ?_
  · simp [producers_join, loop, htotal.producers, hconsumer]
  · -- both consumers stand on the right of the join that fills the spool
    refine checkConsumers_join.2 ⟨hspool.ready _, checkConsumers_join.2 ⟨(htotal.ready _).2 ?_, ?_⟩⟩
    · simp [checkConsumers, hspec, JoinStrategy.offers, producers_spool]
    · simp [checkConsumers, hspec, JoinStrategy.offers, producers_spool]

end Scheduled

end Plan

/-- The times of binding are the numbers of spools that were made. -/
def Account.schedule : Account where
  World := Nat
  Value _ _ := True
  Rows n m p := p.Scheduled n m
  Pair n m p q := p.Scheduled n m ∧ q.Scheduled n m ∧ p.Apart q
  Stored _ := True
  Fresh m id m' := id = m + 1 ∧ m' = m + 1
  View := Unit
  query _ := ()
  apply _ _ := ()
  Owns _ _ _ := True
  inside _ _ m := m
  recursing _ m := m
  Sees _ _ := True
  Around _ _ := True
  Feeds _ _ := True
  -- spools alone are counted
  ledger m := ⟨[], m⟩
  value_later _ h := h
  value_given _ := trivial
  value_made _ _ := trivial
  value_operand _ _ := trivial
  value_inside _ _ h := h
  value_param _ _ := trivial
  ledger_later h := ⟨List.prefix_refl _, h⟩
  owns_later _ h := h
  inside_later _ _ h := h
  recursing_later _ h := h
  fresh_inside _ _ h := h
  rows_mono hn hm h := h.mono hn hm
  rows_above h hq hchildren _ _ := h.above hq hchildren
  rows_leaf hle hp hchildren _ _ _ := .leaf hle hp hchildren
  rows_scan hle _ := .leaf hle rfl rfl
  pair hp hq := ⟨hp.later hq.le, hq.mono hp.le (Nat.le_refl _), hp.apart hq⟩
  pair_symm h := ⟨h.2.1, h.1, h.2.2.symm⟩
  pair_later hm h := ⟨h.1.later hm, h.2.1.later hm, h.2.2⟩
  pair_above h hq hchildren _ _ :=
    ⟨h.1.above hq hchildren, h.2.1, h.2.2.alike (.above hq hchildren) (.refl _)⟩
  rows_join h _ _ _ := h.1.join h.2.1 h.2.2 _
  rows_keep h hid _ _ _ := by
    obtain ⟨rfl, rfl⟩ := hid
    refine .join (h.1.later (Nat.le_succ _)) (h.2.1.spool .eager .table) ?_ _
    unfold Plan.Apart
    rw [Plan.producers_spool, List.disjoint_cons_right]
    exact ⟨fun hid => absurd (h.1.numbered _ hid).2 (Nat.not_succ_le_self _), h.2.2⟩
  rows_loop hp hq _ _ _ := hp.join_next hq _
  rows_uncorrelated h _ := h
  rows_more _ h := h
  rows_top _ h := h
  rows_spool h hid _ := by
    obtain ⟨rfl, rfl⟩ := hid
    exact h.spool _ _
  rows_replay kind mode type h hid htotal hchildren _ hspec _ _ _ := by
    obtain ⟨rfl, rfl⟩ := hid
    exact h.replay (.above htotal hchildren) kind mode type hspec
  rows_stack columns kind mode hp hq hid _ _ _ := by
    obtain ⟨rfl, rfl⟩ := hid
    exact .stack hp hq (.bounded _ _ _) columns kind mode
  rows_steps _ h := h
  rows_append := .concat_append
  rows_columns _ h := h.concat_columns _
  rows_single := .of_concat_singleton
  sees_later _ h := h
  around_later _ h := h
  feeds_later _ h := h
  sees_nil _ := trivial
  around_nil _ := trivial
  around_of_sees _ h := h
  around_of_feeds h := h
  sees_inside _ h := h
  feeds_inside _ h := h
  feeds_apply _ _ h := h

def Counted (m : Nat) (_ : BindContext) (s : BindState) : Prop :=
  s.names.spools = m

section

variable {α : Type} {m : Nat} {x : BindM α}

theorem Obeys.counts (h : Tame x) : Advances Counted m x fun _ _ => True where
  of_start c s r s' hs hx := by
    refine ⟨s'.names.spools, ?_, rfl, fun _ _ => trivial⟩
    rw [← hs]
    exact (h.of_start c s r s' hx).1.spools

theorem Advances.enclosed_counted {P : α → Nat → Prop} (hx : Advances Counted m x P) :
    Advances Counted m (BindM.enclosed x) fun r k => P r.1 k ∧ ∀ c ∈ r.2, True :=
  .enclosed (E := fun _ _ => True) hx (fun _ _ hs => hs) fun _ _ _ hs => ⟨hs, fun _ _ => trivial⟩

theorem BindM.counts_freshSpool : Advances Counted m freshSpool fun id k =>
    id = m + 1 ∧ k = m + 1 :=
  .effect fun _ s hs => ⟨s.names.spools + 1, by rw [← hs]; exact Nat.le_succ _, rfl, by
    rw [← hs]; simp⟩

end

def Logic.schedule : Logic where
  toAccount := .schedule
  Holds m _ x F := Advances Counted m x F
  lift _ h := .lift h
  bind := .bind
  rethrow hx _ := hx.rethrow fun _ => ⟨_, rfl⟩
  attempt := .attempt
  consult hf _ := .consult fun c _ _ => hf c
  overflow m := .effect fun _ _ hs => ⟨m, le_refl m, hs, rfl⟩
  freshExpr m := .effect fun _ _ hs => ⟨m, le_refl m, hs, nofun⟩
  freshSegment m := .effect fun _ _ hs => ⟨m, le_refl m, hs, nofun⟩
  freshParam _ _ := BindM.tame_freshParam.counts.mono fun _ _ _ _ => nofun
  freshSpool _ := BindM.counts_freshSpool
  lookupVariable _ name := .lookupVariable name
  tempTable _ name _ := (Advances.tempTable name).mono fun _ _ _ h => ⟨h.1, fun _ => trivial⟩
  entity _ _ _ _ := trivial
  capture _ _ := (Obeys.of_stable fun _ => BindM.stable_capture (V := .all) _ _ _).counts.mono
    fun _ _ _ _ => trivial
  enclosed := .enclosed_counted
  absorb _ _ := (BindM.tame_absorb _).counts.mono fun _ _ hm _ =>
    ⟨fun _ h => h, fun _ _ h => h.later hm⟩

theorem Logic.roams_schedule : Logic.schedule.Roams where
  surroundings hf := .consult fun c _ _ => hf c fun _ _ _ => .leaf (Nat.le_refl _) rfl rfl
  elsewhere _ hx := hx.withReader (fun _ _ hs => hs) fun _ _ _ hs => hs
  stepping _ _ hx := hx.withReader (fun _ _ hs => hs) fun _ _ _ hs => hs

end BatchPlan
