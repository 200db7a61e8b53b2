import BatchPlan.Proofs.Correlation.Booking

namespace BatchPlan

variable {α : Type} {x : BindM α}

structure Register where
  allowed : Nat → Captured → Prop
  ledger : Ledger

namespace Register

instance : Preorder Register where
  le w w' := w'.allowed = w.allowed ∧ w.ledger ≤ w'.ledger
  le_refl w := ⟨rfl, le_refl w.ledger⟩
  le_trans _ _ _ h h' := ⟨h'.1.trans h.1, le_trans h.2 h'.2⟩

/-- What may be read inside of a query. -/
def inside (v : Captured → Prop) (w : Register) : Register where
  allowed i := i.casesOn v w.allowed
  ledger := w.ledger

/-- A state that fits a register: the counts are those of the ledger, and the parameters of
enclosing queries and of recursive rows are in it. The columns that were read are allowed. -/
structure Fits (w : Register) (c : BindContext) (s : BindState) : Prop where
  exprs : s.names.exprs = w.ledger.exprs.length
  segments : s.names.segments = w.ledger.segments
  captured : ∀ i, ∀ e ∈ s.captured.getD i [], w.ledger.Lends (w.allowed i) e
  recursive : ∀ r ∈ c.recursive, ∀ column ∈ r.columns, w.ledger.Types column.param column.dataType

end Register

namespace BindM

variable {w : Register}

theorem logs_freshExpr_of (w : Register) (type : Option DataType) :
    Advances Register.Fits w freshExpr fun name w' =>
      name = exprName (w.ledger.exprs.length + 1) ∧ w' = ⟨w.allowed, w.ledger.add type⟩ := by
  have hle := w.ledger.le_add type
  refine .effect fun c s hs =>
    ⟨⟨w.allowed, w.ledger.add type⟩, ⟨rfl, hle⟩, ⟨?_, hs.segments, fun i e he => ?_,
    fun r hr column hcolumn => (hs.recursive r hr column hcolumn).mono hle⟩, ?_, rfl⟩
  · simp [Ledger.add, hs.exprs]
  · exact (hs.captured i e he).imp_right fun h => h.mono hle
  · simp [exprName, hs.exprs]

theorem logs_freshExpr (w : Register) : Advances Register.Fits w freshExpr fun name w' =>
    w'.ledger.Coined name ∧ w.ledger.Lacks name := by
  refine (logs_freshExpr_of w none).mono fun name w' _ ⟨hname, hw'⟩ => ?_
  subst hname hw'
  exact ⟨.inl ⟨w.ledger.exprs.length, by simp [Ledger.add], rfl⟩, w.ledger.lacks_exprName⟩

theorem logs_freshParam (w : Register) (t : DataType) :
    Advances Register.Fits w freshParam fun param w' => w'.ledger.Types param t := by
  refine (logs_freshExpr_of w (some t)).bind fun name w' _ ⟨hname, hw'⟩ => .pure ?_
  subst hname hw'
  exact ⟨w.ledger.exprs.length, rfl, by simp [Ledger.add]⟩

theorem logs_freshSegment (w : Register) : Advances Register.Fits w freshSegment fun name w' =>
    w'.ledger.Coined name ∧ w.ledger.Lacks name := by
  have hle := w.ledger.le_addSegment
  refine .effect fun c s hs =>
    ⟨⟨w.allowed, w.ledger.addSegment⟩, ⟨rfl, hle⟩, ⟨hs.exprs, ?_, fun i e he => ?_,
    fun r hr column hcolumn => (hs.recursive r hr column hcolumn).mono hle⟩, ?_⟩
  · simp [Ledger.addSegment, hs.segments]
  · exact (hs.captured i e he).imp_right fun h => h.mono hle
  · rw [hs.segments]
    exact ⟨.inr ⟨w.ledger.segments, Nat.lt_succ_self _, rfl⟩, w.ledger.lacks_segmentName⟩

theorem logs_absorb {inner : List Captured} (h : ∀ e ∈ inner, w.ledger.Lends (w.allowed 0) e) :
    Advances Register.Fits w (absorb inner) fun _ w' => w' = w := by
  refine .effect fun c s hs => ⟨w, le_refl w, ?_, rfl⟩
  dsimp only
  cases hS : s.captured with
  | nil => exact hs
  | cons own rest =>
    obtain ⟨more, hmore, hsub, -⟩ := foldl_absorb inner own
    have hcaptured := hs.captured
    rw [hS] at hcaptured
    refine ⟨hs.exprs, hs.segments, fun i e he => ?_, hs.recursive⟩
    cases i with
    | zero =>
      rw [List.getD_cons_zero, hmore] at he
      obtain he | he := List.mem_append.1 he
      · exact hcaptured 0 e he
      · exact h e (hsub e he)
    | succ i => exact hcaptured (i + 1) e he

theorem logs_capture {level : Nat} {column : Column} {dataType : DataType}
    (hallowed : ∀ param, w.allowed level ⟨⟨param, column⟩, dataType⟩) :
    Advances Register.Fits w (capture level column dataType) fun e w' => e.Logged w'.ledger := by
  refine Advances.get.bind ?_
  rintro s _ - ⟨rfl, c, hs⟩
  dsimp only
  split
  next e he =>
    exact .pure (Scalar.logged_outer.2 (hs.captured level e (List.mem_of_find?_eq_some he)).2)
  next =>
    refine (logs_freshParam _ dataType).bind fun param w' hw hparam => ?_
    have hbook : Advances Register.Fits w' (modify fun s =>
        { s with captured := s.captured.modify level (· ++ [⟨⟨param, column⟩, dataType⟩]) })
        fun _ w'' => w'' = w' := by
      refine .effect fun c s hs =>
        ⟨w', le_refl w', ⟨hs.exprs, hs.segments, fun i e he => ?_, hs.recursive⟩, rfl⟩
      by_cases hi : level = i
      · subst hi
        cases hS : s.captured[level]? with
        | none => simp [List.getD, hS] at he
        | some own =>
          have hown := hs.captured level
          simp only [List.getD, hS, Option.getD_some] at hown
          obtain he | rfl : e ∈ own ∨ e = ⟨⟨param, column⟩, dataType⟩ := by
            simpa [List.getD, hS] using he
          · exact hown e he
          · exact ⟨hw.1 ▸ hallowed param, hparam⟩
      · exact hs.captured i e (by simpa [List.getD, hi] using he)
    exact hbook.bind fun _ _ _ h => .pure (h ▸ Scalar.logged_outer.2 hparam)

theorem logs_enclosed {v : Captured → Prop} {F : α → Register → Prop}
    (hx : Advances Register.Fits (w.inside v) x F) :
    Advances Register.Fits w (enclosed x) fun r w' =>
      F r.1 (w'.inside v) ∧ ∀ e ∈ r.2, w'.ledger.Lends v e where
  of_start c s r s' hs h := by
    rw [start_enclosed] at h
    generalize hrun : x.start c { s with captured := [] :: s.captured } = run at h
    cases h
    have hinner : (w.inside v).Fits c { s with captured := [] :: s.captured } := by
      refine ⟨hs.exprs, hs.segments, fun i => ?_, hs.recursive⟩
      cases i with
      | zero => exact nofun
      | succ i => exact hs.captured i
    obtain ⟨⟨allowed, ledger⟩, ⟨rfl, hle⟩, hs₁, hok⟩ := hx.of_start c _ run.1 run.2 hinner hrun
    refine ⟨⟨w.allowed, ledger⟩, ⟨rfl, hle⟩,
      ⟨hs₁.exprs, hs₁.segments, fun i e he => ?_, hs₁.recursive⟩,
      fun _ ha => ?_⟩
    · refine hs₁.captured (i + 1) e ?_
      cases hS : run.2.captured <;> simp_all
    · obtain ⟨a, hrun, rfl⟩ := Result.exists_of_map ha
      refine ⟨hok a hrun, fun e he => hs₁.captured 0 e ?_⟩
      cases hS : run.2.captured <;> simp_all

end BindM

namespace Plan

variable {p total : Plan} {w : Ledger}

theorem isTable_of_isPlain (h : p.isPlain) : p.isTable = false := by
  cases p with
  | spool => cases h
  | _ => rfl

/-- A partition that is read twice: to be summed up, and to be handed on. -/
theorem Sound.replay (hp : p.Sound w) {id : Nat} {schema : Schema} {spec : JoinSpec}
    {kind : SpoolKind}
    {mode : SpoolMode} (type : JoinType) (htotal : total.isPlain)
    (hchildren : total.children = [.consumer id schema])
    (hvalues : ∀ e ∈ total.expressions, e.Logged w) (hloop : spec.strategy = .nestedLoop [])
    (hspec : (Plan.join p p spec).expressions = []) (hrecords : total.RecordsTypes)
    (htable : (Plan.spool id p kind mode).isTable = false) :
    Sound w
      (.join (.spool id p kind mode) (total.loop (.consumer id schema) type []) spec) := by
  have hrows : (Plan.consumer id schema).Sound w := .leaf rfl rfl nofun trivial
  have htotal := hrows.above (isTable_of_isPlain htotal) hchildren hvalues hrecords
  have hright : (total.loop (.consumer id schema) type []).Sound w :=
    htotal.join hrows (List.forall_mem_nil _) ⟨.loop rfl nofun nofun, nofun⟩
  obtain ⟨-, hdefinitions⟩ : spec.condition = none ∧ spec.definitions = [] := by
    simpa [Plan.expressions] using hspec
  refine .join (hp.above htable rfl nofun trivial) hright (fun e he => ?_)
    ⟨.loop hloop nofun (by simp [hdefinitions]), by simp [MergesSorted, hloop]⟩
  exact absurd (hspec ▸ he : e ∈ []) List.not_mem_nil

end Plan

/-- Plans record types as the ledger says. -/
def Account.typing : Account where
  World := Register
  order := inferInstance
  Value w e := e.Logged w.ledger
  Rows a w p := a.ledger ≤ w.ledger ∧ p.Sound w.ledger
  Pair a w p q := a.ledger ≤ w.ledger ∧ p.Sound w.ledger ∧ q.Sound w.ledger
  Stored _ := True
  Fresh w _ w' := w.ledger ≤ w'.ledger
  View := Captured → Prop
  query levels := Visible levels 0
  apply l levels e := Visible (l :: levels) 0 e ∨ Visible (l :: levels) 1 e
  Owns w v := w.ledger.Lends v
  inside v _ := Register.inside v
  recursing _ w := w
  Sees w levels := ∀ i e, Visible levels i e → w.allowed i e
  Around w levels := ∀ i e, Visible levels (i + 1) e → w.allowed i e
  Feeds w levels := (∀ e, Visible levels 0 e → w.allowed 0 e) ∧
    ∀ i e, Visible levels (i + 1) e → w.allowed i e
  strict := True
  ledger := Register.ledger
  value_later hw h := h.mono hw.2
  value_given h := Scalar.logged_column.2 (h trivial)
  value_made := Scalar.logged_of_madeOf
  value_operand h hd := h.operand hd
  value_inside _ _ h := h
  value_param _ h := Scalar.logged_outer.2 (h trivial)
  value_logged _ h := h
  ledger_later h := h.2
  owns_later hw h := h.imp_right fun h => h.mono hw.2
  lends _ h := h
  lends_apply _ h := h
  inside_later v _ h := ⟨by simp only [Register.inside, h.1], h.2⟩
  recursing_later _ h := h
  fresh_inside _ _ h := h
  rows_mono ha hw h := ⟨le_trans ha.2 (le_trans h.1 hw.2), h.2.mono hw.2⟩
  rows_above h hq hchildren hvalues hchecks :=
    ⟨h.1, h.2.above (Plan.isTable_of_isPlain hq) hchildren hvalues (hchecks trivial)⟩
  rows_leaf hle hp hchildren _ hvalues hchecks :=
    ⟨hle.2, .leaf (Plan.isTable_of_isPlain hp) hchildren hvalues (hchecks trivial)⟩
  rows_scan hle _ := ⟨hle.2, .leaf rfl rfl nofun trivial⟩
  pair hp hq := ⟨le_trans hp.1 hq.1, hp.2.mono hq.1, hq.2⟩
  pair_symm h := ⟨h.1, h.2.2, h.2.1⟩
  pair_later hw h := ⟨le_trans h.1 hw.2, h.2.1.mono hw.2, h.2.2.mono hw.2⟩
  pair_above h hq hchildren hvalues hchecks :=
    ⟨h.1, h.2.1.above (Plan.isTable_of_isPlain hq) hchildren hvalues (hchecks trivial), h.2.2⟩
  rows_join h _ hvalues hspec := ⟨h.1, h.2.1.join h.2.2 hvalues (hspec trivial)⟩
  rows_keep h hw hloop hvalues hspec :=
    ⟨le_trans h.1 hw, .keep (h.2.1.mono hw) (h.2.2.mono hw) hvalues
    (hspec trivial).1 (.inr ⟨_, rfl⟩) hloop (hspec trivial).2⟩
  rows_loop hp hq _ hvalues hspec :=
    ⟨le_trans hp.1 hq.1, (hp.2.mono hq.1).join hq.2 hvalues (hspec trivial)⟩
  rows_uncorrelated h _ := h
  rows_more _ h := h
  rows_top _ h := h
  rows_spool h hw htable := ⟨le_trans h.1 hw, (h.2.mono hw).above htable rfl nofun trivial⟩
  rows_replay _ _ type h hw htotal hchildren hvalues hloop hspec hchecks htable := ⟨le_trans h.1 hw,
    (h.2.mono hw).replay type htotal hchildren hvalues hloop hspec (hchecks trivial) htable⟩
  rows_stack _ _ _ hp hq hw _ _ hwhole := ⟨le_trans hp.1 (le_trans hq.1 hw),
    hwhole trivial (hp.2.mono (le_trans hq.1 hw)) (hq.2.mono hw)⟩
  rows_steps _ h := h
  rows_append h hp := ⟨le_trans h.1 hp.1, .concat (List.forall_mem_append.2
    ⟨fun p hp' => (h.2.of_concat p hp').mono hp.1, List.forall_mem_singleton.2 hp.2⟩) _⟩
  rows_columns columns h := ⟨h.1, .concat h.2.of_concat columns⟩
  rows_single h := ⟨h.1, h.2.of_concat _ (List.mem_singleton_self _)⟩
  sees_later hw h := hw.1 ▸ h
  around_later hw h := hw.1 ▸ h
  feeds_later hw h := ⟨hw.1 ▸ h.1, hw.1 ▸ h.2⟩
  sees_nil _ _ _ h := h.elim
  around_nil _ _ _ h := h.elim
  around_of_sees _ h i e he := h i e he.2
  around_of_feeds h := h.2
  sees_inside _ h i e he := by
    cases i with
    | zero => exact he
    | succ i => exact h i e he
  feeds_inside _ h := by
    refine ⟨?_, fun i e he => ?_⟩
    · rintro e ⟨f, hf, -⟩
      cases hf
    cases i with
    | zero => exact he.2
    | succ i => exact h i e he.2
  feeds_apply _ _ h := by
    refine ⟨fun e he => .inl he, fun i e he => ?_⟩
    cases i with
    | zero => exact .inr he
    | succ i => exact h.2 i e he.2

def Logic.typing : Logic where
  toAccount := .typing
  Holds w _ x F := Advances Register.Fits w x F
  lift _ h := .lift h
  bind := .bind
  rethrow hx _ := hx.rethrow fun _ => ⟨_, rfl⟩
  attempt := .attempt
  consult hf _ := .consult fun c _ _ => hf c
  overflow w := .effect fun _ _ hs =>
    ⟨w, le_refl w, ⟨hs.exprs, hs.segments, hs.captured, hs.recursive⟩, rfl⟩
  freshExpr w := (BindM.logs_freshExpr w).mono fun _ _ _ h _ => h
  freshSegment w := (BindM.logs_freshSegment w).mono fun _ _ _ h _ => h
  freshParam w type := (BindM.logs_freshParam w type).mono fun _ _ _ h _ => h
  freshSpool w := .effect fun _ _ hs =>
    ⟨w, le_refl w, ⟨hs.exprs, hs.segments, hs.captured, hs.recursive⟩,
    le_refl w.ledger⟩
  lookupVariable _ name := (Advances.lookupVariable name).mono fun _ _ _ h =>
    ⟨h.1, Scalar.logged_var _ _⟩
  tempTable _ name _ := (Advances.tempTable name).mono fun _ _ _ h => ⟨h.1, fun _ => trivial⟩
  entity _ _ _ _ := trivial
  capture hsees hnearest := BindM.logs_capture fun param => hsees _ _ (hnearest.visible param)
  enclosed := BindM.logs_enclosed
  absorb hfeeds hinner := (BindM.logs_absorb fun e he => (hinner e he).imp_left (hfeeds.1 e)).mono
    fun _ _ _ h => ⟨fun _ he => h ▸ he, fun _ _ hp => h ▸ hp⟩

theorem Logic.roams_typing : Logic.typing.Roams where
  surroundings hf := .consult fun c _ hs => hf c fun _ r hr => by
    refine ⟨le_refl _, .leaf rfl rfl ?_ trivial⟩
    simp only [RecursiveReference.plan, Plan.expressions, List.flatten_singleton]
    exact List.forall_mem_map.2 fun column hcolumn =>
      Scalar.logged_outer.2 (hs.recursive r (List.mem_of_find?_eq_some hr) column hcolumn)
  elsewhere hg hx := hx.withReader (fun c _ hs =>
    ⟨hs.exprs, hs.segments, hs.captured, hg c ▸ hs.recursive⟩)
    fun _ c _ hs => ⟨hs.exprs, hs.segments, hs.captured, hg c ▸ hs.recursive⟩
  stepping r hr hx := ⟨fun c s r' s' hs h => by
    obtain ⟨w', hw, hs', hok⟩ := hx.of_start _ s r' s'
      ⟨hs.exprs, hs.segments, hs.captured, List.forall_mem_cons.2 ⟨hr trivial, hs.recursive⟩⟩ h
    exact ⟨w', hw, ⟨hs'.exprs, hs'.segments, hs'.captured, fun q hq =>
      hs'.recursive q (List.mem_cons_of_mem _ hq)⟩,
      hok⟩⟩

end BatchPlan
