import BatchPlan.Proofs.Binding.Advance
import BatchPlan.Proofs.Binding.Queries
import BatchPlan.Proofs.Correlation.Closed

namespace BatchPlan

variable {c : Captured} {level : Nat} {α : Type} {s : BindState}
    {F : α → Bookings → Prop} {x : BindM α}

def Offered (levels : List Level) (i : Nat) (c : Captured) : Prop :=
  ∃ l, levels[i]? = some l ∧ l.Offers c

theorem not_offered_nil (i : Nat) (c : Captured) : ¬ Offered [] i c := by
  rintro ⟨l, hl, -⟩
  simp at hl

theorem offered_tail {levels : List Level} {i : Nat} :
    Offered levels.tail i c ↔ Offered levels (i + 1) c := by
  cases levels <;> rfl

/-- The bookings of all queries that are being bound have grown by those that `R` allows. -/
structure Grew (R : Nat → Captured → Prop) (before after : List (List Captured)) : Prop where
  length : after.length = before.length
  added : ∀ i, ∃ more, after.getD i [] = before.getD i [] ++ more ∧ ∀ c ∈ more, R i c

namespace Grew

variable {R R' : Nat → Captured → Prop} {S S' S'' : List (List Captured)}

theorem refl (S : List (List Captured)) : Grew R S S :=
  ⟨rfl, fun _ => ⟨[], by simp⟩⟩

theorem trans (h : Grew R S S') (h' : Grew R S' S'') : Grew R S S'' := by
  refine ⟨h'.length.trans h.length, fun i => ?_⟩
  obtain ⟨more, hmore, hR⟩ := h.added i
  obtain ⟨more', hmore', hR'⟩ := h'.added i
  refine ⟨more ++ more', by rw [hmore', hmore, List.append_assoc], fun c hc => ?_⟩
  exact (List.mem_append.1 hc).elim (hR c) (hR' c)

theorem modify (hc : R level c) : Grew R S (S.modify level (· ++ [c])) := by
  refine ⟨List.length_modify .., fun i => ?_⟩
  by_cases hi : i = level
  · subst hi
    cases hs : S[i]? with
    | none => exact ⟨[], by simp [List.getD, hs], by simp⟩
    | some own => exact ⟨[c], by simp [List.getD, hs], by simpa using hc⟩
  · exact ⟨[], by simp [List.getD, Ne.symm hi], by simp⟩

theorem cons {own more : List Captured} (h : Grew (fun i => R (i + 1)) S S')
    (hmore : ∀ c ∈ more, R 0 c) : Grew R (own :: S) ((own ++ more) :: S') := by
  refine ⟨congrArg Nat.succ h.length, fun i => ?_⟩
  cases i with
  | zero => exact ⟨more, rfl, hmore⟩
  | succ i => exact h.added i

theorem of_cons {own own' : List Captured} (h : Grew R (own :: S) (own' :: S')) :
    (∃ more, own' = own ++ more ∧ ∀ c ∈ more, R 0 c) ∧ Grew (fun i => R (i + 1)) S S' :=
  ⟨h.added 0, Nat.succ.inj h.length, fun i => h.added (i + 1)⟩

theorem mem_flatten (h : Grew R S S') (hc : c ∈ S.flatten) : c ∈ S'.flatten := by
  obtain ⟨own, hown, hc⟩ := List.mem_flatten.1 hc
  obtain ⟨i, hi⟩ := List.mem_iff_getElem?.1 hown
  obtain ⟨more, hmore, -⟩ := h.added i
  have hc' : c ∈ S'.getD i [] := by
    rw [hmore, List.mem_append]
    exact .inl (by simpa [List.getD, hi] using hc)
  cases hi' : S'[i]? with
  | none => simp [List.getD, hi'] at hc'
  | some own' =>
    exact List.mem_flatten.2 ⟨own', List.mem_of_getElem? hi', by simpa [List.getD, hi'] using hc'⟩

end Grew

/-- What can be read at a time of binding: parameters of rows, and those booked by the queries that
are being bound. The innermost query comes first, and bookings are added as `allowed`. -/
structure Bookings where
  allowed : Nat → Captured → Prop
  rows : List String
  lists : List (List Captured)

namespace Bookings

variable {p : String}

instance : Preorder Bookings where
  le w w' := w'.allowed = w.allowed ∧ w'.rows = w.rows ∧ Grew w.allowed w.lists w'.lists
  le_refl w := ⟨rfl, rfl, .refl w.lists⟩
  le_trans _ _ _ h h' := ⟨h'.1.trans h.1, h'.2.1.trans h.2.1, h.2.2.trans (h.1 ▸ h'.2.2)⟩

def params (w : Bookings) : List String :=
  w.rows ++ w.lists.flatten.map (·.binding.param)

def inside (v : Captured → Prop) (own : List Captured) (w : Bookings) : Bookings where
  allowed i := i.casesOn v w.allowed
  rows := w.rows
  lists := own :: w.lists

def recursing (params : List String) (w : Bookings) : Bookings :=
  { w with rows := params ++ w.rows }

variable {w w' : Bookings} {v : Captured → Prop} {first own : List Captured} {params : List String}

theorem params_later (h : w ≤ w') : w.params ⊆ w'.params := by
  refine List.append_subset.2 ⟨?_, ?_⟩
  · exact h.2.1 ▸ List.subset_append_left _ _
  · exact List.subset_append_of_subset_right _ (List.map_subset _ fun _ hc => h.2.2.mem_flatten hc)

theorem mem_params_inside : p ∈ (inside v own w).params ↔ p ∈ own.map (·.binding.param) ∨
    p ∈ w.params := by
  simp only [Bookings.params, inside, List.flatten_cons, List.map_append, List.mem_append]
  tauto

theorem mem_params_recursing : p ∈ (recursing params w).params ↔ p ∈ params ∨ p ∈ w.params := by
  simp only [Bookings.params, recursing, List.append_assoc, List.mem_append]

theorem inside_later (v : Captured → Prop) (own : List Captured) (h : w ≤ w') :
    inside v own w ≤ inside v own w' := by
  obtain ⟨hallowed, hrows, hgrew⟩ := h
  refine ⟨by simp only [inside, hallowed], hrows, ?_⟩
  have hlists : Grew (inside v own w).allowed (own :: w.lists) ((own ++ []) :: w'.lists) :=
    .cons hgrew nofun
  rwa [List.append_nil] at hlists

theorem le_of_inside (h : inside v first w ≤ inside v own w') : w ≤ w' :=
  ⟨funext fun i => congrFun h.1 (i + 1), h.2.1, h.2.2.of_cons.2⟩

theorem le_of_recursing (h : recursing params w ≤ recursing params w') : w ≤ w' :=
  ⟨h.1, List.append_cancel_left h.2.1, h.2.2⟩

theorem recursing_later (params : List String) (h : w ≤ w') :
    recursing params w ≤ recursing params w' :=
  ⟨h.1, congrArg (params ++ ·) h.2.1, h.2.2⟩

end Bookings

namespace Plan

variable {p q left right : Plan} {params : List String}

theorem inputs_of_isPlain (h : p.isPlain) : p.inputs = p.children.map fun child => ([], child) := by
  cases p with
  | join => cases h
  | _ => rfl

theorem params_subset_iff : p.params ⊆ params ↔ (∀ e ∈ p.expressions, e.params ⊆ params) ∧
    ∀ i ∈ p.inputs, i.2.params ⊆ i.1 ++ params := by
  constructor
  · refine fun h => ⟨fun e he x hx => h (Plan.mem_params.2 (List.mem_append.2 (.inl
      (List.mem_flatMap.2 ⟨e, he, hx⟩)))), fun i hi x hx => ?_⟩
    by_cases hown : x ∈ i.1
    · exact List.mem_append.2 (.inl hown)
    · refine List.mem_append.2
        (.inr (h (Plan.mem_params.2 (List.mem_append.2 (.inr (List.mem_flatMap.2
        ⟨i, hi, List.mem_filter.2 ⟨hx, ?_⟩⟩))))))
      simpa using hown
  · rintro ⟨hvalues, hinputs⟩ x hx
    obtain hx | hx := List.mem_append.1 (Plan.mem_params.1 hx)
    · obtain ⟨e, he, hx⟩ := List.mem_flatMap.1 hx
      exact hvalues e he hx
    · obtain ⟨i, hi, hx⟩ := List.mem_flatMap.1 hx
      obtain ⟨hx, hown⟩ := List.mem_filter.1 hx
      exact (List.mem_append.1 (hinputs i hi hx)).resolve_left (by simpa using hown)

theorem params_subset_above (h : p.params ⊆ params) (hq : q.isPlain) (hchildren : q.children = [p])
    (hvalues : ∀ e ∈ q.expressions, e.params ⊆ params) : q.params ⊆ params := by
  refine params_subset_iff.2 ⟨hvalues, ?_⟩
  rw [inputs_of_isPlain hq, hchildren]
  exact List.forall_mem_singleton.2 h

theorem params_subset_join {spec : JoinSpec} (hleft : left.params ⊆ params)
    (hright : right.params ⊆ spec.strategy.bindings.map (·.param) ++ params)
    (hvalues : ∀ e ∈ (join left right spec).expressions, e.params ⊆ params) :
    (join left right spec).params ⊆ params :=
  params_subset_iff.2 ⟨hvalues, List.forall_mem_cons.2 ⟨hleft, List.forall_mem_singleton.2 hright⟩⟩

theorem params_subset_spool (h : p.params ⊆ params) (id : Nat) (kind : SpoolKind)
    (mode : SpoolMode) : (spool id p kind mode).params ⊆ params :=
  params_subset_iff.2 ⟨nofun, List.forall_mem_singleton.2 h⟩

theorem params_subset_concat {inputs : List Plan} {columns : List ConcatColumn} :
    (concat inputs columns).params ⊆ params ↔ ∀ p ∈ inputs, p.params ⊆ params := by
  simp only [Plan.params, paramsOfList_eq, List.subset_def, List.mem_flatMap]
  grind

theorem params_subset_consumer (id : Nat) (schema : Schema) :
    (consumer id schema).params ⊆ params :=
  params_subset_iff.2 ⟨nofun, nofun⟩

end Plan

/-- What a source reads of the nearest row to its left, or of the query around its block. -/
def FromSource (l : Level) (levels : List Level) (c : Captured) : Prop :=
  Offered (l :: levels) 0 c ∨ Offered levels 0 c

/-- Plans read parameters that can be read when they are made. -/
def Account.correlation : Account where
  World := Bookings
  Value w e := e.params ⊆ w.params
  Rows a w p := a ≤ w ∧ p.params ⊆ w.params
  Pair a w p q := a ≤ w ∧ p.params ⊆ w.params ∧ q.params ⊆ w.params
  Stored _ := True
  Fresh w _ w' := w ≤ w'
  View := Captured → Prop
  query levels := Offered levels 0
  apply := FromSource
  Owns _ v := v
  inside := Bookings.inside
  recursing := Bookings.recursing
  Sees w levels := levels.length ≤ w.lists.length ∧ ∀ i c, Offered levels i c → w.allowed i c
  Around w levels := levels.length ≤ w.lists.length + 1 ∧
    ∀ i c, Offered levels (i + 1) c → w.allowed i c
  Feeds w levels := (levels.length ≤ w.lists.length + 1 ∧ ∀ i c, Offered levels (i + 1) c →
    w.allowed i c) ∧ 0 < w.lists.length ∧ ∀ c, Offered levels 0 c → w.allowed 0 c
  value_later hw h := List.Subset.trans h (Bookings.params_later hw)
  value_given _ := by simp
  value_made hmade hvalues p hp := by
    obtain ⟨v, hv, hp⟩ := List.mem_flatMap.1 (Scalar.mem_params_of_madeOf hmade hp)
    exact hvalues v hv hp
  value_operand h hd := List.Subset.trans (Scalar.params_operand hd) h
  value_inside _ _ h p hp := Bookings.mem_params_inside.2 (.inr (h hp))
  value_param hparam _ p hp := by
    rw [Scalar.params_outer, List.mem_singleton] at hp
    exact Bookings.mem_params_recursing.2 (.inl (hp ▸ hparam))
  owns_later _ h := h
  inside_later := Bookings.inside_later
  recursing_later := Bookings.recursing_later
  fresh_inside := Bookings.inside_later
  rows_mono ha hw h := ⟨le_trans ha (le_trans h.1 hw),
    List.Subset.trans h.2 (Bookings.params_later hw)⟩
  rows_above h hq hchildren hvalues _ := ⟨h.1, Plan.params_subset_above h.2 hq hchildren hvalues⟩
  rows_leaf hle hp hchildren _ hvalues _ := by
    refine ⟨hle, Plan.params_subset_iff.2 ⟨hvalues, ?_⟩⟩
    rw [Plan.inputs_of_isPlain hp, hchildren]
    nofun
  rows_scan hle _ := ⟨hle, by simp⟩
  pair hp hq := ⟨le_trans hp.1 hq.1, List.Subset.trans hp.2 (Bookings.params_later hq.1), hq.2⟩
  pair_symm h := ⟨h.1, h.2.2, h.2.1⟩
  pair_later hw h := ⟨le_trans h.1 hw, List.Subset.trans h.2.1 (Bookings.params_later hw),
    List.Subset.trans h.2.2 (Bookings.params_later hw)⟩
  pair_above h hq hchildren hvalues _ :=
    ⟨h.1, Plan.params_subset_above h.2.1 hq hchildren hvalues, h.2.2⟩
  rows_join h _ hvalues _ :=
    ⟨h.1, Plan.params_subset_join h.2.1 (List.subset_append_of_subset_right _ h.2.2) hvalues⟩
  rows_keep h hw _ hvalues _ := ⟨le_trans h.1 hw, Plan.params_subset_join
    (List.Subset.trans h.2.1 (Bookings.params_later hw)) (List.subset_append_of_subset_right _
    (Plan.params_subset_spool (List.Subset.trans h.2.2 (Bookings.params_later hw)) _ _ _)) hvalues⟩
  rows_loop hp hq hbindings hvalues _ := by
    have hle := Bookings.le_of_inside hq.1
    refine ⟨le_trans hp.1 hle, Plan.params_subset_join
      (List.Subset.trans hp.2 (Bookings.params_later hle))
      (fun p hp => ?_) hvalues⟩
    rw [hbindings, List.map_map]
    exact List.mem_append.2 (Bookings.mem_params_inside.1 (hq.2 hp))
  rows_uncorrelated h hp := by
    refine ⟨Bookings.le_of_inside h.1, ?_⟩
    rw [Plan.isCorrelated, Bool.not_eq_false', List.isEmpty_iff] at hp
    rw [hp]
    exact List.nil_subset _
  rows_more hown h := by
    refine ⟨Bookings.inside_later _ _ (Bookings.le_of_inside h.1), fun p hp => ?_⟩
    obtain hp | hp := Bookings.mem_params_inside.1 (h.2 hp)
    · exact Bookings.mem_params_inside.2 (.inl (List.map_subset _ hown hp))
    · exact Bookings.mem_params_inside.2 (.inr hp)
  rows_top hown h := by
    refine ⟨Bookings.le_of_inside h.1, fun p hp => ?_⟩
    obtain hp | hp := Bookings.mem_params_inside.1 (h.2 hp)
    · obtain ⟨c, hc, -⟩ := List.mem_map.1 hp
      exact absurd (hown c hc) (not_offered_nil 0 c)
    · exact hp
  rows_spool h hw _ := ⟨le_trans h.1 hw,
    Plan.params_subset_spool (List.Subset.trans h.2 (Bookings.params_later hw)) _ _ _⟩
  rows_replay kind mode type h hw htotal hchildren hvalues _ hspec _ _ := by
    have htotal := Plan.params_subset_above (Plan.params_subset_consumer _ _)
      htotal hchildren hvalues
    refine ⟨le_trans h.1 hw, Plan.params_subset_join (Plan.params_subset_spool
      (List.Subset.trans h.2 (Bookings.params_later hw)) _ kind mode)
      (List.subset_append_of_subset_right _
      (Plan.params_subset_join htotal (Plan.params_subset_consumer _ _) nofun)) fun e he => ?_⟩
    exact absurd (hspec ▸ he : e ∈ []) List.not_mem_nil
  rows_stack columns kind mode hp hq hw hparams hspec _ := by
    have hle := Bookings.le_of_recursing hq.1
    refine ⟨le_trans hp.1 (le_trans hle hw), Plan.params_subset_spool
      (Plan.params_subset_concat.2 ?_) _ kind mode⟩
    refine List.forall_mem_cons.2 ⟨List.Subset.trans hp.2 (Bookings.params_later (le_trans hle hw)),
      List.forall_mem_singleton.2 ?_⟩
    rw [Plan.params_bounded]
    refine Plan.params_subset_join (Plan.params_subset_consumer _ _) (fun p hp => ?_) fun e he =>
      absurd (hspec ▸ he : e ∈ []) List.not_mem_nil
    exact List.mem_append.2 ((Bookings.mem_params_recursing.1 (hq.2 hp)).imp (hparams ·)
      (Bookings.params_later hw ·))
  rows_steps hparams h := by
    refine ⟨Bookings.recursing_later _ (Bookings.le_of_recursing h.1), fun p hp => ?_⟩
    exact Bookings.mem_params_recursing.2
      ((Bookings.mem_params_recursing.1 (h.2 hp)).imp_left (hparams ·))
  rows_append h hp := ⟨le_trans h.1 hp.1, Plan.params_subset_concat.2 (List.forall_mem_append.2
    ⟨fun q hq => List.Subset.trans (Plan.params_subset_concat.1 h.2 q hq)
      (Bookings.params_later hp.1), List.forall_mem_singleton.2 hp.2⟩)⟩
  rows_columns _ h := ⟨h.1, Plan.params_subset_concat.2 (Plan.params_subset_concat.1 h.2)⟩
  rows_single h := ⟨h.1, Plan.params_subset_concat.1 h.2 _ (List.mem_singleton.2 rfl)⟩
  sees_later hw h := ⟨hw.2.2.length ▸ h.1, hw.1 ▸ h.2⟩
  around_later hw h := ⟨hw.2.2.length ▸ h.1, hw.1 ▸ h.2⟩
  feeds_later hw h := ⟨⟨hw.2.2.length ▸ h.1.1, hw.1 ▸ h.1.2⟩, hw.2.2.length ▸ h.2.1, hw.1 ▸ h.2.2⟩
  sees_nil _ := ⟨Nat.zero_le _, fun i c h => absurd h (not_offered_nil i c)⟩
  around_nil _ := ⟨Nat.zero_le _, fun i c h => absurd h (not_offered_nil (i + 1) c)⟩
  around_of_sees _ h := ⟨Nat.succ_le_succ h.1, h.2⟩
  around_of_feeds h := h.1
  sees_inside _ h := ⟨h.1, fun i c hc => by
    cases i with
    | zero => exact hc
    | succ i => exact h.2 i c hc⟩
  feeds_inside _ h := by
    refine ⟨⟨Nat.succ_le_succ h.1, fun i c hc => ?_⟩, Nat.succ_pos _, ?_⟩
    · cases i with
      | zero => exact hc
      | succ i => exact h.2 i c hc
    · rintro c ⟨_, ⟨⟩, f, hf, -⟩
      cases hf
  feeds_apply _ _ h := by
    refine ⟨⟨Nat.succ_le_succ h.1.1, fun i c hc => ?_⟩, Nat.succ_pos _, fun c hc => .inl hc⟩
    cases i with
    | zero => exact .inr hc
    | succ i => exact h.1.2 i c hc

def BindContext.rowParams (c : BindContext) : List String :=
  c.recursive.flatMap fun r => r.columns.map (·.param)

/-- The rows in view can be read, and bookings are as they are told. -/
structure Bookings.Fits (w : Bookings) (c : BindContext) (s : BindState) : Prop where
  rows : c.rowParams ⊆ w.rows
  lists : s.captured = w.lists

namespace BindM

variable {w : Bookings}

theorem foldl_absorb (inner own : List Captured) :
    ∃ more, inner.foldl (fun own c =>
        if own.any fun o => o.binding.param == c.binding.param then own else own ++ [c]) own =
      own ++ more ∧ (∀ c ∈ more, c ∈ inner) ∧
      ∀ c ∈ inner, c.binding.param ∈ (own ++ more).map (·.binding.param) := by
  induction inner generalizing own with
  | nil => exact ⟨[], by simp⟩
  | cons c inner ih =>
    rw [List.foldl_cons]
    split
    next h =>
      obtain ⟨more, hmore, hsub, hall⟩ := ih own
      exact ⟨more, hmore, by grind, by grind⟩
    next =>
      obtain ⟨more, hmore, hsub, hall⟩ := ih (own ++ [c])
      exact ⟨c :: more, by rw [hmore]; simp, by grind, by grind⟩

theorem books_absorb {inner : List Captured} (hpos : 0 < w.lists.length)
    (hinner : ∀ c ∈ inner, w.allowed 0 c) :
    Advances Bookings.Fits w (absorb inner) fun _ w' => w ≤ w' ∧
    ∀ v, (w.inside v inner).params ⊆ w'.params := by
  refine .effect fun c s hs => ?_
  obtain ⟨allowed, rows, lists⟩ := w
  cases lists with
  | nil => cases hpos
  | cons own rest =>
    obtain ⟨more, hmore, hsub, hall⟩ := foldl_absorb inner own
    have hle : (⟨allowed, rows, own :: rest⟩ : Bookings) ≤ ⟨allowed, rows, (own ++ more) :: rest⟩ :=
      ⟨rfl, rfl, .cons (.refl rest) fun c hc => hinner c (hsub c hc)⟩
    refine ⟨⟨allowed, rows, (own ++ more) :: rest⟩, hle, ⟨hs.rows, ?_⟩, hle, fun v p hp => ?_⟩
    · simp only [hs.lists, hmore]
    · obtain hp | hp := Bookings.mem_params_inside.1 hp
      · obtain ⟨c, hc, rfl⟩ := List.mem_map.1 hp
        have := hall c hc
        simp only [Bookings.params, List.flatten_cons, List.map_append, List.mem_append] at this ⊢
        tauto
      · exact Bookings.params_later hle hp

theorem books_freshParam (w : Bookings) : Advances Bookings.Fits w freshParam fun _ w' => w' = w :=
  .map (P := fun _ w' => w' = w) (.effect fun _ _ hs => ⟨w, le_refl w, ⟨hs.rows, hs.lists⟩, rfl⟩)
    fun _ _ _ h => h

theorem books_capture {column : Column} {dataType : DataType} (hlevel : level < w.lists.length)
    (hallowed : ∀ param, w.allowed level ⟨⟨param, column⟩, dataType⟩) :
    Advances Bookings.Fits w (capture level column dataType) fun e w' => e.params ⊆ w'.params := by
  have hbooked {w : Bookings} {c : Captured} (hc : c ∈ w.lists.getD level []) (type : DataType) :
      (Scalar.outer c.binding.param type).params ⊆ w.params := by
    rw [Scalar.params_outer]
    refine List.cons_subset.2 ⟨List.mem_append.2 (.inr (List.mem_map_of_mem ?_)), List.nil_subset _⟩
    cases hi : w.lists[level]? with
    | none => simp [List.getD, hi] at hc
    | some own =>
      exact List.mem_flatten.2 ⟨own, List.mem_of_getElem? hi, by simpa [List.getD, hi] using hc⟩
  refine Advances.get.bind fun s w₁ _ h => ?_
  obtain ⟨rfl, c, hs⟩ := h
  dsimp only
  rw [hs.lists]
  split
  next c hc => exact .pure (hbooked (List.mem_of_find?_eq_some hc) _)
  next =>
    refine (books_freshParam w₁).bind fun param w₂ _ h => ?_
    subst h
    refine Advances.bind (P := fun _ w' => (⟨⟨param, column⟩, dataType⟩ : Captured) ∈
      w'.lists.getD level []) (.effect fun _ s hs => ?_) fun _ _ _ h => .pure (hbooked h _)
    refine ⟨⟨w₂.allowed, w₂.rows, w₂.lists.modify level (· ++ [⟨⟨param, column⟩, dataType⟩])⟩,
      ⟨rfl, rfl, .modify (hallowed param)⟩, ⟨hs.rows, by simp only [hs.lists]⟩, ?_⟩
    simp [List.getD, hlevel]

theorem books_enclosed {v : Captured → Prop} (hx : Advances Bookings.Fits (w.inside v []) x F) :
    Advances Bookings.Fits w (enclosed x) fun r w' => F r.1 (w'.inside v r.2) ∧ ∀ c ∈ r.2, v c where
  of_start c s r s' hs h := by
    rw [start_enclosed] at h
    generalize hrun : x.start c { s with captured := [] :: s.captured } = run at h
    cases h
    obtain ⟨⟨allowed, rows, lists⟩, ⟨rfl, rfl, hgrew⟩, hs₁, hok⟩ :=
      hx.of_start c _ run.1 run.2 ⟨hs.rows, congrArg ([] :: ·) hs.lists⟩ hrun
    cases lists with
    | nil => cases hgrew.length
    | cons own rest =>
      obtain ⟨⟨more, hown, hmore⟩, hrest⟩ := hgrew.of_cons
      rw [List.nil_append] at hown
      subst hown
      refine ⟨⟨w.allowed, w.rows, rest⟩, ⟨rfl, rfl, hrest⟩, ⟨hs.rows, by simp [hs₁.lists]⟩,
        fun _ ha => ?_⟩
      obtain ⟨a, hrun, rfl⟩ := Result.exists_of_map ha
      rw [hs₁.lists]
      exact ⟨hok a hrun, hmore⟩

end BindM

def Logic.correlation : Logic where
  toAccount := .correlation
  Holds w _ x F := Advances Bookings.Fits w x F
  lift _ h := .lift h
  bind := .bind
  rethrow hx _ := hx.rethrow fun _ => ⟨_, rfl⟩
  attempt := .attempt
  consult hf _ := .consult fun c _ _ => hf c
  overflow w := .effect fun _ _ hs => ⟨w, le_refl w, ⟨hs.rows, hs.lists⟩, rfl⟩
  freshExpr w := .effect fun _ _ hs => ⟨w, le_refl w, ⟨hs.rows, hs.lists⟩, nofun⟩
  freshSegment w := .effect fun _ _ hs => ⟨w, le_refl w, ⟨hs.rows, hs.lists⟩, nofun⟩
  freshParam w _ := (BindM.books_freshParam w).mono fun _ _ _ _ => nofun
  freshSpool w := .effect fun _ _ hs => ⟨w, le_refl w, ⟨hs.rows, hs.lists⟩, le_refl w⟩
  lookupVariable _ name := (Advances.lookupVariable name).mono fun _ _ _ h =>
    ⟨h.1, List.nil_subset _⟩
  tempTable _ name _ := (Advances.tempTable name).mono fun _ _ _ h => ⟨h.1, fun _ => trivial⟩
  entity _ _ _ _ := trivial
  capture hsees hnearest := by
    obtain ⟨l, hl, hfound⟩ := hnearest.owner
    refine BindM.books_capture (Nat.lt_of_lt_of_le (List.getElem?_eq_some_iff.1 hl).1 hsees.1)
      fun _ => hsees.2 _ _ ⟨l, hl, _, ?_, rfl, rfl⟩
    exact (Schema.mem_of_candidates hfound).1
  enclosed := BindM.books_enclosed
  absorb hfeeds hinner := (BindM.books_absorb hfeeds.2.1 fun c hc =>
    hfeeds.2.2 c (hinner c hc)).mono
    fun _ _ _ h => ⟨fun _ he => List.Subset.trans he (h.2 _), fun _ _ hp =>
      ⟨le_trans (Bookings.le_of_inside hp.1) h.1, List.Subset.trans hp.2 (h.2 _)⟩⟩

theorem Advances.captured_length {w : Bookings} {c : BindContext} {s' : BindState} {r : Result α}
    (h : Advances Bookings.Fits w x F) (hs : w.Fits c s) (hx : x.start c s = (r, s')) :
    s'.captured.length = s.captured.length := by
  obtain ⟨w', hw, hs', -⟩ := h.of_start c s r s' hs hx
  rw [hs'.lists, hs.lists]
  exact hw.2.2.length

def Block.bookings (k : Block) (c : BindContext) (s : BindState) : Bookings where
  allowed _ _ := True
  rows := c.rowParams ++ (k.plan.params ++ k.scope.computed.flatMap (·.2.params))
  lists := s.captured

theorem Block.bookings_fits (k : Block) (c : BindContext) (s : BindState) :
    (k.bookings c s).Fits c s :=
  ⟨List.subset_append_left _ _, rfl⟩

theorem Block.fits_bookings {k : Block} (h : k.scope.outer.length ≤ s.captured.length)
    (c : BindContext) : k.Fits .correlation (k.bookings c s) (k.bookings c s) where
  plan := ⟨⟨le_refl _, fun p hp => by simp [Bookings.params, bookings, hp]⟩, nofun⟩
  scope.outer := ⟨h, fun _ _ _ => trivial⟩
  scope.computed entry hentry p hp := List.mem_append_left _
    (List.mem_append_right _ (List.mem_append_right _
    (List.mem_flatMap.2 ⟨entry, hentry, hp⟩)))
  scope.names := nofun
  schema := nofun

theorem BindContext.params_reference {c : BindContext} {name : String} {r : RecursiveReference}
    (h : c.recursiveReference? name = some r) : r.plan.root.params ⊆ c.rowParams := by
  intro p hp
  refine List.mem_flatMap.2 ⟨r, List.mem_of_find?_eq_some h, ?_⟩
  simpa [RecursiveReference.plan, List.flatMap_map, eq_comm] using hp

theorem Logic.roams_correlation : Logic.correlation.Roams where
  surroundings hf := .consult fun c _ hs => hf c fun _ _ hr => ⟨le_refl _, fun _ hp =>
    List.mem_append.2 (.inl (hs.rows (c.params_reference hr hp)))⟩
  elsewhere hg hx := hx.withReader (fun c s hs =>
    ⟨by rw [BindContext.rowParams, hg]; exact hs.rows, hs.lists⟩)
    fun w' c s hs =>
      ⟨by have := hs.rows; rw [BindContext.rowParams, hg] at this; exact this, hs.lists⟩
  stepping r _ hx := ⟨fun c s r' s' hs h => by
    obtain ⟨⟨allowed, rows, lists⟩, hw, hs', hok⟩ := hx.of_start _ s r' s'
      ⟨List.append_subset.2 ⟨List.subset_append_left _ _,
        List.subset_append_of_subset_right _ hs.rows⟩, hs.lists⟩ h
    obtain ⟨rfl, rfl, hgrew⟩ := hw
    exact ⟨⟨_, _, lists⟩, ⟨rfl, rfl, hgrew⟩, ⟨hs.rows, hs'.lists⟩, hok⟩⟩

end BatchPlan
