import BatchPlan.Proofs.Framing.Frames
import BatchPlan.Proofs.Meaning.Sorting
import Mathlib.Data.List.Sort

namespace BatchPlan

open BindM

variable {row : Row} {columns : List Column} {state : Nat × Nat} {w : WindowInput} {mark : String}

/-- The number of a row in its partition and its value, after those of the row before. -/
def AggregateFunction.next (f : AggregateFunction) (begins differs : Bool) (state : Nat × Nat) :
    Nat × Nat :=
  let number := if begins then 1 else state.1 + 1
  (number, match f with
    | .rank => if differs then number else state.2
    | .denseRank => (if begins then 0 else state.2) + if differs then 1 else 0
    | _ => number)

/-- Values along rows that are given by their marks. -/
def AggregateFunction.counted (f : AggregateFunction) : Nat × Nat → List (Bool × Bool) → List Nat
  | _, [] => []
  | state, (begins, differs) :: rest =>
    (f.next begins differs state).2 :: f.counted (f.next begins differs state) rest

def Schema.marks (s : Schema) (mark : Column) (row : Row) : Bool :=
  s.read row mark == .boolean true

def SequenceValue.counts (v : SequenceValue) (s : Schema) (rows : List Row) : List Nat :=
  v.function.counted (0, 0) (rows.map fun row =>
    (s.marks v.segment row, v.rankSegment.any (s.marks · row)))

/-- The rows of a plan over windows, where those of all other operators are given. -/
def Plan.ranked (o : ValueOrder) (source : Plan → List Row) : Plan → List Row
  | .sort input keys => (input.ranked o source).insertionSort (o.rowLe input.schema keys · ·)
  | .segment input columns _ => marked (o.agree input.schema columns) none (input.ranked o source)
  | .sequence input values =>
    values.foldl (fun rows v => List.zipWith (fun row n => row ++ [.int64 n]) rows
      (v.counts input.schema (input.ranked o source))) (input.ranked o source)
  | p => source p

namespace WindowInput

variable (w : WindowInput) (o : ValueOrder)

def peers (row other : Row) : Bool :=
  o.agree w.plan.schema w.partitionBy row other

def ties (row other : Row) : Bool :=
  o.agree w.plan.schema (w.keys.map (·.column)) row other

def ahead (row other : Row) : Bool :=
  w.peers o row other && !o.rowLe w.plan.schema w.orderBy row other

/-- The value of a ranking for a row with some rows before it. -/
def place (f : AggregateFunction) (rows before : List Row) (row : Row) : Nat :=
  match f with
  | .rank => 1 + (rows.filter (w.ahead o row)).length
  | .denseRank => 1 + (firsts (o.agree w.plan.schema (w.orderBy.map (·.column)))
      (rows.filter (w.ahead o row))).length
  | _ => 1 + (before.filter (w.peers o row)).length

end WindowInput

section Distinct

variable {α : Type} {alike : α → α → Bool}

theorem firsts_subset (l : List α) : firsts alike l ⊆ l := by
  induction l with
  | nil => simp [firsts]
  | cons a rest ih => exact List.cons_subset_cons a fun b hb => ih (List.mem_of_mem_filter hb)

theorem firsts_filter {p : α → Bool} (hp : ∀ a b, alike a b → p a = p b) (l : List α) :
    firsts alike (l.filter p) = (firsts alike l).filter p := by
  induction l with
  | nil => rfl
  | cons a rest ih =>
    cases ha : p a with
    | true => simp [firsts, ha, ih, List.filter_filter, Bool.and_comm]
    | false =>
      rw [List.filter_cons_of_neg (by simp [ha]), ih, firsts,
        List.filter_cons_of_neg (by simp [ha]), List.filter_filter]
      refine List.filter_congr fun b _ => ?_
      cases hb : p b with
      | false => rfl
      | true =>
        have hab : alike a b = false := Bool.eq_false_iff.2 fun hab => by
          simpa [ha, hb] using hp a b hab
        simp [hab]

theorem length_firsts_eq_one {a : α} {l : List α} (ha : a ∈ l) (h : ∀ b ∈ l, ∀ c ∈ l, alike b c) :
    (firsts alike l).length = 1 := by
  obtain - | ⟨first, rest⟩ := l
  · simp at ha
  · rw [firsts, List.length_cons, List.filter_eq_nil_iff.2, List.length_nil]
    intro b hb
    simp [h first (by simp) b (List.mem_cons_of_mem _ (firsts_subset rest hb))]

end Distinct

namespace ValueOrder

variable {o : ValueOrder} {s : Schema} {columns : List Column} {keys : List SortKey} {a b c : Row}

theorem agree_trans (hab : o.agree s columns a b) (hbc : o.agree s columns b c) :
    o.agree s columns a c := by
  simp only [agree, List.all_eq_true, Bool.and_eq_true] at *
  exact fun c hc => ⟨o.trans (hab c hc).1 (hbc c hc).1, o.trans (hbc c hc).2 (hab c hc).2⟩

theorem agree_congr (h : o.agree s columns a b) : o.agree s columns a c = o.agree s columns b c :=
  Bool.eq_iff_iff.2 ⟨agree_trans (agree_symm.symm.trans h), agree_trans h⟩

theorem agree_append {more : List Column} :
    o.agree s (columns ++ more) a b = (o.agree s columns a b && o.agree s more a b) :=
  List.all_append

/-- A row that is equal to an earlier one is equal to the one right before it. -/
theorem agree_getLast {before after : List Row}
    (h : (before ++ a :: after).Pairwise (o.rowLe s keys · ·))
    (hb : b ∈ before) (hba : o.agree s (keys.map (·.column)) b a) :
    ∃ last ∈ before.getLast?, o.agree s (keys.map (·.column)) last a := by
  obtain rfl | ⟨init, last, rfl⟩ := before.eq_nil_or_concat'
  · simp at hb
  · refine ⟨last, by simp, ?_⟩
    rw [List.pairwise_append, List.pairwise_append] at h
    obtain hb | hb := List.mem_append.1 hb
    · exact agree_of_between (h.1.2.2 b hb last (by simp)) (h.2.2 last (by simp) a (by simp)) hba
    · rwa [List.mem_singleton.1 hb] at hba

end ValueOrder

namespace WindowInput

variable {w : WindowInput} {o : ValueOrder} {f : AggregateFunction} {rows seen rest : List Row}
  {row other : Row}

theorem keys_columns (w : WindowInput) :
    w.keys.map (·.column) = w.partitionBy ++ w.orderBy.map (·.column) := by
  rw [keys, List.map_append, columns_asc]

theorem ties_eq : w.ties o row other =
    (w.peers o row other && o.agree w.plan.schema (w.orderBy.map (·.column)) row other) := by
  rw [ties, keys_columns, ValueOrder.agree_append, peers]

def Sorted (w : WindowInput) (o : ValueOrder) (rows : List Row) : Prop :=
  rows.Pairwise (o.rowLe w.plan.schema w.keys · ·)

theorem Sorted.partition (h : w.Sorted o rows) : rows.Pairwise
    (o.rowLe w.plan.schema (w.partitionBy.map (SortKey.mk · .asc)) · ·) := by
  refine h.imp fun hle => ?_
  rw [keys, ValueOrder.rowLe_append, Bool.and_eq_true] at hle
  exact hle.1

theorem rowLe_orderBy (h : o.rowLe w.plan.schema w.keys row other) (hpeers : w.peers o row other) :
    o.rowLe w.plan.schema w.orderBy row other := by
  have hback : o.rowLe w.plan.schema (w.partitionBy.map (SortKey.mk · .asc)) other row := by
    rw [peers, ← columns_asc w.partitionBy, ValueOrder.agree_columns, Bool.and_eq_true] at hpeers
    exact hpeers.2
  rw [keys, ValueOrder.rowLe_append, hback] at h
  simp_all

/-- Rows before the first row of a partition are in other partitions. -/
theorem Sorted.filter_peers (h : w.Sorted o (seen ++ row :: rest))
    (hlast : seen.getLast?.any (w.peers o · row) = false) : seen.filter (w.peers o row) = [] := by
  refine List.filter_eq_nil_iff.2 fun x hx hpeers => ?_
  rw [peers, ValueOrder.agree_symm, ← columns_asc w.partitionBy] at hpeers
  obtain ⟨last, hmem, hagree⟩ := ValueOrder.agree_getLast h.partition hx hpeers
  rw [columns_asc] at hagree
  rw [Option.mem_def.1 hmem, Option.any_some, peers, hagree] at hlast
  cases hlast

/-- Where the order changes, all rows of the partition so far are ahead, and no others. -/
theorem Sorted.filter_ahead (h : w.Sorted o (seen ++ row :: rest))
    (hlast : seen.getLast?.any (w.ties o · row) = false) :
    (seen ++ row :: rest).filter (w.ahead o row) = seen.filter (w.peers o row) := by
  have hpairs := List.pairwise_append.1 h
  have hafter : (row :: rest).filter (w.ahead o row) = [] := by
    refine List.filter_eq_nil_iff.2 fun y hy hahead => ?_
    simp only [ahead, Bool.and_eq_true, Bool.not_eq_true'] at hahead
    have hle : o.rowLe w.plan.schema w.keys row y := by
      obtain rfl | hy := List.mem_cons.1 hy
      · simpa using ValueOrder.rowLe_total (o := o) w.keys y y
      · exact (List.pairwise_cons.1 hpairs.2.1).1 y hy
    rw [rowLe_orderBy hle hahead.1] at hahead
    cases hahead.2
  rw [List.filter_append, hafter, List.append_nil]
  refine List.filter_congr fun x hx => ?_
  rw [ahead, Bool.and_eq_left_iff_imp]
  intro hpeers
  by_contra hle
  have hpeers' : w.peers o x row := ValueOrder.agree_symm.trans hpeers
  have hties : w.ties o x row := by
    rw [ties_eq, ValueOrder.agree_columns, hpeers',
      rowLe_orderBy (hpairs.2.2 x hx row (by simp)) hpeers']
    simpa using hle
  obtain ⟨last, hmem, hagree⟩ := ValueOrder.agree_getLast h hx hties
  rw [Option.mem_def.1 hmem, Option.any_some, ties, hagree] at hlast
  cases hlast

theorem ahead_congr (h : w.ties o row other) : w.ahead o row = w.ahead o other := by
  rw [ties_eq, Bool.and_eq_true] at h
  funext x
  rw [ahead, ahead, peers, ValueOrder.agree_congr h.1, ValueOrder.rowLe_congr_left h.2, peers]

/-- One more value of the order is ahead of a row than of the row before, if the order changes
there. -/
theorem Sorted.length_firsts {init : List Row} {last : Row}
    (h : w.Sorted o (init ++ [last] ++ row :: rest))
    (hpeers : w.peers o last row) (hties : w.ties o last row = false) :
    let alike := o.agree w.plan.schema (w.orderBy.map (·.column))
    let rows := init ++ [last] ++ row :: rest
    (firsts alike (rows.filter (w.ahead o row))).length =
      (firsts alike (rows.filter (w.ahead o last))).length + 1 := by
  intro alike rows
  have hlast : o.rowLe w.plan.schema w.orderBy last row :=
    rowLe_orderBy ((List.pairwise_append.1 h).2.2 last (by simp) row (by simp)) hpeers
  have hfilter := h.filter_ahead (by simpa using hties)
  -- those ahead of the row are ahead of the last one, or tied with it
  have hbefore : (rows.filter (w.ahead o row)).filter
    (fun x => !o.rowLe w.plan.schema w.orderBy last x) =
      rows.filter (w.ahead o last) := by
    rw [List.filter_filter]
    refine List.filter_congr fun x _ => ?_
    rw [ahead, ahead, peers, peers, ← ValueOrder.agree_congr hpeers]
    have hle := ValueOrder.rowLe_trans hlast (c := x)
    grind
  have htied : (firsts alike ((rows.filter (w.ahead o row)).filter
      fun x => o.rowLe w.plan.schema w.orderBy last x)).length = 1 := by
    rw [show rows.filter (w.ahead o row) = _ from hfilter]
    have hmem (x : Row) (hx : x ∈ ((init ++ [last]).filter (w.peers o row)).filter
        fun x => o.rowLe w.plan.schema w.orderBy last x) : alike last x := by
      simp only [List.mem_filter, List.mem_append, List.mem_singleton] at hx
      obtain ⟨⟨hx | rfl, hxrow⟩, hle⟩ := hx
      · have hxlast : w.peers o x last := ValueOrder.agree_symm.trans
          (ValueOrder.agree_trans hpeers hxrow)
        have hkeys := (List.pairwise_append.1 (List.pairwise_append.1 h).1).2.2 x hx last (by simp)
        simp only [alike, ValueOrder.agree_columns, hle, rowLe_orderBy hkeys hxlast, Bool.and_self]
      · simp only [alike, ValueOrder.agree_columns, hle, Bool.and_self]
    refine length_firsts_eq_one (a := last) ?_ fun b hb c hc =>
      ValueOrder.agree_trans (ValueOrder.agree_symm.trans (hmem b hb)) (hmem c hc)
    have hrefl : o.rowLe w.plan.schema w.orderBy last last :=
      or_self_iff.1 (ValueOrder.rowLe_total ..)
    have hback : w.peers o row last := ValueOrder.agree_symm.trans hpeers
    simp [hrefl, hback]
  have hsplit := List.length_eq_length_filter_add (l := firsts alike (rows.filter (w.ahead o row)))
    fun x => !o.rowLe w.plan.schema w.orderBy last x
  have hinvariant (x y : Row) (hxy : alike x y) :
      o.rowLe w.plan.schema w.orderBy last x = o.rowLe w.plan.schema w.orderBy last y :=
    ValueOrder.rowLe_congr_right hxy
  simp only [Bool.not_not] at hsplit
  rw [hsplit, ← firsts_filter hinvariant, htied, ← firsts_filter fun x y hxy =>
    congrArg _ (hinvariant x y hxy), hbefore]

theorem next_place (h : w.Sorted o (seen ++ row :: rest)) {differs : Bool}
    (hstate : ∀ init last, seen = init ++ [last] →
      state = (w.place o .rowNumber (seen ++ row :: rest) init last,
        w.place o f (seen ++ row :: rest) init last))
    (hdiffers : f ≠ .rowNumber → differs = !seen.getLast?.any (w.ties o · row)) :
    f.next (!seen.getLast?.any (w.peers o · row)) differs state =
      (w.place o .rowNumber (seen ++ row :: rest) seen row,
        w.place o f (seen ++ row :: rest) seen row) := by
  cases hpeers : seen.getLast?.any (w.peers o · row) with
  | false =>
    -- the first row of a partition: no row is ahead
    have hties : seen.getLast?.any (w.ties o · row) = false := by
      cases hl : seen.getLast? with
      | none => rfl
      | some last =>
        rw [hl, Option.any_some] at hpeers
        rw [Option.any_some, ties_eq, hpeers, Bool.false_and]
    have hnone := h.filter_peers hpeers
    have hahead := h.filter_ahead hties
    rw [hnone] at hahead
    rw [hties] at hdiffers
    cases f <;> simp [AggregateFunction.next, place, hnone, hahead, hdiffers, firsts]
  | true =>
    obtain rfl | ⟨init, last, rfl⟩ := seen.eq_nil_or_concat'
    · simp at hpeers
    · obtain rfl := hstate init last rfl
      rw [List.getLast?_concat, Option.any_some] at hpeers hdiffers
      have hsame : w.peers o row = w.peers o last := funext fun x =>
        (ValueOrder.agree_congr hpeers).symm
      have hself : w.peers o last last := ValueOrder.agree_trans hpeers
        (ValueOrder.agree_symm.trans hpeers)
      have hnumber : ((init ++ [last]).filter (w.peers o row)).length =
          1 + (init.filter (w.peers o last)).length := by
        simp [List.filter_append, hsame, hself, Nat.add_comm]
      simp only [AggregateFunction.next, Bool.not_true, Bool.false_eq_true, if_false, Prod.mk.injEq]
      have hcount : 1 + (init.filter (w.peers o last)).length + 1 =
          1 + ((init ++ [last]).filter (w.peers o row)).length := by omega
      refine ⟨hcount, ?_⟩
      cases hties : w.ties o last row with
      | true =>
        have hahead := ahead_congr hties
        cases f with
        | rank | denseRank => simp [place, hahead, hdiffers, hties]
        | _ => exact hcount
      | false =>
        have hahead := h.filter_ahead (by simpa using hties)
        cases f with
        | rank =>
          rw [hdiffers (by simp), hties, place, place, hahead]
          exact hcount
        | denseRank =>
          rw [hdiffers (by simp), hties, place, place, h.length_firsts hpeers hties]
          exact Nat.add_assoc 1 _ 1
        | _ => exact hcount

end WindowInput

def changes (same : Row → Row → Bool) : Option Row → List Row → List Bool
  | _, [] => []
  | before, row :: rest => (!before.any (same · row)) :: changes same (some row) rest

section Marks

variable {same : Row → Row → Bool} {before : Option Row} {rows : List Row}

theorem mem_marked (h : row ∈ marked same before rows) :
    ∃ input ∈ rows, ∃ b, row = input ++ [.boolean b] := by
  induction rows generalizing before with
  | nil => simp [marked] at h
  | cons first rest ih =>
    obtain rfl | h := List.mem_cons.1 h
    · exact ⟨first, by simp, _, rfl⟩
    · obtain ⟨input, hinput, hrow⟩ := ih h
      exact ⟨input, by simp [hinput], hrow⟩

theorem map_marked {β : Type} {g : Row → β}
    (h : ∀ row ∈ rows, ∀ b, g (row ++ [.boolean b]) = g row) :
    (marked same before rows).map g = rows.map g := by
  induction rows generalizing before with
  | nil => rfl
  | cons row rest ih =>
    rw [marked, List.map_cons, h row (by simp), ih fun r hr => h r (by simp [hr]), List.map_cons]

theorem map_mark {g : Row → Bool} (h : ∀ row ∈ rows, ∀ b, g (row ++ [.boolean b]) = b) :
    (marked same before rows).map g = changes same before rows := by
  induction rows generalizing before with
  | nil => rfl
  | cons row rest ih =>
    rw [marked, List.map_cons, h row (by simp), ih fun r hr => h r (by simp [hr]), changes]

theorem changes_map {g : Row → Row} (h : ∀ row other, same (g row) (g other) = same row other)
    (before : Option Row) (rows : List Row) :
    changes same (before.map g) (rows.map g) = changes same before rows := by
  induction rows generalizing before with
  | nil => rfl
  | cons row rest ih =>
    rw [List.map_cons, changes, changes, ← ih, Option.any_map]
    simp only [h, Option.map_some]

end Marks

theorem AggregateFunction.length_counted (f : AggregateFunction) (state : Nat × Nat)
    (flags : List (Bool × Bool)) : (f.counted state flags).length = flags.length := by
  induction flags generalizing state with
  | nil => rfl
  | cons flag rest ih => rw [counted, List.length_cons, ih, List.length_cons]

/-- What is counted along sorted rows are their places. -/
theorem WindowInput.counted_places {o : ValueOrder} {f : AggregateFunction}
    {rows seen rest : List Row}
    (h : w.Sorted o rows) (hrows : rows = seen ++ rest) {differs : List Bool}
    (hlength : differs.length = rest.length)
    (hdiffers : f ≠ .rowNumber → differs = changes (w.ties o) seen.getLast? rest)
    (hstate : ∀ init last, seen = init ++ [last] →
      state = (w.place o .rowNumber rows init last, w.place o f rows init last))
    {before after : List Row} (hrest : rest = before ++ row :: after) :
    (f.counted state ((changes (w.peers o) seen.getLast? rest).zip differs))[before.length]? =
      some (w.place o f rows (seen ++ before) row) := by
  induction rest generalizing seen differs state before with
  | nil => simp at hrest
  | cons head tail ih =>
    obtain - | ⟨d, differs⟩ := differs
    · simp at hlength
    have hd (hf : f ≠ .rowNumber) : d = !seen.getLast?.any (w.ties o · head) :=
      (List.cons_eq_cons.1 (hdiffers hf)).1
    have hnext := next_place (hrows ▸ h) (hrows ▸ hstate) hd
    rw [← hrows] at hnext
    rw [changes, List.zip_cons_cons, AggregateFunction.counted, hnext]
    obtain - | ⟨first, before⟩ := before
    · obtain ⟨rfl, rfl⟩ := List.cons_eq_cons.1 hrest
      simp
    · obtain ⟨rfl, htail⟩ := List.cons_eq_cons.1 hrest
      rw [List.length_cons, List.getElem?_cons_succ, List.append_cons seen head before]
      have hplace : (f.counted (w.place o .rowNumber rows seen head, w.place o f rows seen head)
          ((changes (w.peers o) (seen ++ [head]).getLast? tail).zip differs))[before.length]? =
            some (w.place o f rows (seen ++ [head] ++ before) row) := by
        refine ih (by simp [hrows]) (by simpa using hlength) (fun hf => ?_)
          (fun init last hinit => ?_) htail
        · simpa using (List.cons_eq_cons.1 (hdiffers hf)).2
        · obtain ⟨rfl, hlast⟩ := List.append_inj' hinit rfl
          simp [List.singleton_inj.1 hlast]
      simpa using hplace

namespace Schema

variable {s t : Schema} {f : Field} {c : Column}

theorem read_take (row : Row) : s.read (row.take s.fields.length) c = s.read row c := by
  unfold read
  cases hi : s.index? c with
  | none => rfl
  | some i =>
    obtain ⟨f, hf⟩ := index?_eq_some.1 hi
    simp [List.getElem?_take, (List.getElem?_eq_some_iff.1 (getElem?_of_candidates hf)).1]

theorem read_old (h : t.fields = s.fields ++ [f]) (hrelation : f.relation = none)
    (hf : s.Lacks (.bare f.name)) (hc : ¬ s.Lacks c) :
    ¬ t.Lacks c ∧ ∀ row, t.read row c = s.read row c := by
  have hnew : (ofFields [f]).Lacks c :=
    lacks_iff.2 (by simpa [ofFields] using s.not_answersTo hrelation hf hc)
  have hcandidates : t.candidates c = s.candidates c := by
    rw [candidates_append (b := .ofFields [f]) h, show (ofFields [f]).candidates c = [] from hnew]
    simp
  exact ⟨by rwa [Lacks, hcandidates], fun row => by rw [read, index?, hcandidates, read, index?]⟩

theorem read_new (h : t.fields = s.fields ++ [f]) (hf : s.Lacks (.bare f.name))
    (hrow : row.length = s.fields.length) (v : Value) : t.read (row ++ [v]) (.bare f.name) = v := by
  rw [read_append_right (b := .ofFields [f]) h hrow hf]
  simp [read, index?, candidates, ofFields, Column.bare, Column.text]

end Schema

namespace Plan

/-- Rows of a plan begin with the rows of a schema, and its columns are read as they are there. -/
structure Prolongs (p : Plan) (o : ValueOrder) (source : Plan → List Row)
    (s : Schema) (rows : List Row) : Prop where
  reads : ∀ c, s.contains c → ¬ p.schema.Lacks c ∧ ∀ row, p.schema.read row c = s.read row c
  length : s.fields.length ≤ p.schema.fields.length
  starts : (p.ranked o source).map (·.take s.fields.length) = rows
  width : ∀ row ∈ p.ranked o source, row.length = p.schema.fields.length

variable {p : Plan} {o : ValueOrder} {source : Plan → List Row} {s : Schema} {rows : List Row}

/-- A segment marks where the columns change, and nothing else does. -/
theorem Prolongs.segment (h : p.Prolongs o source s rows) (hcolumns : ∀ c ∈ columns, s.contains c)
    (hmark : p.schema.Lacks (.bare mark)) :
    let plan := Plan.segment p columns mark
    plan.Prolongs o source s rows ∧
      (plan.ranked o source).map (plan.schema.marks (.bare mark)) =
        changes (o.agree s columns) none rows ∧
      ∀ c, ¬ p.schema.Lacks c →
        (plan.ranked o source).map (plan.schema.marks c) =
        (p.ranked o source).map (p.schema.marks c) := by
  intro plan
  have hfields : plan.schema.fields = p.schema.fields ++ [markField mark] := rfl
  have hold {c : Column} (hc : ¬ p.schema.Lacks c) :
      ¬ plan.schema.Lacks c ∧ ∀ row, plan.schema.read row c = p.schema.read row c :=
    Schema.read_old hfields rfl hmark hc
  have hagree : o.agree p.schema columns = o.agree s columns := by
    funext row other
    rw [Bool.eq_iff_iff]
    simp only [ValueOrder.agree, List.all_eq_true]
    exact forall₂_congr fun c hc => by
      rw [(h.reads c (hcolumns c hc)).2, (h.reads c (hcolumns c hc)).2]
  have hranked : plan.ranked o source = marked (o.agree s columns) none (p.ranked o source) := by
    rw [← hagree]
    rfl
  rw [hranked]
  refine ⟨⟨fun c hc => ?_, ?_, ?_, fun row hrow => ?_⟩, ?_, fun c hc => ?_⟩
  · obtain ⟨hknown, hread⟩ := h.reads c hc
    exact ⟨(hold hknown).1, fun row => ((hold hknown).2 row).trans (hread row)⟩
  · simpa [hfields] using Nat.le_succ_of_le h.length
  · rw [hranked, map_marked, h.starts]
    intro row hrow b
    rw [List.take_append_of_le_length (by simpa [h.width row hrow] using h.length)]
  · rw [hranked] at hrow
    obtain ⟨input, hinput, b, rfl⟩ := mem_marked hrow
    simp [hfields, h.width input hinput]
  · have hchanges : changes (o.agree s columns) none
      ((p.ranked o source).map (·.take s.fields.length)) =
        changes (o.agree s columns) none (p.ranked o source) :=
      changes_map (fun _ _ => by simp only [ValueOrder.agree, Schema.read_take]) none _
    rw [h.starts] at hchanges
    refine Eq.trans (map_mark fun row hrow b => ?_) hchanges.symm
    rw [Schema.marks, show plan.schema.read _ (.bare mark) = _ from
      Schema.read_new hfields hmark (h.width row hrow) (.boolean b)]
    cases b <;> rfl
  · refine Eq.trans (List.map_congr_left fun row _ => ?_) (map_marked fun row hrow b => ?_)
    · rw [Schema.marks, (hold hc).2, Schema.marks]
    · rw [Schema.marks, ← Schema.read_take, ← h.width row hrow, List.take_left, Schema.marks]

/-- A ranking adds the place of each row. -/
theorem Prolongs.sequence (h : p.Prolongs o source w.plan.schema rows) (hsorted : w.Sorted o rows)
    {v : SequenceValue} (hname : p.schema.Lacks (.bare v.name))
    (hbegins : (p.ranked o source).map (p.schema.marks v.segment) = changes (w.peers o) none rows)
    (hdiffers : v.function ≠ .rowNumber → (p.ranked o source).map
      (fun row => v.rankSegment.any (p.schema.marks · row)) = changes (w.ties o) none rows) :
    let plan := Plan.sequence p [v]
    (plan.ranked o source).length = rows.length ∧ ∀ before row after,
      rows = before ++ row :: after →
      ∃ more, (plan.ranked o source)[before.length]? = some (row ++ more) ∧
        plan.schema.read (row ++ more) (.bare v.name) =
          .int64 (w.place o v.function rows before row) := by
  intro plan
  have hlength : (p.ranked o source).length = rows.length := by
    rw [← h.starts, List.length_map]
  have hcounts : v.counts p.schema (p.ranked o source) = v.function.counted (0, 0)
      ((changes (w.peers o) none rows).zip
        ((p.ranked o source).map fun row => v.rankSegment.any (p.schema.marks · row))) := by
    rw [SequenceValue.counts, ← hbegins, List.zip_map']
  have hranked : plan.ranked o source = List.zipWith (fun row n => row ++ [.int64 n])
    (p.ranked o source) (v.counts p.schema (p.ranked o source)) := rfl
  refine ⟨?_, fun before row after hrows => ?_⟩
  · rw [hranked, List.length_zipWith, SequenceValue.counts, AggregateFunction.length_counted,
      List.length_map, Nat.min_self, hlength]
  · have hplace : (v.counts p.schema (p.ranked o source))[before.length]? =
        some (w.place o v.function rows ([] ++ before) row) := by
      rw [hcounts]
      exact WindowInput.counted_places hsorted (List.nil_append _).symm
        (by rw [List.length_map, hlength]) hdiffers (by simp) hrows
    have hrow : ((p.ranked o source).map (·.take w.plan.schema.fields.length))[before.length]? =
        some row := by
      rw [h.starts, hrows]
      simp
    rw [List.getElem?_map, Option.map_eq_some_iff] at hrow
    obtain ⟨input, hinput, htake⟩ := hrow
    have hsplit : row ++ input.drop w.plan.schema.fields.length = input := by
      rw [← htake, List.take_append_drop]
    refine ⟨input.drop w.plan.schema.fields.length ++
      [.int64 (w.place o v.function rows before row)], ?_⟩
    rw [← List.append_assoc, hsplit]
    refine ⟨?_, ?_⟩
    · rw [hranked, List.getElem?_zipWith, hinput, hplace]
      rfl
    · exact Schema.read_new (f := countField v.name) rfl hname
        (h.width input (List.mem_of_getElem? hinput)) _

end Plan

/-- A value for each field, and rows in the order of the schema. -/
structure Schema.InOrder (s : Schema) (o : ValueOrder) (rows : List Row) : Prop where
  width : ∀ row ∈ rows, row.length = s.fields.length
  sorted : rows.Pairwise (o.rowLe s s.sortOrder · ·)

/-- The columns of the window are in its input, and the names that are given out are not. -/
structure WindowInput.Clear (w : WindowInput) (f : AggregateFunction) (names : NameSupply) :
    Prop where
  keys : ∀ key ∈ w.keys, w.plan.schema.contains key.column
  mark : w.plan.schema.Lacks (.bare (segmentName (names.segments + 1)))
  rankMark : f ≠ .rowNumber → w.plan.schema.Lacks (.bare (segmentName (names.segments + 2)))
  name : w.plan.schema.Lacks (.bare (exprName (names.exprs + 1)))

namespace WindowInput

variable {w : WindowInput} {o : ValueOrder} {source : Plan → List Row}

theorem sorted_ordered (h : w.plan.schema.InOrder o (w.plan.ranked o source)) :
    w.Sorted o ((w.plan.ordered w.keys).ranked o source) := by
  unfold Plan.ordered
  split
  next hsorted => exact h.sorted.imp (ValueOrder.rowLe_of_isSortedBy hsorted)
  next =>
    exact List.pairwise_insertionSort _ _

theorem perm_ordered : ((w.plan.ordered w.keys).ranked o source).Perm (w.plan.ranked o source) := by
  unfold Plan.ordered
  split
  next => exact .refl _
  next => exact List.perm_insertionSort _ _

theorem prolongs_ordered (h : w.plan.schema.InOrder o (w.plan.ranked o source)) :
    (w.plan.ordered w.keys).Prolongs o source w.plan.schema
    ((w.plan.ordered w.keys).ranked o source) := by
  have hfields := Plan.fields_ordered w.plan w.keys
  have hwidth {row : Row} (hrow : row ∈ (w.plan.ordered w.keys).ranked o source) :
      row.length = w.plan.schema.fields.length := h.width row (perm_ordered.mem_iff.1 hrow)
  refine ⟨fun c hc => ⟨?_, fun row => Schema.read_congr hfields⟩, by
    rw [hfields], ?_, fun row hrow => ?_⟩
  · rw [Schema.Lacks, Schema.candidates, hfields]
    exact Schema.not_lacks_of_contains hc
  · refine Eq.trans (List.map_congr_left fun row hrow => ?_) (List.map_id _)
    rw [← hwidth hrow, List.take_length, id]
  · rw [hfields, hwidth hrow]

theorem lacks_mark {name : String} {p : Plan} (h : p.schema.Lacks (.bare name))
    (hne : Text.lower mark ≠ Text.lower name) :
    (Plan.segment p columns mark).schema.Lacks (.bare name) := by
  refine (Schema.lacks_append (b := .ofFields [Plan.markField mark]) rfl).2 ⟨h, ?_⟩
  simpa [Schema.lacks_iff, Schema.ofFields, Plan.markField, Column.bare, Column.text] using hne

/-- A ranking keeps all rows, in the order of the window, and adds to each of them its place. -/
theorem bindRanking_rows (w : WindowInput) (f : AggregateFunction) (name : String)
    (hargs : w.args = []) (horder : w.orderBy ≠ []) (c : BindContext) (s : BindState)
    (hclear : w.Clear f s.names) (o : ValueOrder) (source : Plan → List Row)
    (hrows : w.plan.schema.InOrder o (w.plan.ranked o source)) :
    ∃ plan column s' rows, (w.bindRanking f name).start c s = (.ok (plan, column), s') ∧
      rows.Perm (w.plan.ranked o source) ∧ (plan.ranked o source).length = rows.length ∧
      ∀ before row after, rows = before ++ row :: after →
        (∃ more, (plan.ranked o source)[before.length]? = some (row ++ more) ∧
          plan.schema.read (row ++ more) (.bare column) = .int64 (w.place o f rows before row)) ∧
        ∀ other ∈ before, w.peers o other row → o.rowLe w.plan.schema w.orderBy other row := by
  have hsorted := sorted_ordered hrows
  have hconsistent {before after : List Row} {row : Row} (hsplit :
      (w.plan.ordered w.keys).ranked o source = before ++ row :: after) (other : Row)
      (hother : other ∈ before) (hpeers : w.peers o other row) :
      o.rowLe w.plan.schema w.orderBy other row := by
    rw [hsplit] at hsorted
    exact rowLe_orderBy ((List.pairwise_append.1 hsorted).2.2 other hother row (by simp)) hpeers
  have hpartition (c : Column) (hc : c ∈ w.partitionBy) : w.plan.schema.contains c :=
    hclear.keys ⟨c, .asc⟩ (by simp [keys, hc])
  have hlacks {n : String} (h : w.plan.schema.Lacks (.bare n)) :
      (w.plan.ordered w.keys).schema.Lacks (.bare n) := by
    rwa [Schema.Lacks, Schema.candidates, Plan.fields_ordered]
  obtain ⟨hsegment, hbegins, -⟩ := (prolongs_ordered hrows).segment hpartition (hlacks hclear.mark)
  have hstart : (w.bindRanking f name).start c s = (w.ranking f).start c s := by
    simp [bindRanking, hargs, horder]
  by_cases hf : f = .rowNumber
  · subst hf
    obtain ⟨hlength, hplaces⟩ := hsegment.sequence hsorted
      (v := ⟨exprName (s.names.exprs + 1), .rowNumber,
        .bare (segmentName (s.names.segments + 1)), none⟩)
      (lacks_mark (hlacks hclear.name) (lower_exprName_ne_segmentName _ _).symm) hbegins (by simp)
    exact ⟨_, _, _, _, hstart.trans rfl, perm_ordered, hlength, fun before row after hsplit =>
      ⟨hplaces before row after hsplit, hconsistent hsplit⟩⟩
  · have hkeys (c : Column) (hc : c ∈ w.partitionBy ++ w.orderBy.map (·.column)) :
        w.plan.schema.contains c := by
      rw [← keys_columns] at hc
      obtain ⟨key, hkey, rfl⟩ := List.mem_map.1 hc
      exact hclear.keys key hkey
    have hties : w.ties o = o.agree w.plan.schema (w.partitionBy ++ w.orderBy.map (·.column)) := by
      unfold ties
      rw [keys_columns]
    have hnext : Text.lower (segmentName (s.names.segments + 1)) ≠
        Text.lower (segmentName (s.names.segments + 2)) := by
      rw [Ne, lower_segmentName_inj]
      omega
    obtain ⟨hrank, hdiffers, hkept⟩ :=
      hsegment.segment hkeys (lacks_mark (hlacks (hclear.rankMark hf)) hnext)
    have hfirst := (hkept (.bare (segmentName (s.names.segments + 1)))
      (Schema.not_lacks_of_mem (f := Plan.markField _)
        (List.mem_append_right _ (List.mem_singleton_self _))))
    obtain ⟨hlength, hplaces⟩ := hrank.sequence hsorted
      (v := ⟨exprName (s.names.exprs + 1), f, .bare (segmentName (s.names.segments + 1)),
        some (.bare (segmentName (s.names.segments + 2)))⟩)
      (lacks_mark (lacks_mark (hlacks hclear.name) (lower_exprName_ne_segmentName _ _).symm)
        (lower_exprName_ne_segmentName _ _).symm) (hfirst.trans hbegins) fun _ => hties ▸ hdiffers
    let names := { s.names with segments := s.names.segments + 2, exprs := s.names.exprs + 1 }
    refine ⟨_, _, { s with names }, _, hstart.trans ?_, perm_ordered, hlength,
      fun before row after hsplit => ⟨hplaces before row after hsplit, hconsistent hsplit⟩⟩
    simp only [ranking, if_neg hf]
    rfl

def players (column : String) : WindowInput where
  plan := .scan { entity := "player", relation := "player", source := .entity,
                  columns := [⟨column, .int32, false, none⟩, ⟨"team", .int32, false, none⟩],
                  primaryKey := none, rowCount := none }
  partitionBy := [.qualified "player" "team"]
  orderBy := [⟨.qualified "player" column, .desc⟩]
  args := []

def playerRows : List Row :=
  [[.int32 7, .int32 1], [.int32 9, .int32 2], [.int32 9, .int32 1], [.int32 9, .int32 1]]

end WindowInput

def ValueOrder.numeric : ValueOrder where
  le v w := match v, w with
    | .int32 m, .int32 n => m ≤ n
    | .int32 m, _ => m ≤ 0
    | _, .int32 n => 0 ≤ n
    | _, _ => true
  total v w := by cases v <;> cases w <;> simp [Int.le_total]
  trans {u v w} := by cases u <;> cases v <;> cases w <;> simp <;> omega

theorem WindowInput.players_ranked :
    (players "points").Clear .denseRank {} ∧
      (players "points").plan.schema.InOrder .numeric playerRows ∧
      ∃ plan column s' rows, ((players "points").bindRanking .denseRank "DENSE_RANK").start
          QueryBinder.accounts { session := .empty } = (.ok (plan, column), s') ∧
        List.Perm rows playerRows ∧
        (plan.ranked .numeric fun _ => playerRows).map
            (fun row => (row.take 2, plan.schema.read row (.bare column))) =
          [([.int32 9, .int32 1], .int64 1), ([.int32 9, .int32 1], .int64 1),
            ([.int32 7, .int32 1], .int64 2), ([.int32 9, .int32 2], .int64 1)] := by
  have hclear : (players "points").Clear .denseRank {} :=
    ⟨by decide +kernel, by decide +kernel, fun _ => by decide +kernel, by decide +kernel⟩
  have hrows : (players "points").plan.schema.InOrder .numeric playerRows :=
    ⟨by decide +kernel, by decide +kernel⟩
  refine ⟨hclear, hrows, ?_⟩
  obtain ⟨plan, column, s', rows, hrun, hperm, -⟩ := (players "points").bindRanking_rows .denseRank
    "DENSE_RANK" rfl (by simp [players]) QueryBinder.accounts { session := .empty } hclear .numeric
    (fun _ => playerRows) hrows
  refine ⟨plan, column, s', rows, hrun, hperm, ?_⟩
  cases hrun.symm.trans (start_eq_value rfl)
  decide +kernel

/-- A column with the name of the mark hides where partitions begin: the first row of the second
team gets the number four. -/
theorem WindowInput.players_not_restarted :
    let w := players "Segment1"
    w.plan.schema.InOrder .numeric playerRows ∧
      ∃ plan column s' rows, (w.bindRanking .rowNumber "ROW_NUMBER").start
          QueryBinder.accounts { session := .empty } = (.ok (plan, column), s') ∧
        (w.plan.ordered w.keys).ranked .numeric (fun _ => playerRows) = rows ++
        [[.int32 9, .int32 2]] ∧
        (plan.ranked .numeric fun _ => playerRows).map (plan.schema.read · (.bare column)) =
          [.int64 1, .int64 2, .int64 3, .int64 4] ∧
        w.place .numeric .rowNumber (rows ++ [[.int32 9, .int32 2]]) rows
          [.int32 9, .int32 2] = 1 := by
  refine ⟨⟨by decide +kernel, by decide +kernel⟩, _, _, _,
    [[.int32 9, .int32 1], [.int32 9, .int32 1], [.int32 7, .int32 1]], start_eq_value rfl, ?_⟩
  decide +kernel

end BatchPlan
