import BatchPlan.Proofs.Meaning.Rows
import Mathlib.Algebra.Group.Int.Defs
import Mathlib.Data.List.SplitBy
import Mathlib.Data.List.Zip

namespace BatchPlan

variable {partitions : List (List Row)} {partition : List Row} {same : Row → Row → Bool}
  {mark : Position → Row} {n : Nat} {row : Row} {p : Position}

/-- How plans over windows are run. Sums of whole numbers are exact at least within 64 bits. -/
structure Framing extends Operations where
  source : Env → Plan → List Row
  /-- Do two values belong to the same group? -/
  alike : Value → Value → Bool
  /-- An aggregate, of distinct arguments or of all, over rows that are given by their arguments. -/
  total : AggregateFunction → Bool → List Row → Value
  alike_refl : ∀ v, alike v v
  alike_symm : ∀ {v w}, alike v w → alike w v
  alike_trans : ∀ {u v w}, alike u v → alike v w → alike u w
  alike_int64 : ∀ {m n}, alike (.int64 m) (.int64 n) → m = n
  less_int64 : ∀ m n, less (.int64 m) (.int64 n) = decide (m < n)
  add_int64 : ∀ m n, -2 ^ 63 ≤ m + n → m + n < 2 ^ 63 →
    arithmetic .add (.int64 m) (.int64 n) = .int64 (m + n)

def Framing.Unbounded (m : Framing) : Prop :=
  ∀ x y, m.arithmetic .add (.int64 x) (.int64 y) = .int64 (x + y)

/-- Rows with a mark where they differ from the one before. -/
def marked (same : Row → Row → Bool) : Option Row → List Row → List Row
  | _, [] => []
  | before, row :: rest =>
    (row ++ [.boolean (!before.any (same · row))]) :: marked same (some row) rest

/-- Rows with their numbers, counted on from one and from each beginning. -/
def numbered (begins : Row → Bool) : Nat → List Row → List Row
  | _, [] => []
  | n, row :: rest =>
    let number := if begins row then 1 else n + 1
    (row ++ [.int64 number]) :: numbered begins number rest

def firsts {α : Type} (alike : α → α → Bool) : List α → List α
  | [] => []
  | a :: rest => a :: (firsts alike rest).filter fun b => !alike a b

namespace WindowFrame

variable (frame : WindowFrame) (ops : Operations) (s : Schema)

def segments (rows : List Row) : List (List Row) :=
  match frame.segment with
  | none => [rows]
  | some mark => rows.splitBy fun _ next => s.read next mark != .boolean true

def covers (row other : Row) : Bool :=
  (ops.binary .ltEq (s.read row frame.first) (s.read other frame.rowNumber)).truth == .true &&
    (ops.binary .ltEq (s.read other frame.rowNumber) (s.read row frame.last)).truth == .true

/-- For each row of a segment the rows of its frame. -/
def spread (segment : List Row) : List Row :=
  segment.flatMap fun row => (segment.filter (frame.covers ops s row)).map fun other =>
    row ++ s.project (frame.values.map (·.source)) other

end WindowFrame

namespace Framing

variable (m : Framing)

def agree (s : Schema) (columns : List Column) (row other : Row) : Bool :=
  columns.all fun c => m.alike (s.read row c) (s.read other c)

def alikeRows (row other : Row) : Bool :=
  (row.zip other).all fun values => m.alike values.1 values.2

def groups (env : Env) (s : Schema) (spec : Aggregation) (rows : List Row) : List Row :=
  let key := s.project spec.groupBy
  (firsts m.alikeRows (rows.map key)).map fun group =>
    group ++ spec.values.map fun v => m.total v.function v.distinct
      ((rows.filter fun row => m.alikeRows group (key row)).map fun row =>
        v.args.map (Scalar.eval m.toOperations env s row))

end Framing

/-- Are all values of an aggregate taken over groups, in no order of their own? -/
def Aggregation.isPlain (spec : Aggregation) : Bool :=
  !spec.groupBy.isEmpty && spec.values.all (·.withinGroup.isEmpty)

def Plan.framed (m : Framing) (env : Env) : Plan → List Row
  | .segment input partitionBy _ =>
    marked (m.agree input.schema partitionBy) none (input.framed m env)
  | .sequence input values =>
    match values with
    | [⟨_, .rowNumber, mark, none⟩] =>
      numbered (fun row => input.schema.read row mark == .boolean true) 0 (input.framed m env)
    | values => m.source env (.sequence input values)
  | .compute input values =>
    (input.framed m env).map fun row =>
      row ++ values.map fun d => d.expr.eval m.toOperations env input.schema row
  | .spool id input kind mode =>
    match mode with
    | .window frame => (frame.segments input.schema (input.framed m env)).flatMap
        (frame.spread m.toOperations input.schema)
    | mode => m.source env (.spool id input kind mode)
  | .aggregate input spec =>
    if spec.isPlain then m.groups env input.schema spec (input.framed m env)
    else m.source env (.aggregate input spec)
  | p => m.source env p

/-- A row in its partition, with its number. -/
structure Position where
  partition : List Row
  row : Row
  number : Nat

namespace Position

def within (partition : List Row) : List Position :=
  (partition.zipIdx 1).map fun entry => ⟨partition, entry.1, entry.2⟩

def all (partitions : List (List Row)) : List Position :=
  partitions.flatMap within

theorem all_cons (partition : List Row) (rest : List (List Row)) :
    all (partition :: rest) = within partition ++ all rest := rfl

theorem mem_within (h : p ∈ within partition) :
    p.partition = partition ∧ p.row ∈ partition ∧ 1 ≤ p.number ∧ p.number ≤ partition.length := by
  obtain ⟨⟨row, n⟩, hentry, rfl⟩ := List.mem_map.1 h
  have hn := List.mem_zipIdx hentry
  refine ⟨rfl, List.fst_mem_of_mem_zipIdx hentry, hn.1, ?_⟩
  simpa [Nat.add_comm, Nat.lt_succ_iff] using hn.2.1

theorem mk_mem_within (hn : n < partition.length) :
    ⟨partition, partition[n], n + 1⟩ ∈ within partition := by
  have hentry : (partition[n], n + 1) ∈ partition.zipIdx 1 :=
    List.mk_mem_zipIdx_iff_le_and_getElem?_sub.2 ⟨by omega, by simp⟩
  exact List.mem_map_of_mem hentry

theorem mem_all (h : p ∈ all partitions) : p.partition ∈ partitions ∧ p ∈ within p.partition := by
  obtain ⟨partition, hpartition, hp⟩ := List.mem_flatMap.1 h
  obtain ⟨rfl, -⟩ := mem_within hp
  exact ⟨hpartition, hp⟩

theorem pairwise_within (partition : List Row) :
    (within partition).Pairwise fun p q => p.number < q.number := by
  have hnumbers := List.pairwise_lt_range' (s := 1) (n := partition.length)
  rw [← List.zipIdx_map_snd, List.pairwise_map] at hnumbers
  exact List.pairwise_map.2 hnumbers

theorem length_within (partition : List Row) : (within partition).length = partition.length := by
  simp [within]

theorem length_all (partitions : List (List Row)) :
    (all partitions).length = partitions.flatten.length := by
  simp [all, List.length_flatMap, List.length_flatten, length_within]

end Position

/-- Rows partition by partition: a row goes on with the partition of the one before exactly if the
two are the same. -/
structure Partitioned (same : Row → Row → Bool) (partitions : List (List Row)) : Prop where
  nonempty : [] ∉ partitions
  chain : ∀ partition ∈ partitions, partition.IsChain fun row next => same row next
  breaks : partitions.IsChain fun left right => ∃ hl hr,
    same (left.getLast hl) (right.head hr) = false

theorem partitioned_splitBy (same : Row → Row → Bool) (rows : List Row) :
    Partitioned same (rows.splitBy same) :=
  ⟨List.nil_notMem_splitBy same rows, fun _ => List.isChain_of_mem_splitBy,
    List.isChain_getLast_head_splitBy same rows⟩

theorem Partitioned.tail {rest : List (List Row)} (h : Partitioned same (partition :: rest)) :
    Partitioned same rest :=
  ⟨fun hnil => h.nonempty (List.mem_cons_of_mem _ hnil),
    fun p hp => h.chain p (List.mem_cons_of_mem _ hp), h.breaks.tail⟩

section Marks

variable {same : Row → Row → Bool} {before : Option Row}

theorem marked_append (before : Option Row) (rows more : List Row) :
    marked same before (rows ++ more) =
      marked same before rows ++ marked same (rows.getLast?.or before) more := by
  induction rows generalizing before with
  | nil => simp [marked]
  | cons row rest ih =>
    rw [List.cons_append, marked, ih, marked, List.cons_append, List.getLast?_cons]
    cases rest.getLast? <;> rfl

theorem marked_chain {rest : List Row} (h : (row :: rest).IsChain fun row next => same row next)
    (hn : 1 < n) : marked same (some row) rest =
      (rest.zipIdx n).map fun entry => entry.1 ++ [.boolean (entry.2 == 1)] := by
  induction rest generalizing row n with
  | nil => rfl
  | cons next rest ih =>
    rw [List.isChain_cons_cons] at h
    have hmark : (n == 1) = false := beq_false_of_ne (by omega)
    rw [marked, ih h.2 (Nat.lt_succ_of_lt hn)]
    simp [h.1, hmark]

theorem marked_partition (hchain : partition.IsChain fun row next => same row next)
    (hbefore : ∀ row ∈ partition.head?, before.any (same · row) = false) :
    marked same before partition =
      (Position.within partition).map fun p => p.row ++ [.boolean (p.number == 1)] := by
  cases partition with
  | nil => rfl
  | cons row rest =>
    rw [marked, marked_chain hchain (by omega : 1 < 2), hbefore row rfl]
    simp [Position.within, Function.comp_def]

theorem marked_flatten (h : Partitioned same partitions)
    (hbefore : ∀ row ∈ partitions.flatten.head?, before.any (same · row) = false) :
    marked same before partitions.flatten =
      (Position.all partitions).map fun p => p.row ++ [.boolean (p.number == 1)] := by
  induction partitions generalizing before with
  | nil => rfl
  | cons partition rest ih =>
    have hne : partition ≠ [] := fun hnil => h.nonempty (by simp [hnil])
    have hhead : ∀ row ∈ partition.head?, before.any (same · row) = false := fun row hrow =>
      hbefore row (by
        rw [List.flatten_cons, List.head?_append, Option.mem_def.1 hrow]
        rfl)
    have hnext : ∀ row ∈ rest.flatten.head?, (partition.getLast?.or before).any
        (same · row) = false := by
      intro row hrow
      cases rest with
      | nil => cases hrow
      | cons next rest =>
        obtain ⟨hlast, hfirst, hdiffer⟩ := (List.isChain_cons_cons.1 h.breaks).1
        rw [List.flatten_cons, List.head?_append, List.head?_eq_some_head hfirst] at hrow
        obtain rfl : next.head hfirst = row := by simpa using hrow
        simpa [List.getLast?_eq_some_getLast hlast] using hdiffer
    rw [List.flatten_cons, marked_append, marked_partition (h.chain _ (by simp)) hhead,
      ih h.tail hnext, Position.all_cons, List.map_append]

end Marks

section Numbers

variable {begins : Row → Bool}

theorem exists_numbered_append (begins : Row → Bool) (n : Nat) (rows more : List Row) :
    ∃ n', numbered begins n (rows ++ more) = numbered begins n rows ++ numbered begins n' more := by
  induction rows generalizing n with
  | nil => exact ⟨n, rfl⟩
  | cons row rest ih =>
    obtain ⟨n', h⟩ := ih (if begins row then 1 else n + 1)
    exact ⟨n', by rw [List.cons_append, numbered, h, numbered, List.cons_append]⟩

theorem numbered_zipIdx (mark : Row × Nat → Row) {rows : List Row}
    (hmark : ∀ row ∈ rows, ∀ n, begins (mark (row, n)) = (n == 1)) (hn : 1 ≤ n) :
    numbered begins n ((rows.zipIdx (n + 1)).map mark) =
      (rows.zipIdx (n + 1)).map fun entry => mark entry ++ [.int64 entry.2] := by
  induction rows generalizing n with
  | nil => rfl
  | cons row rest ih =>
    have hfirst : begins (mark (row, n + 1)) = false := by
      rw [hmark row (by simp), beq_eq_false_iff_ne]
      omega
    rw [List.zipIdx_cons, List.map_cons, numbered, hfirst, List.map_cons]
    exact congrArg _ (ih (fun row hrow => hmark row (List.mem_cons_of_mem _ hrow))
      (n := n + 1) (Nat.le_add_left 1 n))

theorem numbered_within (hmark : ∀ row ∈ partition, ∀ n,
    begins (mark ⟨partition, row, n⟩) = (n == 1)) (n : Nat) :
    numbered begins n ((Position.within partition).map mark) =
      (Position.within partition).map fun p => mark p ++ [.int64 p.number] := by
  cases partition with
  | nil => rfl
  | cons row rest =>
    have hrest := numbered_zipIdx (fun entry => mark ⟨row :: rest, entry.1, entry.2⟩)
      (fun other hother => hmark other (List.mem_cons_of_mem _ hother)) (Nat.le_refl 1)
    have hfirst : begins (mark ⟨row :: rest, row, 1⟩) = true := hmark row (by simp) 1
    simp only [Position.within, List.zipIdx_cons, List.map_cons, List.map_map, numbered, hfirst,
      if_true]
    exact congrArg _ hrest

theorem numbered_all
    (hmark : ∀ partition ∈ partitions, ∀ row ∈ partition, ∀ n,
      begins (mark ⟨partition, row, n⟩) = (n == 1))
    (n : Nat) :
    numbered begins n ((Position.all partitions).map mark) =
      (Position.all partitions).map fun p => mark p ++ [.int64 p.number] := by
  induction partitions generalizing n with
  | nil => rfl
  | cons partition rest ih =>
    rw [Position.all_cons, List.map_append, List.map_append]
    obtain ⟨n', h⟩ := exists_numbered_append begins n ((Position.within partition).map mark)
      ((Position.all rest).map mark)
    rw [h, numbered_within (hmark partition (by simp))]
    exact congrArg _ (ih (fun p hp => hmark p (List.mem_cons_of_mem _ hp)) n')

end Numbers

theorem splitBy_all {begins : Row → Bool} (hne : [] ∉ partitions)
    (hmark : ∀ p ∈ Position.all partitions, begins (mark p) = (p.number == 1)) :
    ((Position.all partitions).map mark).splitBy (fun _ next => !begins next) =
      partitions.map fun partition => (Position.within partition).map mark := by
  have hflatten : (Position.all partitions).map mark =
      (partitions.map fun partition => (Position.within partition).map mark).flatten := by
    rw [Position.all, List.map_flatMap, List.flatMap_def]
  -- a segment is a first row with a mark, and others without one
  have hsegment : ∀ segment ∈ partitions.map fun partition => (Position.within partition).map mark,
      ∃ first rest, segment = first :: rest ∧ begins first = true ∧
        ∀ row ∈ rest, begins row = false := by
    intro segment hsegment
    obtain ⟨partition, hpartition, rfl⟩ := List.mem_map.1 hsegment
    have hmark (p : Position) (hp : p ∈ Position.within partition) :
        begins (mark p) = (p.number == 1) :=
          hmark p (List.mem_flatMap.2 ⟨partition, hpartition, hp⟩)
    cases partition with
    | nil => exact absurd hpartition hne
    | cons row rest =>
      refine ⟨_, _, rfl, hmark ⟨row :: rest, row, 1⟩ (by simp [Position.within]), ?_⟩
      intro marked hmarked
      obtain ⟨p, hp, rfl⟩ := List.mem_map.1 hmarked
      obtain ⟨entry, hentry, rfl⟩ := List.mem_map.1 hp
      rw [hmark _ (List.mem_cons_of_mem _ (List.mem_map_of_mem hentry)), beq_eq_false_iff_ne]
      have hnumber : 2 ≤ entry.2 := List.le_snd_of_mem_zipIdx hentry
      exact Nat.ne_of_gt hnumber
  rw [hflatten]
  apply List.splitBy_flatten
  · intro hnil
    obtain ⟨first, rest, hcons, -⟩ := hsegment [] hnil
    cases hcons
  · intro segment hmem
    obtain ⟨first, rest, rfl, -, hrest⟩ := hsegment segment hmem
    refine List.Pairwise.isChain (List.pairwise_cons.2 ⟨fun row hrow => ?_,
      List.pairwise_of_forall_mem_list fun _ _ row hrow => ?_⟩)
    · rw [hrest row hrow, Bool.not_false]
    · rw [hrest row hrow, Bool.not_false]
  · refine List.Pairwise.isChain (List.pairwise_of_forall_mem_list
      fun left hleft right hright => ?_)
    obtain ⟨_, _, rfl, -⟩ := hsegment left hleft
    obtain ⟨first, rest, rfl, hfirst, -⟩ := hsegment right hright
    exact ⟨by simp, by simp, by simp [hfirst]⟩

def Clustered (same : Row → Row → Bool) (rows : List Row) : Prop :=
  ∀ {first middle last}, [first, middle, last].Sublist rows → same first last → same first middle

theorem eq_or_same_getLast (htrans : ∀ row other third, same row other →
    same other third → same row third)
    (hchain : partition.IsChain fun row next => same row next) (hne : partition ≠ [])
    (hrow : row ∈ partition) : row = partition.getLast hne ∨ same row (partition.getLast hne) := by
  have : IsTrans Row fun row next => same row next := ⟨htrans⟩
  have hpairwise := List.isChain_iff_pairwise.1 hchain
  rw [← List.dropLast_concat_getLast hne] at hrow hpairwise
  obtain hrow | hrow := List.mem_append.1 hrow
  · exact .inr ((List.pairwise_append.1 hpairwise).2.2 row hrow _ (List.mem_singleton_self _))
  · exact .inl (List.mem_singleton.1 hrow)

theorem Partitioned.pairwise (hsymm : ∀ {row other}, same row other → same other row)
    (htrans : ∀ row other third, same row other → same other third → same row third)
    (h : Partitioned same partitions) (hclustered : Clustered same partitions.flatten) :
    partitions.Pairwise fun left right => ∀ row ∈ left, ∀ other ∈ right,
      same row other = false := by
  induction partitions with
  | nil => exact .nil
  | cons partition rest ih =>
    have hrest : Clustered same rest.flatten := fun hsub =>
      hclustered (hsub.trans (List.sublist_append_right partition _))
    refine List.pairwise_cons.2 ⟨fun right hright row hrow other hother => ?_, ih h.tail hrest⟩
    rw [← Bool.not_eq_true]
    intro hsame
    cases rest with
    | nil => cases hright
    | cons next rest =>
      obtain ⟨hlast, hfirst, hdiffer⟩ := (List.isChain_cons_cons.1 h.breaks).1
      obtain ⟨first, next, rfl⟩ := List.exists_cons_of_ne_nil hfirst
      -- what is the same as the row reaches back to the first row of the next partition
      have hnext : same row first := by
        have hmem : other ∈ first :: (next ++ rest.flatten) := List.mem_flatten_of_mem hright hother
        obtain rfl | hmem := List.mem_cons.1 hmem
        · exact hsame
        · refine hclustered (List.Sublist.append (List.singleton_sublist.2 hrow) ?_) hsame
          exact (List.singleton_sublist.2 hmem).cons_cons first
      obtain hrow | hrow := eq_or_same_getLast htrans (h.chain partition (by simp)) hlast hrow
      · rw [List.head_cons, ← hrow, hnext] at hdiffer
        cases hdiffer
      · rw [List.head_cons, htrans _ _ _ (hsymm hrow) hnext] at hdiffer
        cases hdiffer

section Groups

variable {α β : Type} {alike : α → α → Bool} {entries : List (α × List β)} {key : β → α}

theorem firsts_replicate_append (hrefl : ∀ a, alike a a) (n : Nat) (a : α) (rest : List α) :
    firsts alike (List.replicate (n + 1) a ++ rest) =
      a :: (firsts alike rest).filter fun b => !alike a b := by
  induction n with
  | zero => rfl
  | succ n ih =>
    rw [List.replicate_succ, List.cons_append, firsts, ih]
    simp [hrefl]

theorem firsts_flatMap (hrefl : ∀ a, alike a a) (hkey : ∀ e ∈ entries, ∀ b ∈ e.2, key b = e.1)
    (hapart : entries.Pairwise fun e e' => alike e.1 e'.1 = false) :
    firsts alike ((entries.flatMap (·.2)).map key) =
      (entries.filter fun e => !e.2.isEmpty).map (·.1) := by
  induction entries with
  | nil => rfl
  | cons e rest ih =>
    obtain ⟨hfirst, hrest⟩ := List.pairwise_cons.1 hapart
    have hkeys : e.2.map key = List.replicate e.2.length e.1 :=
      List.eq_replicate_iff.2 ⟨List.length_map .., by simpa using hkey e (by simp)⟩
    have ih := ih (fun e he => hkey e (List.mem_cons_of_mem _ he)) hrest
    rw [List.flatMap_cons, List.map_append, hkeys]
    cases he : e.2 with
    | nil => simpa [he] using ih
    | cons b bs =>
      rw [List.length_cons, firsts_replicate_append hrefl, ih,
        List.filter_cons_of_pos (by simp [he]), List.map_cons, List.filter_eq_self.2]
      intro a ha
      obtain ⟨e', he', rfl⟩ := List.mem_map.1 ha
      rw [hfirst e' (List.mem_of_mem_filter he'), Bool.not_false]

theorem filter_flatMap_key (hrefl : ∀ a, alike a a) (hsymm : ∀ {a b}, alike a b → alike b a)
    (hkey : ∀ e ∈ entries, ∀ b ∈ e.2, key b = e.1)
    (hapart : entries.Pairwise fun e e' => alike e.1 e'.1 = false) {e : α × List β}
    (he : e ∈ entries) : (entries.flatMap (·.2)).filter (fun b => alike e.1 (key b)) = e.2 := by
  induction entries with
  | nil => cases he
  | cons e' rest ih =>
    obtain ⟨hfirst, hrest⟩ := List.pairwise_cons.1 hapart
    have hkey' : ∀ e ∈ rest, ∀ b ∈ e.2, key b = e.1 := fun e he =>
      hkey e (List.mem_cons_of_mem _ he)
    rw [List.flatMap_cons, List.filter_append]
    obtain rfl | he := List.mem_cons.1 he
    · have hown : e.2.filter (fun b => alike e.1 (key b)) = e.2 :=
        List.filter_eq_self.2 fun b hb => by rw [hkey e (by simp) b hb, hrefl]
      have hother : (rest.flatMap (·.2)).filter (fun b => alike e.1 (key b)) = [] := by
        rw [List.filter_eq_nil_iff]
        intro b hb
        obtain ⟨e', he', hb⟩ := List.mem_flatMap.1 hb
        rw [hkey' e' he' b hb, hfirst e' he']
        exact Bool.false_ne_true
      rw [hown, hother, List.append_nil]
    · have hother : e'.2.filter (fun b => alike e.1 (key b)) = [] := by
        rw [List.filter_eq_nil_iff]
        intro b hb halike
        rw [hkey e' (by simp) b hb] at halike
        exact Bool.false_ne_true ((hfirst e he).symm.trans (hsymm halike))
      rw [hother, List.nil_append]
      exact ih hkey' hrest he

end Groups

namespace Framing

variable (m : Framing)

theorem alikeRows_refl (row : Row) : m.alikeRows row row := by
  simp [alikeRows, List.zip_eq_zipWith, m.alike_refl]

theorem alikeRows_symm {other : Row} (h : m.alikeRows row other) : m.alikeRows other row := by
  rw [alikeRows, List.all_eq_true] at h ⊢
  intro values hvalues
  rw [← List.zip_swap, List.mem_map] at hvalues
  obtain ⟨swapped, hswapped, rfl⟩ := hvalues
  exact m.alike_symm (h swapped hswapped)

theorem groups_flatMap (env : Env) (s : Schema) (spec : Aggregation)
    {entries : List (Row × List Row)}
    (hkey : ∀ e ∈ entries, ∀ row ∈ e.2, s.project spec.groupBy row = e.1)
    (hapart : entries.Pairwise fun e e' => m.alikeRows e.1 e'.1 = false) :
    m.groups env s spec (entries.flatMap (·.2)) =
      (entries.filter fun e => !e.2.isEmpty).map fun e =>
        e.1 ++ spec.values.map fun v => m.total v.function v.distinct
          (e.2.map fun row => v.args.map (Scalar.eval m.toOperations env s row)) := by
  rw [groups, firsts_flatMap m.alikeRows_refl hkey hapart, List.map_map]
  refine List.map_congr_left fun e he => ?_
  rw [Function.comp_apply, filter_flatMap_key m.alikeRows_refl m.alikeRows_symm hkey hapart
    (List.mem_of_mem_filter he)]

end Framing

end BatchPlan
