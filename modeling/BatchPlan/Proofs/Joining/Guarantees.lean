import BatchPlan.Plan.Schema
import BatchPlan.Proofs.Meaning.Rows
import BatchPlan.Proofs.Meaning.Sorting

namespace BatchPlan

variable {row l : Row} {c : Column} {fields : List Field} {out : List Row} {keys : List SortKey}
  {right left : Schema}

def Field.Admits (f : Field) (v : Value) : Prop :=
  f.nullable = false → v ≠ .null

/-- Rows keep what a schema promises: values that are not NULL, a column that tells them apart, and
an order. -/
structure Schema.Delivers (s : Schema) (o : ValueOrder) (rows : List Row) : Prop where
  fits : ∀ row ∈ rows, List.Forall₂ Field.Admits s.fields row
  key : ∀ c ∈ s.primaryKey, s.contains c ∧ rows.Pairwise fun row other =>
    o.agree s [c] row other = false
  order : (∀ key ∈ s.sortOrder, s.contains key.column) ∧ rows.Pairwise (o.rowLe s s.sortOrder · ·)

instance (f : Field) (v : Value) : Decidable (f.Admits v) :=
  inferInstanceAs (Decidable (_ → _))

instance (s : Schema) (o : ValueOrder) (rows : List Row) : Decidable (s.Delivers o rows) :=
  decidable_of_iff (_ ∧ _ ∧ _) ⟨fun ⟨fits, key, order⟩ => ⟨fits, key, order⟩, fun h =>
    ⟨h.fits, h.key, h.order⟩⟩

/-- The sides of a join. Right rows are found for each left row anew. The values that the join
defines are known from a left row and the right rows that it meets. -/
structure Sides where
  left : Schema
  right : Schema
  rows : List Row
  inner : Env → List Row
  values : Row → List Row → Row

namespace JoinSpec

variable (j : JoinSpec) (ops : Operations) (env : Env) (sides : Sides)

def meets (l : Row) : List Row :=
  (sides.inner (env.bind sides.left l j.strategy.bindings)).filter
  (j.admits ops env sides.left sides.right l)

/-- The rows for a left row that meets some right rows. -/
def beside (l : Row) (met : List Row) : List Row :=
  match j.output with
  | .left =>
    if j.isLookup || met.isEmpty == j.anti then [l ++ sides.values l met] else []
  | .both =>
    if met.isEmpty && j.type != .inner then
      [l ++ (List.replicate sides.right.fields.length .null ++ sides.values l met)]
    else met.map fun r => l ++ (r ++ sides.values l [r])
  | .right => met.map fun r => r ++ sides.values l [r]

/-- Right rows that meet no left row. -/
def unmet : List Row :=
  if j.type = .fullOuter ∧ j.output = .both then
    ((sides.inner env).filter fun r => !sides.rows.any
      (j.admits ops env sides.left sides.right · r)).map
      fun r => List.replicate sides.left.fields.length .null ++ (r ++ sides.values [] [r])
  else []

def joined : List Row :=
  (sides.rows.flatMap fun l => j.beside sides l (j.meets ops env sides l)) ++ j.unmet ops env sides

/-- Are rows passed on left row by left row? -/
def isSteady : Bool :=
  match j.output, j.strategy with
  | .left, _ => true
  | _, .hash .. => false
  | _, _ => j.type != .fullOuter

/-- A join emits its rows, and those of one left row after the other if it goes through the left
rows. -/
def Emits (out : List Row) : Prop :=
  out.Perm (j.joined ops env sides) ∧ (j.isSteady → out = j.joined ops env sides)

end JoinSpec

namespace Schema

variable {s left : Schema} {c : Column} {o : ValueOrder}

theorem index?_padded (optional : Bool) (fields : List Field) :
    (ofFields (Plan.padded optional fields)).index? c = (ofFields fields).index? c := by
  have hcandidates : (ofFields (Plan.padded optional fields)).candidates c =
      ((ofFields fields).candidates c).map fun found =>
        (found.1, { found.2 with nullable := found.2.nullable || optional }) := by
    simp only [candidates, ofFields, Plan.padded, List.zipIdx_map, List.filterMap_map,
      List.map_filterMap]
    refine List.filterMap_congr fun found _ => ?_
    by_cases hfound : found.1.answersTo c.relation.isSome (Text.lower c.text) <;>
      simp_all [Field.answersTo, Field.column]
  unfold index?
  rw [hcandidates]
  obtain - | ⟨first, - | ⟨second, rest⟩⟩ := (ofFields fields).candidates c <;> rfl

/-- Fields of a schema stand in front of others. -/
def Leads (left s : Schema) : Prop :=
  ∃ optional more, s.fields = Plan.padded optional left.fields ++ more

theorem Leads.read (h : left.Leads s) (hleft : left.contains c) (hs : s.contains c)
    (hl : l.length = left.fields.length) (more : Row) : s.read (l ++ more) c = left.read l c := by
  obtain ⟨optional, fields, h⟩ := h
  have hindex : (ofFields (Plan.padded optional left.fields)).index? c = left.index? c :=
    index?_padded optional left.fields
  have hlacks : (ofFields fields).Lacks c := by
    have hpadded : (ofFields (Plan.padded optional left.fields)).contains c := by
      rwa [contains, hindex]
    obtain ⟨i, f, hf⟩ := contains_iff.1 hpadded
    obtain ⟨i', f', hf'⟩ := contains_iff.1 hs
    rw [candidates_append (a := ofFields (Plan.padded optional left.fields))
      (b := ofFields fields) h, hf] at hf'
    simpa [Lacks] using (List.cons_eq_cons.1 hf').2
  rw [read_append_left (a := ofFields (Plan.padded optional left.fields)) (b := ofFields fields) h
    (by simpa [Plan.padded] using hl) hlacks, Schema.read, hindex, Schema.read]

end Schema

theorem ValueOrder.rowLe_of_reads {o : ValueOrder} {s t : Schema} {a b a' b' : Row}
    (ha : ∀ key ∈ keys, s.read a key.column = t.read a' key.column)
    (hb : ∀ key ∈ keys, s.read b key.column = t.read b' key.column) :
    o.rowLe s keys a b = o.rowLe t keys a' b' := by
  induction keys with
  | nil => rfl
  | cons key rest ih =>
    simp only [List.forall_mem_cons] at ha hb
    simp only [rowLe, keyLe, ha.1, hb.1, ih ha.2 hb.2]

namespace JoinSpec

variable {j : JoinSpec} {ops : Operations} {env : Env} {sides : Sides} {o : ValueOrder} {l : Row}
  {met : List Row}

theorem fields_left (h : j.output = .left) :
    (Plan.joinSchema left right j).fields = left.fields ++ j.definitions.map Definition.field := by
  simp [Plan.joinSchema, h]

theorem fields_both (h : j.output = .both) :
    (Plan.joinSchema left right j).fields = Plan.padded (j.type == .fullOuter) left.fields ++
      (Plan.padded (j.type == .leftOuter || j.type == .fullOuter) right.fields ++
        j.definitions.map Definition.field) := by
  simp [Plan.joinSchema, h]

theorem leads_joinSchema (houtput : j.output ≠ .right) (left right : Schema) :
    left.Leads (Plan.joinSchema left right j) := by
  cases h : j.output with
  | right => exact absurd h houtput
  | left => exact ⟨false, _, by rw [fields_left h, Plan.padded_false]⟩
  | both => exact ⟨_, _, fields_both h⟩

theorem exists_of_mem_beside (houtput : j.output ≠ .right) (h : row ∈ j.beside sides l met) :
    ∃ more, row = l ++ more := by
  unfold beside at h
  split at h
  next =>
    split at h
    · exact ⟨_, List.mem_singleton.1 h⟩
    · cases h
  next =>
    split at h
    · exact ⟨_, List.mem_singleton.1 h⟩
    · obtain ⟨r, -, rfl⟩ := List.mem_map.1 h
      exact ⟨_, rfl⟩
  next hright => exact absurd hright houtput

theorem length_beside (h : j.output = .left ∨ met.length ≤ 1) (houtput : j.output ≠ .right) :
    (j.beside sides l met).length ≤ 1 := by
  unfold beside
  split
  next => split <;> simp
  next hboth =>
    split
    · simp
    · simpa [hboth] using h
  next hright => exact absurd hright houtput

end JoinSpec

theorem Field.admits_of_nullable (h : ∀ f ∈ fields, f.nullable)
    (hlength : fields.length = row.length) : List.Forall₂ Admits fields row :=
  List.forall₂_iff_zip.2 ⟨hlength, fun hmem hf => by simp [h _ (List.of_mem_zip hmem).1] at hf⟩

theorem Field.admits_padded (optional : Bool) (h : List.Forall₂ Admits fields row) :
    List.Forall₂ Admits (Plan.padded optional fields) row :=
  List.forall₂_map_left_iff.2 (h.imp fun _ _ hv hf => hv (Bool.or_eq_false_iff.1 hf).1)

/-- Both sides keep their promises, and the join promises nothing of the values that it defines. -/
structure Sides.Deliver (sides : Sides) (j : JoinSpec) (o : ValueOrder) : Prop where
  left : sides.left.Delivers o sides.rows
  right : ∀ env, sides.right.Delivers o (sides.inner env)
  length : ∀ l met, j.definitions.length = (sides.values l met).length
  nullable : ∀ d ∈ j.definitions, d.nullable

namespace Sides.Deliver

variable {j : JoinSpec} {ops : Operations} {env : Env} {sides : Sides} {o : ValueOrder} {l : Row}

theorem values (h : sides.Deliver j o) (l : Row) (met : List Row) :
    List.Forall₂ Field.Admits (j.definitions.map Definition.field) (sides.values l met) :=
  Field.admits_of_nullable (List.forall_mem_map.2 h.nullable) (by rw [List.length_map, h.length])

theorem nulls (fields : List Field) :
    List.Forall₂ Field.Admits (Plan.padded true fields) (List.replicate fields.length .null) :=
  Field.admits_of_nullable (by simp [Plan.padded]) (by simp [Plan.padded])

theorem fits_beside (h : sides.Deliver j o) (houtput : j.output ≠ .right)
    (htype : j.type ≠ .rightOuter)
    (hl : l ∈ sides.rows) (hrow : row ∈ j.beside sides l (j.meets ops env sides l)) :
    List.Forall₂ Field.Admits (Plan.joinSchema sides.left sides.right j).fields row := by
  have hleft := h.left.fits l hl
  unfold JoinSpec.beside at hrow
  split at hrow
  next houtput =>
    rw [JoinSpec.fields_left houtput]
    split at hrow
    · rw [List.mem_singleton.1 hrow]
      exact List.rel_append hleft (h.values _ _)
    · cases hrow
  next houtput =>
    rw [JoinSpec.fields_both houtput]
    split at hrow
    next hnone =>
      have hpadded : (j.type == .leftOuter || j.type == .fullOuter) = true := by
        cases htype' : j.type <;> simp_all
      rw [List.mem_singleton.1 hrow, hpadded]
      exact List.rel_append (Field.admits_padded _ hleft) (List.rel_append (nulls _) (h.values _ _))
    · obtain ⟨r, hr, rfl⟩ := List.mem_map.1 hrow
      have hright := (h.right _).fits r (List.mem_of_mem_filter hr)
      exact List.rel_append (Field.admits_padded _ hleft)
        (List.rel_append (Field.admits_padded _ hright) (h.values _ _))
  next hright => exact absurd hright houtput

theorem fits_unmet (h : sides.Deliver j o) (hrow : row ∈ j.unmet ops env sides) :
    List.Forall₂ Field.Admits (Plan.joinSchema sides.left sides.right j).fields row := by
  unfold JoinSpec.unmet at hrow
  split at hrow
  next hfull =>
    obtain ⟨r, hr, rfl⟩ := List.mem_map.1 hrow
    have hright := (h.right env).fits r (List.mem_of_mem_filter hr)
    rw [JoinSpec.fields_both hfull.2, hfull.1]
    exact List.rel_append (nulls _) (List.rel_append (Field.admits_padded _ hright) (h.values _ _))
  next => cases hrow

end Sides.Deliver

namespace JoinSpec

variable {j : JoinSpec} {ops : Operations} {env : Env} {sides : Sides} {o : ValueOrder} {l : Row}

/-- A merge by the key of the right side: keys that are equal to the same value are the same. -/
def Exact (j : JoinSpec) (ops : Operations) (o : ValueOrder) (sides : Sides) : Prop :=
  ∀ leftKey rightKey, j.strategy = .merge leftKey rightKey → sides.right.isPrimaryKey rightKey →
    ∀ l ∈ sides.rows, ∀ env, ∀ r ∈ sides.inner env, ∀ r' ∈ sides.inner env,
      ops.same (sides.left.read l leftKey) (sides.right.read r rightKey) = .true →
        ops.same (sides.left.read l leftKey) (sides.right.read r' rightKey) = .true →
          o.le (sides.right.read r rightKey) (sides.right.read r' rightKey)

theorem length_meets (hexact : j.Exact ops o sides)
    (hright : ∀ env, sides.right.Delivers o (sides.inner env))
    {leftKey rightKey : Column} (hmerge : j.strategy = .merge leftKey rightKey)
    (hkey : sides.right.isPrimaryKey rightKey) (hl : l ∈ sides.rows) :
    (j.meets ops env sides l).length ≤ 1 := by
  obtain ⟨c, hc, hindex⟩ : ∃ c ∈ sides.right.primaryKey,
    sides.right.index? c = sides.right.index? rightKey := by
    unfold Schema.isPrimaryKey at hkey
    split at hkey
    next c i hc hi => exact ⟨c, hc, (beq_iff_eq.1 hkey).trans hi.symm⟩
    next => cases hkey
  have hread (row : Row) : sides.right.read row c = sides.right.read row rightKey := by
    rw [Schema.read, hindex, Schema.read]
  have hsame {r : Row} (hr : r ∈ j.meets ops env sides l) :
      ops.same (sides.left.read l leftKey) (sides.right.read r rightKey) = .true := by
    have hadmits := (List.mem_filter.1 hr).2
    rw [admits, Bool.and_eq_true, hmerge] at hadmits
    exact beq_iff_eq.1 hadmits.1
  have happart := ((hright _).key c hc).2.sublist
    (List.filter_sublist (p := j.admits ops env sides.left sides.right l)
      (l := sides.inner (env.bind sides.left l j.strategy.bindings)))
  change (j.meets ops env sides l).Pairwise _ at happart
  have hmem {r : Row} (hr : r ∈ j.meets ops env sides l) := List.mem_of_mem_filter hr
  rcases hmet : j.meets ops env sides l with _ | ⟨r, _ | ⟨r', rest⟩⟩
  · simp
  · simp
  · rw [hmet] at happart hsame hmem
    have hagree : o.agree sides.right [c] r r' = true := by
      have hle := hexact _ _ hmerge hkey l hl _ r (hmem (by simp)) r' (hmem (by simp))
        (hsame (by simp)) (hsame (by simp))
      have hge := hexact _ _ hmerge hkey l hl _ r' (hmem (by simp)) r (hmem (by simp))
        (hsame (by simp)) (hsame (by simp))
      simp [ValueOrder.agree, hread, hle, hge]
    simp [(List.pairwise_cons.1 happart).1 r' (by simp)] at hagree

theorem joined_of_isSteady (h : j.isSteady) : j.joined ops env sides =
    sides.rows.flatMap fun l => j.beside sides l (j.meets ops env sides l) := by
  have hunmet : j.unmet ops env sides = [] := by
    refine if_neg fun hfull => ?_
    unfold isSteady at h
    rw [hfull.2, hfull.1] at h
    cases hs : j.strategy <;> simp [hs] at h
  rw [joined, hunmet, List.append_nil]

theorem Emits.pairwise (hout : j.Emits ops env sides out) (hsteady : j.isSteady)
    (houtput : j.output ≠ .right) {R S : Row → Row → Prop} (hrows : sides.rows.Pairwise S)
    (hself : ∀ l ∈ sides.rows, (j.beside sides l (j.meets ops env sides l)).Pairwise R)
    (hcross : ∀ l ∈ sides.rows, ∀ l' ∈ sides.rows, S l l' →
      ∀ more more', R (l ++ more) (l' ++ more')) :
    out.Pairwise R := by
  rw [hout.2 hsteady, joined_of_isSteady hsteady, List.pairwise_flatMap]
  refine ⟨hself, hrows.imp_of_mem fun {l l'} hl hl' hS row hrow row' hrow' => ?_⟩
  obtain ⟨more, rfl⟩ := exists_of_mem_beside houtput hrow
  obtain ⟨more', rfl⟩ := exists_of_mem_beside houtput hrow'
  exact hcross l hl l' hl' hS more more'

/-- A key is promised only if each left row has at most one row. -/
theorem of_mem_primaryKey (houtput : j.output ≠ .right)
    (h : c ∈ (Plan.joinSchema left right j).primaryKey) :
    c ∈ left.primaryKey ∧ (Plan.joinSchema left right j).contains c ∧ j.isSteady ∧
      (j.output = .left ∨ j.output = .both ∧ ∃ leftKey rightKey,
        j.strategy = .merge leftKey rightKey ∧ right.isPrimaryKey rightKey) := by
  obtain ⟨hkey, hcontains⟩ := Option.mem_filter_iff.1 h
  cases hout : j.output with
  | right => exact absurd hout houtput
  | left =>
    rw [hout] at hkey
    exact ⟨hkey, hcontains, by simp [isSteady, hout], .inl rfl⟩
  | both =>
    cases hstrategy : j.strategy with
    | hash | nestedLoop => simp [hout, hstrategy] at hkey
    | merge leftKey rightKey =>
      simp only [hout, hstrategy, Option.mem_def, Option.ite_none_right_eq_some,
        Bool.and_eq_true] at hkey
      exact ⟨hkey.2, hcontains, by simpa [isSteady, hout, hstrategy] using hkey.1.2,
        .inr ⟨rfl, leftKey, rightKey, rfl, hkey.1.1⟩⟩

theorem sortOrder_joinSchema (houtput : j.output ≠ .right) (left right : Schema) :
    (Plan.joinSchema left right j).sortOrder = if j.isSteady then
      left.sortOrder.takeWhile fun key => (Plan.joinSchema left right j).contains
        key.column else [] := by
  have hkeys (keys : List SortKey) (t : Schema) : (t.withSortOrder keys).sortOrder =
    keys.takeWhile fun key => (t.withSortOrder keys).contains key.column := rfl
  rw [Plan.joinSchema, hkeys]
  unfold isSteady
  cases hout : j.output with
  | right => exact absurd hout houtput
  | left => rfl
  | both =>
    cases j.strategy with
    | hash => rfl
    | merge | nestedLoop => cases j.type <;> rfl

end JoinSpec

namespace Sides.Deliver

variable {j : JoinSpec} {ops : Operations} {env : Env} {sides : Sides} {o : ValueOrder}
    {out : List Row}

theorem read_joinSchema (h : sides.Deliver j o) (houtput : j.output ≠ .right) (hl : l ∈ sides.rows)
    (hleft : sides.left.contains c) (hc : (Plan.joinSchema sides.left sides.right j).contains c)
    (more : Row) :
    (Plan.joinSchema sides.left sides.right j).read (l ++ more) c = sides.left.read l c :=
  (JoinSpec.leads_joinSchema houtput _ _).read hleft hc (h.left.fits l hl).length_eq.symm more

theorem key_joinSchema (h : sides.Deliver j o) (houtput : j.output ≠ .right)
    (hexact : j.output = .both → j.Exact ops o sides) (hout : j.Emits ops env sides out)
    (hc : c ∈ (Plan.joinSchema sides.left sides.right j).primaryKey) :
    (Plan.joinSchema sides.left sides.right j).contains c ∧ out.Pairwise fun row other =>
      o.agree (Plan.joinSchema sides.left sides.right j) [c] row other = false := by
  obtain ⟨hleft, hcontains, hsteady, hunique⟩ := JoinSpec.of_mem_primaryKey houtput hc
  obtain ⟨hlc, hapart⟩ := h.left.key c hleft
  refine ⟨hcontains, hout.pairwise hsteady houtput hapart (fun l hl => ?_)
    fun l hl l' hl' happart more more' => ?_⟩
  · have hlength : (j.beside sides l (j.meets ops env sides l)).length ≤ 1 := by
      refine JoinSpec.length_beside (hunique.imp_right ?_) houtput
      rintro ⟨hboth, leftKey, rightKey, hmerge, hkey⟩
      exact JoinSpec.length_meets (hexact hboth) h.right hmerge hkey hl
    rcases hrows : j.beside sides l (j.meets ops env sides l) with _ | ⟨row, _ | ⟨row', rest⟩⟩
    · exact .nil
    · exact List.pairwise_singleton _ _
    · simp [hrows] at hlength
  · simpa only [ValueOrder.agree, List.all_cons, List.all_nil,
      h.read_joinSchema houtput hl hlc hcontains,
      h.read_joinSchema houtput hl' hlc hcontains] using happart

theorem order_joinSchema (h : sides.Deliver j o) (houtput : j.output ≠ .right)
    (hsteady : j.isSteady)
    (hout : j.Emits ops env sides out) {rest : List SortKey}
    (horder : sides.left.sortOrder = keys ++ rest)
    (hkeys : ∀ key ∈ keys, (Plan.joinSchema sides.left sides.right j).contains key.column) :
    out.Pairwise (o.rowLe (Plan.joinSchema sides.left sides.right j) keys · ·) := by
  have hread {l l' : Row} (hl : l ∈ sides.rows) (hl' : l' ∈ sides.rows) (more more' : Row) :
      o.rowLe (Plan.joinSchema sides.left sides.right j) keys (l ++ more) (l' ++ more') =
        o.rowLe sides.left keys l l' := by
    have hleft (key : SortKey) (hkey : key ∈ keys) : sides.left.contains key.column :=
      h.left.order.1 key (by simp [horder, hkey])
    exact ValueOrder.rowLe_of_reads
      (fun key hkey => h.read_joinSchema houtput hl (hleft key hkey) (hkeys key hkey) more)
      fun key hkey => h.read_joinSchema houtput hl' (hleft key hkey) (hkeys key hkey) more'
  refine hout.pairwise hsteady houtput h.left.order.2 (fun l hl => ?_)
    fun l hl l' hl' hle more more' => ?_
  · refine List.pairwise_of_forall_mem_list fun row hrow row' hrow' => ?_
    obtain ⟨more, rfl⟩ := JoinSpec.exists_of_mem_beside houtput hrow
    obtain ⟨more', rfl⟩ := JoinSpec.exists_of_mem_beside houtput hrow'
    rw [hread hl hl]
    exact or_self_iff.1 (ValueOrder.rowLe_total keys l l)
  · rw [horder, ValueOrder.rowLe_append, Bool.and_eq_true] at hle
    rw [hread hl hl', hle.1]

end Sides.Deliver

/-- The rows of a join keep what its schema promises. -/
theorem Plan.joinSchema_delivers (j : JoinSpec) (houtput : j.output ≠ .right)
    (htype : j.type ≠ .rightOuter)
    (ops : Operations) (env : Env) (o : ValueOrder) (sides : Sides) (h : sides.Deliver j o)
    (hexact : j.output = .both → j.Exact ops o sides) (hout : j.Emits ops env sides out) :
    (joinSchema sides.left sides.right j).Delivers o out := by
  refine ⟨fun row hrow => ?_, fun c hc => h.key_joinSchema houtput hexact hout hc, ?_⟩
  · obtain hrow | hrow := List.mem_append.1 (hout.1.mem_iff.1 hrow)
    · obtain ⟨l, hl, hrow⟩ := List.mem_flatMap.1 hrow
      exact h.fits_beside houtput htype hl hrow
    · exact h.fits_unmet hrow
  · rw [JoinSpec.sortOrder_joinSchema houtput]
    split
    next hsteady =>
      have hkeys : ∀ key ∈ sides.left.sortOrder.takeWhile
          (fun key => (joinSchema sides.left sides.right j).contains key.column),
          (joinSchema sides.left sides.right j).contains key.column :=
        List.all_eq_true.1 List.all_takeWhile
      exact ⟨hkeys, h.order_joinSchema houtput hsteady hout
        List.takeWhile_append_dropWhile.symm hkeys⟩
    next => exact ⟨by simp, List.pairwise_of_forall fun _ _ => rfl⟩

def codeSchema (entity : String) (dataType : DataType) : Schema :=
  Plan.scanSchema { entity, relation := entity, source := .entity,
                    columns := [⟨"code", dataType, false, none⟩], primaryKey :=
                      some "code", rowCount := none }

def codeJoin : JoinSpec where
  type := .inner
  strategy := .merge (.qualified "account" "code") (.qualified "level" "code")

def codeSides (codes : List Value) : Sides where
  left := codeSchema "account" .int32
  right := codeSchema "level" .utf8
  rows := [[.int32 1]]
  inner _ := codes.map ([·])
  values _ _ := []

def Value.weight (text : String → Int) : Value → Int
  | .int32 n => n
  | .text t => text t
  | _ => 0

/-- Texts are told apart by their lengths. -/
def ValueOrder.byLength : ValueOrder where
  le v w := v.weight (·.length) ≤ w.weight (·.length)
  total v w := by simpa using Int.le_total ..
  trans huv hvw := decide_eq_true (Int.le_trans (of_decide_eq_true huv) (of_decide_eq_true hvw))

/-- Each text that is compared with a number stands for one. -/
def Operations.casting : Operations :=
  { (Runtime.ofTables fun _ => []).toOperations with
    equal := fun v w => v.weight (fun _ => 1) == w.weight fun _ => 1
    equal_int := fun _ _ => rfl }

theorem codeSides_deliver {codes : List Value}
    (hcodes : (codeSchema "level" .utf8).Delivers .byLength (codes.map ([·]))) :
    (codeSides codes).Deliver codeJoin .byLength := by
  have hleft : (codeSchema "account" .int32).Delivers .byLength [[.int32 1]] := by decide +kernel
  exact ⟨hleft, fun _ => hcodes, fun _ _ => rfl, by decide⟩

theorem codeSides_delivers : (codeSides [.text "1"]).Deliver codeJoin .byLength ∧
    (Plan.joinSchema (codeSides []).left (codeSides []).right codeJoin).Delivers .byLength
      [[.int32 1, .text "1"]] := by
  have hsides : (codeSides [.text "1"]).Deliver codeJoin .byLength :=
    codeSides_deliver (by decide +kernel)
  have hexact : codeJoin.Exact .casting .byLength (codeSides [.text "1"]) := by
    intro leftKey rightKey hmerge hkey l hl env r hr r' hr' hsame hsame'
    rw [List.mem_singleton.1 hr, List.mem_singleton.1 hr']
    exact or_self_iff.1 (ValueOrder.total ..)
  exact ⟨hsides, Plan.joinSchema_delivers codeJoin (by decide) (by decide) .casting .empty .byLength
    (codeSides [.text "1"]) hsides (fun _ => hexact)
    ⟨.of_eq (by decide +kernel), fun _ => by decide +kernel⟩⟩

/-- Two keys that are equal to the same number: the row for that number is there twice. -/
theorem codeSides_clash : (codeSides [.text "1", .text "01"]).Deliver codeJoin .byLength ∧
    codeJoin.Emits .casting .empty (codeSides [.text "1", .text "01"])
      [[.int32 1, .text "1"], [.int32 1, .text "01"]] ∧
    ¬ (Plan.joinSchema (codeSides []).left (codeSides []).right codeJoin).Delivers .byLength
      [[.int32 1, .text "1"], [.int32 1, .text "01"]] :=
  ⟨codeSides_deliver (by decide +kernel), ⟨.of_eq (by decide +kernel), fun _ => by decide +kernel⟩,
    by decide +kernel⟩

end BatchPlan
