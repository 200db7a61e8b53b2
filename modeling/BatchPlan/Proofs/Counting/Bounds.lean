import BatchPlan.Proofs.Counting.Executions
import BatchPlan.Proofs.Substitution.Blocks
import BatchPlan.Proofs.WellFormed.Plans

namespace BatchPlan

variable {p : Plan} {e : Scalar} {ops : Operations} {out : List Row} {env : Env}

namespace Scalar

def fitsWord : Scalar → Bool
  | .literal v => v.int?.all fun n => n < (UInt64.size : Int)
  | _ => true

def draws (e : Scalar) : Bool :=
  e.parts.any fun
    | .call .newId _ => true
    | _ => false

theorem fixed_of_columns (hcolumns : e.columns.isEmpty) (hdraws : e.draws = false) : e.Fixed := by
  intro part hpart
  have hcolumn : part.column? = none := by
    rw [List.isEmpty_iff, columns, List.filterMap_eq_nil_iff] at hcolumns
    exact hcolumns part hpart
  have hdraw := List.any_eq_false.1 hdraws part hpart
  unfold varies
  split
  · cases hcolumn
  · exact absurd rfl hdraw
  · rfl

end Scalar

namespace Plan

variable {inputs : List Plan} {rows : List (List Row)} {m : UInt64} {s : Schema}

/-- The bound that an operator adds is a number that fits, and does not rest on a drawn
identifier. -/
def accurate : Plan → Bool
  | .constant _ rows => rows.length < UInt64.size
  | .top _ count _ _ => count.fitsWord
  | .offset _ _ fetch => fetch.all Scalar.fitsWord
  | .filter input e => e.conjuncts.all fun c => !(pinsKey input.schema c && c.draws)
  | _ => true

variable {ops : Operations} {env : Env}

theorem counts_of_literalCount? {n : UInt64} (he : e.fitsWord) (hn : literalCount? e = some n) :
    e.Counts ops env n.toNat := by
  unfold literalCount? at hn
  split at hn
  next v =>
    obtain ⟨k, hk, hn⟩ := Option.bind_eq_some_iff.1 hn
    split at hn
    next hpos =>
      cases hn
      have hlt : k < (UInt64.size : Int) := by simpa [Scalar.fitsWord, hk] using he
      have hword : k.toNat < UInt64.size := by omega
      rw [Scalar.Counts, Scalar.eval, hk, Nat.toUInt64_eq, UInt64.toNat_ofNat_of_lt' hword]
      congr 1
      omega
    next => cases hn
  next => cases hn

theorem toNat_of_addRows {sum n : UInt64} (h : addRows sum n = .ok m) :
    m.toNat = sum.toNat + n.toNat := by
  unfold addRows at h
  split at h
  next hfits =>
    cases h
    rw [UInt64.toNat_add]
    exact Nat.mod_eq_of_lt hfits
  next => cases h

def Bounds (p : Plan) (rows : List Row) : Prop :=
  ∀ m, p.maxRows = .ok (some m) → rows.length ≤ m.toNat

theorem bounds_single {input : Plan} {inputs : List (List Row)}
    (h : List.Forall₂ Bounds [input] inputs) : input.Bounds inputs.flatten := by
  cases h with
  | cons hrows hnil =>
    cases hnil
    simpa using hrows

theorem length_flatten_le {sum : UInt64} (hrows : List.Forall₂ Bounds inputs rows)
    (hm : sumMaxRows sum inputs = .ok (some m)) : sum.toNat + rows.flatten.length ≤ m.toNat := by
  induction hrows generalizing sum with
  | nil =>
    rw [sumMaxRows] at hm
    cases hm
    exact Nat.le_refl _
  | @cons p out rest more hfirst _ ih =>
    rw [sumMaxRows] at hm
    obtain ⟨most, hmost, hm⟩ := Result.exists_of_bind hm
    cases most with
    | none => cases hm
    | some n =>
      obtain ⟨sum', hsum, hm⟩ := Result.exists_of_bind hm
      have hadd := toNat_of_addRows hsum
      have hout := hfirst n hmost
      have hrest := ih hm
      rw [List.flatten_cons, List.length_append]
      omega

theorem length_le_one_of_pins (hops : ops.Coherent) {key value : Scalar} {rows : List Row}
    (hpins : pinsKey.pins s key value) (hdraws : value.draws = false)
    (hapart : s.TellsApart ops rows) (hrows : ∀ row ∈ rows, ∃ (id : Value) (hid : id ≠ .null),
      ops.same (key.eval (ops.drawing id hid) env s row)
        (value.eval (ops.drawing id hid) env s row) = .true) : rows.length ≤ 1 := by
  rw [pinsKey.pins, Bool.and_eq_true, Option.any_eq_true] at hpins
  obtain ⟨⟨c, hc, hprimary⟩, hcolumns⟩ := hpins
  have hfixed := Scalar.fixed_of_columns hcolumns hdraws
  have hid : Value.boolean true ≠ .null := nofun
  refine Schema.length_le_one_of_pinned hops hprimary hapart
    (v := value.eval (ops.drawing (.boolean true) hid) env s []) fun row hrow => ?_
  obtain ⟨id, hid', hsame⟩ := hrows row hrow
  have hvalue : value.eval (ops.drawing id hid') env s row =
      value.eval (ops.drawing (.boolean true) hid) env s [] := Scalar.eval_of_fixed value hfixed
  rw [hvalue] at hsame
  cases key with
  | column c' =>
    cases hc
    rwa [Scalar.eval] at hsame
  | _ => cases hc

theorem length_le_one_of_pinsKey (hops : ops.Coherent) {c : Scalar} {rows : List Row}
    (hpins : pinsKey s c)
    (hdraws : c.draws = false) (hapart : s.TellsApart ops rows)
    (hrows : ∀ row ∈ rows, c.Admits ops env s row) : rows.length ≤ 1 := by
  unfold pinsKey at hpins
  split at hpins
  next left right =>
    rw [Scalar.draws, Scalar.parts, List.any_cons, List.any_append, Bool.or_eq_false_iff,
      Bool.or_eq_false_iff] at hdraws
    have hsame : ∀ row ∈ rows, ∃ (id : Value) (hid : id ≠ .null),
        ops.same (left.eval (ops.drawing id hid) env s row)
          (right.eval (ops.drawing id hid) env s row) = .true := by
      intro row hrow
      obtain ⟨id, hid, htrue⟩ := hrows row hrow
      rw [Scalar.eval] at htrue
      exact ⟨id, hid, htrue⟩
    rcases Bool.or_eq_true_iff.1 hpins with hleft | hright
    · exact length_le_one_of_pins hops hleft hdraws.2.2 hapart hsame
    · have hturned : ∀ row ∈ rows, ∃ (id : Value) (hid : id ≠ .null),
          ops.same (right.eval (ops.drawing id hid) env s row)
            (left.eval (ops.drawing id hid) env s row) = .true := by
        intro row hrow
        obtain ⟨id, hid, htrue⟩ := hsame row hrow
        exact ⟨id, hid, hops.same_symm htrue⟩
      exact length_le_one_of_pins hops hright hdraws.2.1 hapart hturned
  next => cases hpins

section

variable {input : Plan} {incoming out : List Row}

theorem bounds_filter (hops : ops.Coherent) (hlocal : (Plan.filter input e).accurate)
    (hinput : input.Bounds incoming) (hturns : (Plan.filter input e).Turns ops env incoming out)
    (hapart : (Plan.filter input e).schema.TellsApart ops out) :
    (Plan.filter input e).Bounds out := by
  obtain ⟨hle, hadmits⟩ := hturns
  intro m hm
  rw [maxRows] at hm
  split at hm
  next hpinned =>
    cases hm
    obtain ⟨c, hc, hpins⟩ := List.any_eq_true.1 hpinned
    have hconjunct : ∀ row ∈ out, c.Admits ops env input.schema row := by
      intro row hrow
      obtain ⟨id, hid, htrue⟩ := hadmits row hrow
      exact ⟨id, hid, Scalar.truth_eq_true_iff.1 htrue c hc⟩
    have hdraws : c.draws = false := by
      have hc := List.all_eq_true.1 hlocal c hc
      simpa [hpins] using hc
    rw [schema] at hapart
    exact length_le_one_of_pinsKey hops hpins hdraws hapart hconjunct
  next => exact Nat.le_trans hle (hinput m hm)

theorem bounds_top {count : Scalar} {percent withTies : Bool}
    (hlocal : (Plan.top input count percent withTies).accurate) (hinput : input.Bounds incoming)
    (hturns : (Plan.top input count percent withTies).Turns ops env incoming out) :
    (Plan.top input count percent withTies).Bounds out := by
  obtain ⟨hle, hcount⟩ := hturns
  intro m hm
  rw [maxRows] at hm
  split at hm
  next => cases hm
  next hplain =>
    rw [Bool.or_eq_true, not_or, Bool.not_eq_true, Bool.not_eq_true] at hplain
    split at hm
    next n hn =>
      obtain ⟨most, hmost, hm⟩ := Result.exists_of_map hm
      cases hm
      have hn := hcount hplain.1 hplain.2 _ (counts_of_literalCount? hlocal hn)
      cases most with
      | none => exact hn
      | some k =>
        have hk := Nat.le_trans hle (hinput k hmost)
        rw [Option.map_some, Option.getD_some, UInt64.toNat_min]
        omega
    next => cases hm

theorem bounds_offset {start : Scalar} {fetch : Option Scalar}
    (hlocal : (Plan.offset input start fetch).accurate) (hinput : input.Bounds incoming)
    (hturns : (Plan.offset input start fetch).Turns ops env incoming out) :
    (Plan.offset input start fetch).Bounds out := by
  obtain ⟨hle, hfetch⟩ := hturns
  intro m hm
  rw [maxRows] at hm
  split at hm
  next n hn =>
    cases hm
    obtain ⟨e, rfl, he⟩ := Option.bind_eq_some_iff.1 hn
    exact hfetch e rfl _ (counts_of_literalCount? hlocal he)
  next => exact Nat.le_trans hle (hinput m hm)

theorem bounds_aggregate {spec : Aggregation} (hinput : input.Bounds incoming)
    (hturns : (Plan.aggregate input spec).Turns ops env incoming out) :
    (Plan.aggregate input spec).Bounds out := by
  intro m hm
  rw [maxRows] at hm
  rw [Turns] at hturns
  split at hm
  next htotal =>
    cases hm
    rw [if_pos htotal] at hturns
    exact Nat.le_of_eq hturns
  next hgroups =>
    rw [if_neg hgroups] at hturns
    exact Nat.le_trans hturns (hinput m hm)

theorem bounds_join {right : Plan} {spec : JoinSpec} (hinput : input.Bounds incoming)
    (hturns : (Plan.join input right spec).Turns ops env incoming out) :
    (Plan.join input right spec).Bounds out := by
  intro m hm
  rw [maxRows] at hm
  split at hm
  next hsemi => exact Nat.le_trans (hturns hsemi) (hinput m hm)
  next => cases hm

theorem bounds_concat {columns : List ConcatColumn} (hinputs : List.Forall₂ Bounds inputs rows)
    (hturns : (Plan.concat inputs columns).Turns ops env rows.flatten out) :
    (Plan.concat inputs columns).Bounds out := by
  intro m hm
  rw [maxRows] at hm
  have hle := length_flatten_le hinputs hm
  rw [hturns]
  omega

theorem bounds_constant {columns : List ConstantColumn} {rows : List (List Scalar)}
    (hlocal : (Plan.constant columns rows).accurate)
    (hturns : (Plan.constant columns rows).Turns ops env incoming out) :
    (Plan.constant columns rows).Bounds out := by
  intro m hm
  rw [maxRows] at hm
  cases hm
  rw [Nat.toUInt64_eq, UInt64.toNat_ofNat_of_lt' (of_decide_eq_true hlocal)]
  exact Nat.le_of_eq hturns

end

theorem bounds_of_runs (hops : ops.Coherent) (hp : ∀ q ∈ p.operators, q.accurate)
    (h : p.Runs ops env out) : p.Bounds out := by
  induction p using byChildren generalizing out with
  | step p ih =>
    rw [forall_operators] at hp
    obtain ⟨hlocal, hchildren⟩ := hp
    obtain @⟨_, inputs, _, hfeeds, hturns, hapart⟩ := h
    have hstep : ∀ q ∈ p.feeds, ∀ rows, q.Runs ops env rows → q.Bounds rows :=
      fun q hq rows hrows => ih q (feeds_subset p hq) (hchildren q (feeds_subset p hq)) hrows
    have hinputs : List.Forall₂ Bounds p.feeds inputs :=
      ((List.forall₂_and_left _ _).2 ⟨hstep, hfeeds⟩).imp fun q rows h => h.1 rows h.2
    cases p with
    | constant columns rows => exact bounds_constant hlocal hturns
    | aggregate input spec => exact bounds_aggregate (bounds_single hinputs) hturns
    | top input count percent withTies => exact bounds_top hlocal (bounds_single hinputs) hturns
    | offset input start fetch => exact bounds_offset hlocal (bounds_single hinputs) hturns
    | filter input e => exact bounds_filter hops hlocal (bounds_single hinputs) hturns hapart
    | join left right spec => exact bounds_join (bounds_single hinputs) hturns
    | concat inputs columns => exact bounds_concat hinputs hturns
    | distinct | assert =>
      intro m hm
      rw [maxRows] at hm
      exact Nat.le_trans hturns (bounds_single hinputs m hm)
    | compute | sort | rename | segment | sequence =>
      intro m hm
      rw [maxRows] at hm
      exact Nat.le_trans (Nat.le_of_eq hturns) (bounds_single hinputs m hm)
    | scan | spool | consumer | function =>
      intro m hm
      rw [maxRows] at hm
      cases hm

end Plan

open BindM

theorem InnerQuery.gives_kept_joinTo (q : InnerQuery) (left : Plan) (condition : Option Scalar)
    (definitions : List Definition) : Gives (q.joinTo left condition definitions) fun p =>
      ∃ right spec, p = .join left right spec ∧ q.root.Kept right := by
  unfold joinTo
  refine .ite (fun _ => ?_) fun _ => ?_
  · exact .bind (.pure (.inl rfl)) fun right hright => .pure ⟨right, _, rfl, hright⟩
  · exact q.root.gives_spooled.bind fun right hright => .pure ⟨right, _, rfl, hright⟩

theorem InnerQuery.root_of_ofSingle {bound : BoundQuery} {q : InnerQuery}
    (h : ofSingle bound = .ok q) : q.root = bound.plan.root := by
  unfold ofSingle at h
  split at h
  · cases h
    rfl
  · cases h

/-- The first of the rows of a plan, with a check that it is the only one. -/
def Plan.Checked (p checked : Plan) : Prop :=
  ∃ first count, checked = .assert
    ((Plan.top p (.int 2) false false).summary [first, .rowCount count])
    ((Scalar.column (.bare count)).ltEq (.int 1)) QueryBinder.multipleValuesMessage

namespace QueryBinder

theorem gives_checked_firstValue (inner : InnerQuery) (column : Column) (dataType : DataType) :
    Gives (firstValue inner column dataType) fun r => inner.root.Checked r.1.root :=
  .after fun _ => .after fun count => .pure ⟨_, count, rfl⟩

theorem checked_or_bounded_of_scalar {b : QueryBinder} {query : Sql.Query}
    {k : Block} {c : BindContext}
    {s s' : BindState} {r : Plan × Scalar} (h : (b.scalar query k).start c s = (.ok r, s')) :
    ∃ bound s₁ right spec, (b.query query k.scope.levels).start c s = (.ok bound, s₁) ∧
      r.1 = .join k.plan right spec ∧
      ((∃ checked, bound.plan.root.Checked checked ∧ checked.Kept right) ∨
        bound.plan.root.Kept right ∧ ∃ m, bound.plan.root.maxRows = .ok (some m) ∧ m ≤ 1) := by
  obtain ⟨bound, s₁, hbound, h⟩ := exists_of_start_bind h
  obtain ⟨inner, hinner, h⟩ := exists_of_start_lift_bind h
  obtain ⟨column, -, h⟩ := exists_of_start_lift_bind h
  obtain ⟨⟨_, field⟩, -, h⟩ := exists_of_start_lift_bind h
  obtain ⟨most, s₂, hmost, h⟩ := exists_of_start_bind h
  have hroot := InnerQuery.root_of_ofSingle hinner
  have hjoin (found : InnerQuery × Column) : Gives (BindM.freshExpr >>= fun name =>
      found.1.joinTo k.plan none [{ name, expr := .column found.2, dataType := field.dataType }] >>=
        fun plan => pure (plan, Scalar.column (.bare name))) fun r =>
      ∃ right spec, r.1 = .join k.plan right spec ∧ found.1.root.Kept right :=
    .after fun name => (found.1.gives_kept_joinTo _ _ _).bind fun plan hplan => .pure hplan
  dsimp only at h
  split at h
  next hone =>
    obtain ⟨found, s₃, hfound, h⟩ := exists_of_start_bind h
    cases hfound
    obtain ⟨right, spec, hplan, hright⟩ := hjoin (inner, column) c _ r s' h
    obtain ⟨m, rfl, hm⟩ := (Option.any_eq_true ..).1 hone
    refine ⟨bound, s₁, right, spec, hbound, hplan,
      .inr ⟨hroot ▸ hright, m, ?_, of_decide_eq_true hm⟩⟩
    rw [← hroot]
    exact eq_ok_of_counted hmost
  next =>
    obtain ⟨found, s₃, hfound, h⟩ := exists_of_start_bind h
    have hchecked := gives_checked_firstValue inner column field.dataType c s₂ found s₃ hfound
    obtain ⟨right, spec, hplan, hright⟩ := hjoin found c s₃ r s' h
    exact ⟨bound, s₁, right, spec, hbound, hplan, .inl ⟨found.1.root, hroot ▸ hchecked, hright⟩⟩

/-- The bound on the rows of a plan holds in every execution in which keys tell rows apart, if
values that are equal to the same one are equal and no key is compared to a drawn identifier. A
subquery that is joined for a value without a check for a second row has none. -/
theorem runs_within_maxRows {ops : Operations} (hops : ops.Coherent) :
    (∀ (env : Env) (p : Plan) (out : List Row) (m : UInt64), (∀ q ∈ p.operators, q.accurate) →
      p.Runs ops env out → p.maxRows = .ok (some m) → out.length ≤ m.toNat) ∧
    ∀ (b : QueryBinder) (query : Sql.Query) (k : Block) (c : BindContext) (s s' : BindState)
      (r : Plan × Scalar), (b.scalar query k).start c s = (.ok r, s') →
      ∃ bound s₁ right spec, (b.query query k.scope.levels).start c s = (.ok bound, s₁) ∧
        r.1 = .join k.plan right spec ∧
        ((∃ checked, bound.plan.root.Checked checked ∧ checked.Kept right) ∨
          bound.plan.root.Kept right ∧ ((∀ q ∈ bound.plan.root.operators, q.accurate) →
            ∀ env out, bound.plan.root.Runs ops env out → out.length ≤ 1)) := by
  refine ⟨fun env p out m hp hruns hm => Plan.bounds_of_runs hops hp hruns m hm,
    fun b query k c s s' r h => ?_⟩
  obtain ⟨bound, s₁, right, spec, hbound, hplan, hright⟩ := checked_or_bounded_of_scalar h
  refine ⟨bound, s₁, right, spec, hbound, hplan, hright.imp_right fun hkept => ⟨hkept.1, ?_⟩⟩
  intro haccurate env out hruns
  obtain ⟨m, hm, hone⟩ := hkept.2
  have hle : m.toNat ≤ 1 := UInt64.le_iff_toNat_le.1 hone
  exact Nat.le_trans (Plan.bounds_of_runs hops haccurate hruns m hm) hle

def plainOperations : Operations :=
  (Runtime.ofTables fun _ => []).toOperations

theorem coherent_plainOperations : plainOperations.Coherent where
  symm v w h := by
    rw [beq_iff_eq.1 h]
    exact beq_self_eq_true w
  trans u v w huv hvw := by
    rw [beq_iff_eq.1 huv]
    exact hvw

def storedAccounts : Scan where
  entity := "account"
  relation := "account"
  source := .entity
  columns := [⟨"accountid", .guid, false, none⟩, ⟨"name", .utf8, true, none⟩]
  primaryKey := some "accountid"
  rowCount := none

def accountRows : List Row :=
  [[.text "a", .text "Ada"], [.text "b", .text "Bob"], [.text "c", .null]]

def chosenAccounts : Plan :=
  .concat [.filter (.scan storedAccounts)
      (.binary (.column (.qualified "account" "accountid")) .eq (.literal (.text "a"))),
    .top (.scan storedAccounts) (.int 2) false false]
    [⟨"Expr1", .utf8, true, true, [.qualified "account" "name", .qualified "account" "name"]⟩]

theorem runs_chosenAccounts :
    chosenAccounts.Runs plainOperations .empty [[.text "Ada"], [.text "Bob"], [.null]] := by
  have hscan : (Plan.scan storedAccounts).Runs plainOperations .empty accountRows :=
    Plan.runs_scan (by decide +kernel)
  have hfilter : (Plan.filter (.scan storedAccounts)
      (.binary (.column (.qualified "account" "accountid")) .eq (.literal (.text "a")))).Runs
      plainOperations .empty [[.text "a", .text "Ada"]] := by
    refine Plan.runs_unary rfl hscan ⟨by decide, List.forall_mem_singleton.2 ?_⟩
      (Schema.tellsApart_singleton _)
    exact ⟨.boolean true, nofun, by decide +kernel⟩
  have htop : (Plan.top (.scan storedAccounts) (.int 2) false false).Runs plainOperations .empty
      [[.text "b", .text "Bob"], [.text "c", .null]] := by
    refine Plan.runs_unary rfl hscan ⟨by decide, fun _ _ n hn => ?_⟩ (by decide +kernel)
    have hn : (2 : Int) = n := Option.some.inj hn
    rw [List.length_cons, List.length_singleton]
    omega
  exact .operator (.cons hfilter (.cons htop .nil)) rfl nofun

def namedAccount : String :=
  "SELECT name FROM account WHERE accountid = 'a'"

def oneRowBlock : Block :=
  ⟨.oneRow, .ofSchema .empty []⟩

theorem chosenAccounts_within_maxRows :
    ((∀ q ∈ chosenAccounts.operators, q.accurate) ∧ chosenAccounts.maxRows = .ok (some 3) ∧
      chosenAccounts.Runs plainOperations .empty [[.text "Ada"], [.text "Bob"], [.null]] ∧
      [[Value.text "Ada"], [.text "Bob"], [.null]].length ≤ (3 : UInt64).toNat) ∧
    ∃ query r s' bound s₁ right spec, queryOf? namedAccount = some query ∧
      ((ofDepth 3).scalar query oneRowBlock).start accounts { session := .empty } = (.ok r, s') ∧
      ((ofDepth 3).query query oneRowBlock.scope.levels).start accounts { session := .empty } =
        (.ok bound, s₁) ∧
      r.1 = .join .oneRow right spec ∧ (∀ q ∈ bound.plan.root.operators, q.accurate) ∧
      ((∃ checked, bound.plan.root.Checked checked ∧ checked.Kept right) ∨
        bound.plan.root.Kept right ∧
          ∀ env out, bound.plan.root.Runs plainOperations env out → out.length ≤ 1) := by
  have hbounds := runs_within_maxRows coherent_plainOperations
  have haccurate : ∀ q ∈ chosenAccounts.operators, q.accurate := by decide +kernel
  have hmax : chosenAccounts.maxRows = .ok (some 3) := rfl
  refine ⟨⟨haccurate, hmax, runs_chosenAccounts,
    hbounds.1 _ _ _ _ haccurate runs_chosenAccounts hmax⟩, ?_⟩
  have h : (queryOf? namedAccount).any fun query =>
      (((ofDepth 3).scalar query oneRowBlock).start accounts
        { session := .empty }).1.toOption.isSome &&
      (((ofDepth 3).query query oneRowBlock.scope.levels).start accounts
        { session := .empty }).1.toOption.any fun bound =>
          bound.plan.root.operators.all Plan.accurate := by
    decide +kernel
  obtain ⟨query, hquery, h⟩ := (Option.any_eq_true ..).1 h
  rw [Bool.and_eq_true] at h
  have hscalar := start_eq_value h.1
  obtain ⟨bound, s₁, right, spec, hbound, hplan, hright⟩ := hbounds.2 _ _ _ _ _ _ _ hscalar
  have hall : ∀ q ∈ bound.plan.root.operators, q.accurate := by
    have hall := h.2
    rw [hbound] at hall
    exact List.all_eq_true.1 hall
  exact ⟨query, _, _, bound, s₁, right, spec, hquery, hscalar, hbound, hplan, hall,
    hright.imp_right fun hkept => ⟨hkept.1, hkept.2 hall⟩⟩

def isDrawnKey : Plan → Bool
  | .filter (.scan s) (.binary (.column c) .eq (.call .newId _)) =>
    (Plan.scanSchema s).TellsApart plainOperations accountRows &&
      accountRows.all fun row => (Plan.scanSchema s).read row c != .null
  | _ => false

theorem runs_of_isDrawnKey (h : isDrawnKey p) : p.Runs plainOperations .empty accountRows := by
  unfold isDrawnKey at h
  split at h
  next s c args =>
    rw [Bool.and_eq_true, decide_eq_true_iff, List.all_eq_true] at h
    refine Plan.runs_unary rfl (Plan.runs_scan h.1) ⟨Nat.le_refl _, fun row hrow => ?_⟩ h.1
    have hkey : (Plan.scanSchema s).read row c ≠ .null := bne_iff_ne.1 (h.2 row hrow)
    refine ⟨(Plan.scanSchema s).read row c, hkey, ?_⟩
    rw [Scalar.eval, Operations.binary_drawing, Scalar.eval, Scalar.eval]
    exact Operations.same_eq_true.2 ⟨hkey, hkey, beq_self_eq_true _⟩
  next => cases h

def drawnKeys : String :=
  "SELECT (SELECT name FROM account WHERE accountid = NEWID()) AS x"

def nestedPlan? (block : Sql.Select Sql.Query × QueryTail) : Option QueryPlan :=
  (((ofDepth 3).block block.1 block.2 []).start accounts { session := .empty }).1.toOption

/-- The plan of a subquery checks nothing, and it has an operator whose bound is one row and that
can produce three: a new identifier may be the key of any row. -/
theorem unchecked_beyond_maxRows :
    plainOperations.Coherent ∧ ∃ plan q, (blockOf? drawnKeys).bind nestedPlan? = some plan ∧
      (∀ p ∈ plan.root.operators, p.name ≠ "Assert") ∧ q ∈ plan.root.operators ∧
      q.maxRows = .ok (some 1) ∧ q.Runs plainOperations .empty accountRows ∧
      accountRows.length = 3 := by
  have h : ((blockOf? drawnKeys).bind nestedPlan?).any fun plan =>
      plan.root.operators.all (fun p => p.name != "Assert") &&
        plan.root.operators.any fun q => isDrawnKey q && q.maxRows.toOption.any (· == some 1) := by
    decide +kernel
  obtain ⟨plan, hplan, h⟩ := (Option.any_eq_true ..).1 h
  rw [Bool.and_eq_true, List.all_eq_true, List.any_eq_true] at h
  obtain ⟨hassert, q, hq, hshape⟩ := h
  rw [Bool.and_eq_true] at hshape
  obtain ⟨most, hmost, hone⟩ := exists_ok_of_any hshape.2
  exact ⟨coherent_plainOperations, plan, q, hplan, fun p hp => bne_iff_ne.1 (hassert p hp), hq,
    beq_iff_eq.1 hone ▸ hmost, runs_of_isDrawnKey hshape.1, rfl⟩

end QueryBinder

end BatchPlan
