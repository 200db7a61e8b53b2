import BatchPlan.Proofs.Addressing.LetterCase
import BatchPlan.Proofs.Addressing.Sources
import BatchPlan.Proofs.Assembly
import BatchPlan.Proofs.Caching.Schema
import BatchPlan.Proofs.Meaning.Rows
import Mathlib.Data.List.Nodup

namespace BatchPlan

open BindM

variable {targets : List Attribute} {e : Entity} {assignments : List Sql.Assignment}
    {name : Sql.ObjectName}
  {seen : List String} {text : String} {s : Schema}

namespace Entity

/-- An entity with its key among its attributes, no two of which have the same name. -/
structure Valid (e : Entity) : Prop where
  key : ∃ a, e.attribute? e.primaryKey = some a
  names : (e.attributes.map fun a => Text.lower a.name).Nodup

theorem nodup_of_repeated? {attributes : List Attribute} (h : repeated? seen attributes = none) :
    (attributes.map fun a => Text.lower a.name).Nodup ∧
      ∀ a ∈ attributes, Text.lower a.name ∉ seen := by
  induction attributes generalizing seen with
  | nil => simp
  | cons a rest ih =>
    rw [repeated?] at h
    split at h
    · cases h
    next hnew =>
      obtain ⟨hnodup, hunseen⟩ := ih h
      have hnew : Text.lower a.name ∉ seen := by simpa using hnew
      refine ⟨List.nodup_cons.2 ⟨fun hmem => ?_, hnodup⟩, List.forall_mem_cons.2 ⟨hnew, ?_⟩⟩
      · obtain ⟨b, hb, hname⟩ := List.mem_map.1 hmem
        exact hunseen b hb (hname ▸ List.mem_cons_self)
      · exact fun b hb hmem => hunseen b hb (List.mem_cons_of_mem _ hmem)

theorem valid_of_validate (h : e.validate = .ok ()) : e.Valid := by
  unfold validate at h
  obtain ⟨hkey, h⟩ := Result.of_check h
  split at h
  · cases h
  next hnone =>
    have hfresh : repeated? [] e.attributes = none := Option.eq_none_iff_forall_ne_some.2 hnone
    refine ⟨?_, (nodup_of_repeated? hfresh).1⟩
    rwa [Option.isNone_iff_eq_none, ← Ne, Option.ne_none_iff_exists'] at hkey

end Entity

namespace Catalog

variable {c : Catalog}

theorem valid_of_ofEntities {entities : List Entity} (h : ofEntities entities = .ok c) :
    ∀ e ∈ c.entities, e.Valid := by
  have hfold (entities : List Entity) (start : Catalog) (hstart : ∀ e ∈ start.entities, e.Valid)
      (h : entities.foldlM (fun c e => do e.validate; return c.insert e) start =
        (.ok c : Result Catalog)) :
      ∀ e ∈ c.entities, e.Valid := by
    induction entities generalizing start with
    | nil =>
      cases h
      exact hstart
    | cons e rest ih =>
      obtain ⟨next, hnext, h⟩ := Result.exists_of_bind h
      obtain ⟨⟨⟩, hvalid, hnext⟩ := Result.exists_of_bind hnext
      cases hnext
      refine ih _ (List.forall_mem_append.2 ⟨fun f hf => ?_, ?_⟩) h
      · exact hstart f (List.mem_of_mem_filter hf)
      · exact List.forall_mem_singleton.2 (Entity.valid_of_validate hvalid)
  exact hfold entities {} (by simp) h

theorem valid_of_load (h : load text = .ok c) : ∀ e ∈ c.entities, e.Valid := by
  obtain ⟨entities, -, h⟩ := Result.exists_of_bind h
  exact valid_of_ofEntities h

theorem mem_of_lookup {name : String} (h : c.lookup name = .ok e) : e ∈ c.entities := by
  unfold lookup at h
  split at h
  next hfound =>
    cases h
    exact List.mem_of_find?_eq_some hfound
  · cases h

theorem lookup_name {name : String} (h : c.lookup name = .ok e) : c.lookup e.name = .ok e := by
  unfold lookup at h
  split at h
  next hfound =>
    cases h
    have hname := List.find?_some hfound
    rw [beq_iff_eq] at hname
    rw [lookup, hname, hfound]
  · cases h

end Catalog

def Attribute.field (a : Attribute) (relation : String) : Field where
  name := a.name
  dataType := a.dataType
  nullable := a.nullable
  relation := some relation
  collation := a.collation

namespace Entity

/-- No attribute has the name of the key behind an alias if it does not have it by itself. -/
def KeyStandsOut (e : Entity) (relation : String) : Prop :=
  ∀ a ∈ e.attributes, Text.lower (relation ++ "." ++ a.name) =
    Text.lower (relation ++ "." ++ e.primaryKey) →
    Text.lower a.name = Text.lower e.primaryKey

instance (e : Entity) (relation : String) : Decidable (e.KeyStandsOut relation) :=
  inferInstanceAs (Decidable (∀ a ∈ e.attributes, _))

variable {e : Entity} {a : Attribute} {name : String}

theorem mem_of_attribute? (h : e.attribute? name = some a) :
    a ∈ e.attributes ∧ Text.sameAscii a.name name := by
  have hname := List.find?_some h
  exact ⟨List.mem_of_find?_eq_some h, hname⟩

theorem Valid.eq_of_lower (he : e.Valid) {b : Attribute} (ha : a ∈ e.attributes)
    (hb : b ∈ e.attributes) (h : Text.lower a.name = Text.lower b.name) : a = b :=
  List.inj_on_of_nodup_map he.names ha hb h

theorem sources_scan (e : Entity) (source : ScanSource) (relation : String) :
    (Plan.scan (e.scan source relation)).schema.sources = e.attributes.map (·.field relation) := by
  simp only [Schema.sources, Plan.schema, Plan.scanSchema, scan, Schema.fields_withPrimaryKey,
    Schema.fields_ofFields, List.map_map]
  refine (List.filter_eq_self.2 ?_).trans rfl
  simp

variable {relation : String}

theorem lower_key (ha : e.attribute? e.primaryKey = some a) (relation : String) :
    Text.lower (relation ++ "." ++ a.name) = Text.lower (relation ++ "." ++ e.primaryKey) := by
  refine Text.lower_eq_of_sameAscii ?_
  exact Text.sameAscii_append (Text.sameAscii_refl _) (mem_of_attribute? ha).2

section

variable {s : Schema} (hs : s.sources = e.attributes.map (·.field relation))

include hs

theorem Valid.field?_key (he : e.Valid) (ha : e.attribute? e.primaryKey = some a)
    (h : e.KeyStandsOut relation) :
    s.field? (.qualified relation e.primaryKey) = some (a.field relation) := by
  obtain ⟨hmem, hname⟩ := mem_of_attribute? ha
  have honly : e.attributes.filter (fun b =>
      Text.lower (relation ++ "." ++ b.name) == Text.lower
        (relation ++ "." ++ e.primaryKey)) = [a] := by
    refine List.perm_singleton.1
      ((List.perm_ext_iff_of_nodup ?_ (List.nodup_singleton a)).2 fun b => ?_)
    · exact (he.names.of_map _).filter _
    rw [List.mem_filter, beq_iff_eq, List.mem_singleton]
    constructor
    · rintro ⟨hb, hkey⟩
      exact he.eq_of_lower hb hmem ((h b hb hkey).trans (Text.lower_eq_of_sameAscii hname).symm)
    · rintro rfl
      exact ⟨hmem, lower_key ha relation⟩
  rw [Schema.field?_eq_some_iff rfl, hs, List.filter_map]
  exact congrArg (List.map (Attribute.field · relation)) honly

theorem resolve_key_of_not (ha : e.attribute? e.primaryKey = some a)
    (h : ¬ e.KeyStandsOut relation) : s.resolve (.qualified relation e.primaryKey) =
      .error (.ambiguousColumn (relation ++ "." ++ e.primaryKey)) := by
  obtain ⟨b, hb, hkey, hother⟩ : ∃ b ∈ e.attributes,
      Text.lower (relation ++ "." ++ b.name) = Text.lower (relation ++ "." ++ e.primaryKey) ∧
        Text.lower b.name ≠ Text.lower e.primaryKey := by
    simpa [KeyStandsOut] using h
  obtain ⟨hmem, hname⟩ := mem_of_attribute? ha
  have hne : b.field relation ≠ a.field relation := by
    intro heq
    have hnames : b.name = a.name := congrArg Field.name heq
    exact hother (hnames ▸ Text.lower_eq_of_sameAscii hname)
  refine Schema.resolve_of_ne rfl ?_ ?_ hne hkey (lower_key ha relation)
  · exact hs ▸ List.mem_map_of_mem hb
  · exact hs ▸ List.mem_map_of_mem hmem

end

theorem Valid.keyStandsOut (he : e.Valid) (h : ∀ a ∈ e.attributes, Text.plain a.name)
    (relation : String) : e.KeyStandsOut relation := by
  intro a ha hkey
  obtain ⟨k, hk⟩ := he.key
  obtain ⟨hmem, hname⟩ := mem_of_attribute? hk
  refine Text.lower_eq_of_append (h a ha) ?_ hkey
  exact Text.plain_of_sameAscii hname (h k hmem)

end Entity

def Sql.relationOf (name : Sql.ObjectName) (tableAlias : Option Sql.TableAlias) : String :=
  (tableAlias.map (·.name.value)).getD name.base

/-- A statement changes one table, which is an entity of the catalog. -/
def Catalog.Targets (c : Catalog) (table : Sql.Source Sql.Query) (e : Entity) (relation : String) :
    Prop :=
  ∃ name tableAlias hints, table = .table name .none tableAlias hints ∧
    c.lookup name.base = .ok e ∧ relation = Sql.relationOf name tableAlias

/-- The rows of an entity, under the alias that its key is found by. -/
structure ChangedRows.Reads (rows : ChangedRows) (e : Entity) (relation : String) : Prop where
  entity : rows.entity = e.name
  primaryKey : rows.primaryKey = e.primaryKey
  key : rows.key = .qualified relation e.primaryKey
  rows : ∃ source, (Plan.scan (e.scan source relation)).schema.Widens rows.block.plan.schema

theorem yields_bindStored (hname : Sql.isTemporaryName name.base = false) (relation : String)
    (c : BindContext) (s : BindState) :
    Yields (bindStored name relation) c s fun scan _ =>
      ∃ e source, c.catalog.lookup name.base = .ok e ∧ scan = e.scan source relation := by
  unfold bindStored
  refine .ite (fun h => by simp [hname] at h) fun _ => ?_
  split
  · exact .throw
  next source _ =>
    refine (Yields.read (Q := fun r s' => r = c) rfl).bind fun r s' hr => ?_
    subst hr
    refine (Yields.lift (Q := fun e _ => r.catalog.lookup name.base = .ok e) fun _ h => h).bind
      fun e s'' he => Yields.any.bind fun _ _ _ => .pure ⟨e, source, he, rfl⟩

namespace QueryBinder

variable (b : QueryBinder)

theorem yields_namedTable (hname : Sql.isTemporaryName name.base = false)
    (tableAlias : Option Sql.TableAlias) (c : BindContext) (s : BindState) :
    Yields (b.namedTable name tableAlias) c s fun r _ => ∀ scan, r.plan = .scan scan →
      ∃ e source, c.catalog.lookup name.base = .ok e ∧
        scan = e.scan source (Sql.relationOf name tableAlias) := by
  refine Yields.any.bind fun named s' _ => ?_
  split
  next plan names =>
    refine Yields.lift fun r hr scan hscan => ?_
    obtain ⟨-, hr⟩ := Result.of_check hr
    obtain ⟨columns, -, hr⟩ := Result.exists_of_bind hr
    cases hr
    cases hscan
  · refine .check fun _ => (yields_bindStored hname _ c s').bind fun scan s'' h => .pure ?_
    rintro _ ⟨⟩
    exact h

theorem yields_changedRows (table : Sql.Source Sql.Query) (condition : Option Sql.Expr)
    (statement : String) (c : BindContext) (s : BindState) :
    Yields (b.changedRows table condition statement) c s fun rows _ =>
      ∃ e relation, c.catalog.Targets table e relation ∧ rows.Reads e relation := by
  refine (Yields.lift (Q := fun r _ => singleTable table statement = .ok r) fun _ h => h).bind
    fun found s' htable => ?_
  obtain ⟨name, tableAlias⟩ := found
  obtain ⟨hints, rfl⟩ : ∃ hints, table = .table name .none tableAlias hints := by
    unfold singleTable at htable
    split at htable <;> cases htable
    exact ⟨_, rfl⟩
  refine .check fun hname => ?_
  rw [Bool.not_eq_true] at hname
  refine (b.yields_namedTable hname tableAlias c s').bind fun source s'' hsource => ?_
  split
  next scan hplan =>
    obtain ⟨e, place, hlookup, rfl⟩ := hsource scan hplan
    have hreads (k : Block) (hk : source.plan.schema.Widens k.plan.schema) :
        ∃ e' relation, c.catalog.Targets (.table name .none tableAlias hints) e' relation ∧
          (ChangedRows.mk k e.name e.primaryKey
            (.qualified (Sql.relationOf name tableAlias) e.primaryKey)).Reads e' relation :=
      ⟨e, _, ⟨name, tableAlias, hints, rfl, hlookup, rfl⟩, rfl, rfl, rfl, place, hplan ▸ hk⟩
    dsimp only [Entity.scan]
    split
    · exact (b.gives_widens_restrict _ _ c s'').bind fun k _ hk => .pure (hreads k hk.rows)
    · rw [pure_bind]
      exact .pure (hreads _ (.refl _))
  · exact .throw

end QueryBinder

theorem QueryPlan.gives_finish_schema (q : QueryPlan) (hints : Hints) :
    Gives (q.finish hints) fun r => r.root.schema = q.root.schema ∧ r.columns = q.columns := by
  refine .after fun c => .bind (P := fun root => root.schema = q.root.schema)
    (.counted (fun _ h => ?_) rfl) fun _ hroot => .after fun _ => .pure ⟨hroot, rfl⟩
  exact (Plan.improved_of_ite h).schema_eq

namespace Entity

/-- The first column of a plan is the key of an entity, which tells the rows apart; a key that does
not stand out is lost. -/
structure AddressedBy (e : Entity) (relation : String) (q : QueryPlan) : Prop where
  head : q.columns.head? = some ⟨e.primaryKey, .qualified relation e.primaryKey⟩
  key : e.KeyStandsOut relation →
    q.schema.primaryKey = some (.qualified relation e.primaryKey) ∧
      ∃ i a, e.attribute? e.primaryKey = some a ∧
        q.schema.resolve (.qualified relation e.primaryKey) = .ok (i, a.field relation)
  noKey : ¬ e.KeyStandsOut relation →
    q.schema.primaryKey = none ∧ q.schema.resolve (.qualified relation e.primaryKey) =
      .error (.ambiguousColumn (relation ++ "." ++ e.primaryKey))

theorem Valid.addressedBy (he : e.Valid) {source : ScanSource} {relation : String} {q : QueryPlan}
    (hrows : (Plan.scan (e.scan source relation)).schema.Widens q.root.schema)
    (hhead : q.columns.head? = some ⟨e.primaryKey, .qualified relation e.primaryKey⟩) :
    e.AddressedBy relation q := by
  obtain ⟨a, ha⟩ := he.key
  have hsources : q.schema.sources = e.attributes.map (·.field relation) :=
    hrows.sources.trans (e.sources_scan source relation)
  have hkey : q.schema.primaryKey =
      (some (.qualified relation e.primaryKey)).filter q.schema.contains := by
    have hcontains := Schema.contains_congr (c := .qualified relation e.primaryKey)
      hrows.sources rfl
    rw [Option.filter_some, QueryPlan.schema, hcontains, ← Option.filter_some]
    refine hrows.key fun key hmem => ?_
    change key ∈ (some _).filter _ at hmem
    obtain ⟨⟨⟩, hkey⟩ := Option.mem_filter_iff.1 hmem
    exact ⟨rfl, hkey⟩
  refine ⟨hhead, fun h => ?_, fun h => ?_⟩
  · have hfield := he.field?_key hsources ha h
    obtain ⟨i, hresolve⟩ := Schema.exists_resolve_of_field? hfield
    rw [hkey, Option.filter_some, if_pos (Schema.contains_iff_field?.2 ⟨_, hfield⟩)]
    exact ⟨rfl, i, a, ha, hresolve⟩
  · have hresolve := resolve_key_of_not hsources ha h
    refine ⟨?_, hresolve⟩
    rw [hkey, Option.filter_some, if_neg]
    intro hcontains
    obtain ⟨f, hf⟩ := Schema.contains_iff_field?.1 hcontains
    obtain ⟨i, hi⟩ := Schema.exists_resolve_of_field? hf
    rw [hresolve] at hi
    cases hi

end Entity

/-- The attributes of an UPDATE are those that its assignments name, in order. -/
structure Entity.Assigns (e : Entity) (assignments : List Sql.Assignment)
    (targets : List Attribute) : Prop where
  each : List.Forall₂ (fun assignment attr => ∃ name, assignment.target = .column name ∧
    e.attribute? name.base = some attr) assignments targets
  different : ((e.primaryKey :: targets.map (·.name)).map Text.lower).Nodup

theorem nodup_of_updateTargets (h : updateTargets e seen assignments = .ok targets) :
    List.Forall₂ (fun assignment attr => ∃ name, assignment.target = .column name ∧
      e.attribute? name.base = some attr) assignments targets ∧
    (targets.map fun t => Text.lower t.name).Nodup ∧
      ∀ t ∈ targets, t ∈ e.attributes ∧ Text.lower t.name ∉ seen ∧
        ¬ Text.sameAscii t.name e.primaryKey := by
  induction assignments generalizing seen targets with
  | nil =>
    cases h
    exact ⟨.nil, by simp, by simp⟩
  | cons assignment rest ih =>
    rw [updateTargets] at h
    split at h
    · cases h
    next name htarget =>
      split at h
      · cases h
      next attr hattr =>
        obtain ⟨hkey, h⟩ := Result.of_check h
        obtain ⟨hnew, h⟩ := Result.of_check h
        obtain ⟨more, hmore, h⟩ := Result.exists_of_bind h
        cases h
        obtain ⟨heach, hnodup, hothers⟩ := ih hmore
        have hnew : Text.lower attr.name ∉ seen := by simpa using hnew
        refine ⟨.cons ⟨name, htarget, hattr⟩ heach, List.nodup_cons.2 ⟨fun hmem => ?_, hnodup⟩,
          List.forall_mem_cons.2 ⟨⟨(Entity.mem_of_attribute? hattr).1, hnew, hkey⟩, fun t ht => ?_⟩⟩
        · obtain ⟨t, ht, hname⟩ := List.mem_map.1 hmem
          exact (hothers t ht).2.1 (hname ▸ List.mem_cons_self)
        · obtain ⟨hattr, hunseen, hother⟩ := hothers t ht
          exact ⟨hattr, fun hmem => hunseen (List.mem_cons_of_mem _ hmem), hother⟩

theorem Entity.Valid.assigns (he : e.Valid) (h : updateTargets e [] assignments = .ok targets) :
    e.Assigns assignments targets := by
  obtain ⟨heach, hnodup, hothers⟩ := nodup_of_updateTargets h
  refine ⟨heach, ?_⟩
  rw [List.map_cons, List.map_map]
  refine List.nodup_cons.2 ⟨fun hmem => ?_, hnodup⟩
  -- an attribute with the name of the key is the key
  obtain ⟨t, ht, hname⟩ := List.mem_map.1 hmem
  obtain ⟨a, ha⟩ := he.key
  obtain ⟨hmem, hsame⟩ := Entity.mem_of_attribute? ha
  obtain ⟨hattr, -, hother⟩ := hothers t ht
  obtain rfl : t = a :=
    he.eq_of_lower hattr hmem (hname.trans (Text.lower_eq_of_sameAscii hsame).symm)
  exact hother hsame

theorem Scope.gives_bindAssignments (s : Scope) {values : List Sql.Expr}
    (h : values.length = targets.length) :
    Gives ((values.zip targets).mapM fun entry => s.bindAssignment entry.1 entry.2) fun bound =>
      bound.map (·.1.name) = targets.map (·.name) := by
  have hname (entry : Sql.Expr × Attribute) :
      Gives (s.bindAssignment entry.1 entry.2) fun r => r.1.name = entry.2.name :=
    .after fun _ => .after fun _ => .after fun _ => .after fun _ => .pure rfl
  refine (Gives.mapM fun entry _ => hname entry).mono fun bound hbound => ?_
  have hnames : bound.map (·.1.name) = ((values.zip targets).map Prod.snd).map (·.name) := by
    rw [← List.forall₂_eq_eq_eq, List.forall₂_map_left_iff, List.map_map,
      List.forall₂_map_right_iff]
    exact hbound.flip
  rw [hnames, List.map_snd_zip (Nat.le_of_eq h.symm)]

namespace QueryBinder

variable (b : QueryBinder) (hints : Hints) {c : BindContext}
  (hvalid : ∀ e ∈ c.catalog.entities, e.Valid)

include hvalid

theorem yields_update (u : Sql.Update) (s : BindState) :
    Yields (b.update hints u) c s fun node _ => ∃ e relation targets plan,
      c.catalog.Targets u.table e relation ∧
      node = .update e.name e.primaryKey (targets.map (·.name)) plan ∧ e.AddressedBy relation plan ∧
      e.Assigns u.assignments targets ∧ plan.columns.tail.map (·.name) = targets.map (·.name) := by
  refine .check fun _ => .check fun _ =>
    (b.yields_changedRows u.table u.condition "UPDATE" c s).bind
    fun rows s₁ hrows => ?_
  obtain ⟨e, relation, htable, hentity, -, hkey, source, hwidens⟩ := hrows
  have hlookup : c.catalog.lookup e.name = .ok e := by
    obtain ⟨name, tableAlias, hints, -, hlookup, -⟩ := htable
    exact Catalog.lookup_name hlookup
  have he : e.Valid := hvalid e (Catalog.mem_of_lookup hlookup)
  refine (Yields.read (Q := fun r _ => r = c) rfl).bind fun r s₂ hr => ?_
  subst hr
  rw [hentity, hlookup]
  refine (Yields.lift (r := .ok e) (Q := fun e' _ => e' = e) fun _ h => (Except.ok.inj h).symm).bind
    fun e' s₃ he' => ?_
  subst he'
  refine (Yields.lift (Q := fun targets _ => updateTargets e' [] u.assignments = .ok targets)
    fun _ h => h).bind fun targets s₄ htargets => ?_
  have hassigns := he.assigns htargets
  refine (b.gives_widens_subqueries _ rows.block r s₄).bind fun k s₅ hk => ?_
  have hlength : (u.assignments.map (·.value)).length = targets.length := by
    rw [List.length_map, hassigns.each.length_eq]
  refine (k.scope.gives_bindAssignments hlength r s₅).bind fun bound s₆ hbound => ?_
  refine (QueryPlan.gives_finish_schema _ hints r s₆).bind fun plan s₇ hplan => .pure ?_
  obtain ⟨hschema, hcolumns⟩ := hplan
  have hrows : (Plan.scan (e'.scan source relation)).schema.Widens plan.root.schema := by
    rw [hschema]
    exact (hwidens.trans hk.rows).trans (k.plan.widens_define _)
  refine ⟨e', relation, targets, plan, htable, rfl, he.addressedBy hrows ?_, hassigns, ?_⟩
  · rw [hcolumns, hkey]
    rfl
  · rw [hcolumns, List.tail_cons, List.map_map]
    exact hbound

theorem yields_delete (d : Sql.Delete) (s : BindState) :
    Yields (b.delete hints d) c s fun node _ => ∃ table e relation plan, d.sources = [table] ∧
      c.catalog.Targets table e relation ∧ node = .delete e.name e.primaryKey plan ∧
      e.AddressedBy relation plan ∧ plan.columns.length = 1 := by
  refine .check fun _ => ?_
  split
  next table htable =>
    refine (b.yields_changedRows table d.condition "DELETE" c s).bind fun rows s₁ hrows => ?_
    obtain ⟨e, relation, htargets, hentity, hprimaryKey, hkey, source, hwidens⟩ := hrows
    have he : e.Valid := by
      obtain ⟨name, tableAlias, hints, -, hlookup, -⟩ := htargets
      exact hvalid e (Catalog.mem_of_lookup hlookup)
    refine (QueryPlan.gives_finish_schema _ hints c s₁).bind fun plan s₂ hplan => .pure ?_
    obtain ⟨hschema, hcolumns⟩ := hplan
    rw [hentity, hprimaryKey]
    refine ⟨table, e, relation, plan, htable, htargets, rfl,
      he.addressedBy (hschema ▸ hwidens) ?_, ?_⟩
    · rw [hcolumns, hprimaryKey, hkey]
      rfl
    · rw [hcolumns]
      rfl
  · exact .throw

end QueryBinder

/-- UPDATE and DELETE find each record by the key of its entity. The key tells the rows of their
plans apart if it stands out, and it does in an entity without a capital sigma in its names. The
columns of an UPDATE are the key and the attributes that are set, all different. -/
theorem changes_address_records (b : QueryBinder) (hints : Hints) {text : String} {c : BindContext}
    (hc : Catalog.load text = .ok c.catalog) (s : BindState) :
    (∀ u node s', (b.update hints u).start c s = (.ok node, s') → ∃ e relation targets plan,
      c.catalog.Targets u.table e relation ∧
      node = .update e.name e.primaryKey (targets.map (·.name)) plan ∧ e.AddressedBy relation plan ∧
      e.Assigns u.assignments targets ∧ plan.columns.tail.map (·.name) = targets.map (·.name)) ∧
    (∀ d node s', (b.delete hints d).start c s = (.ok node, s') → ∃ table e relation plan,
      d.sources = [table] ∧ c.catalog.Targets table e relation ∧
      node = .delete e.name e.primaryKey plan ∧ e.AddressedBy relation plan ∧
      plan.columns.length = 1) ∧
    ∀ e ∈ c.catalog.entities, (∀ a ∈ e.attributes, Text.plain a.name) →
      ∀ relation, e.KeyStandsOut relation := by
  have hvalid := Catalog.valid_of_load hc
  exact ⟨fun u => b.yields_update hints hvalid u s, fun d => b.yields_delete hints hvalid d s,
    fun e he h => (hvalid e he).keyStandsOut h⟩

def Sql.Statement.update? : Sql.Statement → Option Sql.Update
  | .update u => some u
  | _ => none

def Sql.Statement.delete? : Sql.Statement → Option Sql.Delete
  | .delete d => some d
  | _ => none

theorem Catalog.load_eq_of_any {catalog : Catalog} (h : (load text).toOption.any (· == catalog)) :
    load text = .ok catalog := by
  obtain ⟨loaded, hload, hsame⟩ := exists_ok_of_any h
  rw [hload, eq_of_beq hsame]

def accountRecords : String :=
  "\x7b\"entities\":[\x7b\"logical_name\":\"account\",\"primary_key\":\"id\",\"attributes\":[" ++
  "\x7b\"logical_name\":\"id\",\"type\":\"uniqueidentifier\"\x7d," ++
  "\x7b\"logical_name\":\"name\",\"type\":\"string\"\x7d]\x7d]\x7d"

def accountCatalog : Catalog :=
  ⟨[{ name := "account", primaryKey := "id",
      attributes := [{ name := "id", type := .uniqueIdentifier },
        { name := "name", type := .string }] }]⟩

def renamedAccounts : String :=
  "UPDATE account SET name = (SELECT MAX(b.name) FROM account b) WHERE name IN (SELECT " ++
  "c.name FROM account c)"

def removedAccounts : String :=
  "DELETE FROM account WHERE EXISTS (SELECT 1 FROM account b WHERE b.name = account.name)"

theorem accounts_address_records :
    ∃ (c : BindContext) (u : Sql.Update) (d : Sql.Delete) (node : RootNode)
      (node' : RootNode) (s s' : BindState),
    Catalog.load accountRecords = .ok c.catalog ∧
    (Sql.parseStatement renamedAccounts).toOption.bind (·.update?) = some u ∧
    (Sql.parseStatement removedAccounts).toOption.bind (·.delete?) = some d ∧
    ((QueryBinder.ofDepth 3).update {} u).start c { session := .empty } = (.ok node, s) ∧
    ((QueryBinder.ofDepth 3).delete {} d).start c { session := .empty } = (.ok node', s') ∧
    (∃ e relation targets plan, c.catalog.Targets u.table e relation ∧
      node = .update e.name e.primaryKey (targets.map (·.name)) plan ∧ e.AddressedBy relation plan ∧
      e.Assigns u.assignments targets ∧ plan.columns.tail.map (·.name) = targets.map (·.name)) ∧
    ∃ table e relation plan, d.sources = [table] ∧ c.catalog.Targets table e relation ∧
      node' = .delete e.name e.primaryKey plan ∧ e.AddressedBy relation plan ∧
      plan.columns.length = 1 := by
  have hload : Catalog.load accountRecords = .ok accountCatalog :=
    Catalog.load_eq_of_any (by decide +kernel)
  have hu : ((Sql.parseStatement renamedAccounts).toOption.bind (·.update?)).any fun u =>
      (((QueryBinder.ofDepth 3).update {} u).start { catalog := accountCatalog, options := {} }
        { session := .empty }).1.toOption.isSome := by
    decide +kernel
  have hd : ((Sql.parseStatement removedAccounts).toOption.bind (·.delete?)).any fun d =>
      (((QueryBinder.ofDepth 3).delete {} d).start { catalog := accountCatalog, options := {} }
        { session := .empty }).1.toOption.isSome := by
    decide +kernel
  obtain ⟨u, hu, hupdate⟩ := (Option.any_eq_true ..).1 hu
  obtain ⟨d, hd, hdelete⟩ := (Option.any_eq_true ..).1 hd
  have hupdate := start_eq_value hupdate
  have hdelete := start_eq_value hdelete
  obtain ⟨hupdates, hdeletes, -⟩ := changes_address_records (.ofDepth 3) {}
    (c := { catalog := accountCatalog, options := {} }) hload { session := .empty }
  exact ⟨_, u, d, _, _, _, _, hload, hu, hd, hupdate, hdelete, hupdates u _ _ hupdate,
    hdeletes d _ _ hdelete⟩

/-- An entity whose key is a capital sigma, with an attribute that is a small one at the end of a
word. -/
def sigmaRecords : String :=
  "\x7b\"entities\":[\x7b\"logical_name\":\"a\",\"primary_key\":\"Σ\",\"attributes\":[" ++
  "\x7b\"logical_name\":\"Σ\",\"type\":\"uniqueidentifier\"\x7d," ++
  "\x7b\"logical_name\":\"ς\",\"type\":\"string\"\x7d]\x7d]\x7d"

def sigmaCatalog : Catalog :=
  ⟨[{ name := "a", primaryKey := "Σ",
      attributes := [{ name := "Σ", type := .uniqueIdentifier },
        { name := "ς", type := .string }] }]⟩

def sigmaScan : Scan where
  entity := "a"
  relation := "a"
  source := .entity
  columns := [⟨"Σ", .guid, true, none⟩, ⟨"ς", .utf8, true, none⟩]
  primaryKey := some "Σ"
  rowCount := none

theorem lower_sigma : Text.lower ("a" ++ "." ++ "Σ") = Text.lower ("a" ++ "." ++ "ς") := by
  have hfinal : Text.lowerFrom [] ['a', '.', 'Σ'] = Text.lowerFrom []
      ['a', '.', 'ς'] := by decide +kernel
  have hcapital : ("a" ++ "." ++ "Σ").toList = ['a', '.', 'Σ'] := by simp
  have hsmall : ("a" ++ "." ++ "ς").toList = ['a', '.', 'ς'] := by simp
  rw [Text.lower, Text.lower, hcapital, hsmall, hfinal]

theorem Schema.candidates_ne_singleton {c : Column} {i j : Nat} {f g : Field}
    (hf : (i, f) ∈ s.candidates c)
    (hg : (j, g) ∈ s.candidates c) (hij : i ≠ j) (found : Nat × Field) :
    s.candidates c ≠ [found] := by
  intro h
  rw [h, List.mem_singleton] at hf hg
  exact hij (congrArg Prod.fst (hf.trans hg.symm))

def sigmaFields : List Field :=
  [{ name := "Σ", dataType := .guid, relation := some "a" },
   { name := "ς", dataType := .utf8, relation := some "a" }]

theorem sigma_candidates (hs : s.fields = sigmaFields) (found : Nat × Field) :
    s.candidates (.qualified "a" "Σ") ≠ [found] := by
  have hkey := Field.answersTo_column { name := "Σ", dataType := .guid, relation := some "a" }
  have hother := Field.answersTo_column { name := "ς", dataType := .utf8, relation := some "a" }
  rw [Field.column, Column.text] at hkey hother
  rw [← lower_sigma] at hother
  refine Schema.candidates_ne_singleton (i := 0) (j := 1) (Schema.mem_candidates.2 ⟨?_, hkey⟩)
    (Schema.mem_candidates.2 ⟨?_, hother⟩) Nat.zero_ne_one found
  · rw [hs]
    rfl
  · rw [hs]
    rfl

def Plan.isScan (s : Scan) : Plan → Bool
  | .scan t => t == s
  | _ => false

theorem Plan.eq_of_isScan {s : Scan} {p : Plan} (h : p.isScan s) : p = .scan s := by
  unfold isScan at h
  split at h
  next => rw [eq_of_beq h]
  next => cases h

/-- Behind the alias the key has the name of the other attribute: the rows to be deleted have no
key, and their only column stands for no field. -/
theorem sigma_key_lost : ∃ (c : BindContext) (d : Sql.Delete) (node : RootNode) (s' : BindState)
      (plan : QueryPlan),
    Catalog.load sigmaRecords = .ok c.catalog ∧
    (Sql.parseStatement "DELETE FROM a").toOption.bind (·.delete?) = some d ∧
    ((QueryBinder.ofDepth 3).delete {} d).start c { session := .empty } = (.ok node, s') ∧
    node.plan? = some plan ∧ plan.columns = [⟨"Σ", .qualified "a" "Σ"⟩] ∧
    plan.schema.primaryKey = none ∧ plan.schema.field? (.qualified "a" "Σ") = none := by
  have hload : Catalog.load sigmaRecords = .ok sigmaCatalog :=
    Catalog.load_eq_of_any (by decide +kernel)
  have h : ((Sql.parseStatement "DELETE FROM a").toOption.bind (·.delete?)).any fun d =>
      (((QueryBinder.ofDepth 3).delete {} d).start { catalog := sigmaCatalog, options := {} }
        { session := .empty }).1.toOption.any fun node => node.plan?.any fun plan =>
          plan.root.isScan sigmaScan && plan.columns == [⟨"Σ", .qualified "a" "Σ"⟩] := by
    decide +kernel
  obtain ⟨d, hd, h⟩ := (Option.any_eq_true ..).1 h
  obtain ⟨node, hnode, h⟩ := exists_ok_of_any h
  obtain ⟨plan, hplan, h⟩ := (Option.any_eq_true ..).1 h
  rw [Bool.and_eq_true] at h
  have hschema : plan.schema = (Schema.ofFields sigmaFields).withPrimaryKey
      (some (.qualified "a" "Σ")) :=
    congrArg Plan.schema (Plan.eq_of_isScan h.1)
  have hcontains : (Schema.ofFields sigmaFields).contains (.qualified "a" "Σ") = false := by
    rw [← Bool.not_eq_true]
    intro hcontains
    obtain ⟨i, f, hfound⟩ := Schema.contains_iff.1 hcontains
    exact sigma_candidates rfl _ hfound
  refine ⟨_, d, node, _, plan, hload, hd, Prod.ext hnode rfl, hplan, eq_of_beq h.2, ?_, ?_⟩
  · rw [hschema, Schema.withPrimaryKey, Option.filter_some, hcontains]
    rfl
  · rw [hschema, Option.eq_none_iff_forall_ne_some]
    intro f hf
    obtain ⟨i, hfound⟩ := Schema.field?_eq_some.1 hf
    exact sigma_candidates rfl _ hfound

end BatchPlan
