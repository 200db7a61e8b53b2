import BatchPlan.Proofs.Binding.Stable
import BatchPlan.Proofs.Flow.Names

namespace BatchPlan

variable {name : String} {s s₀ : BindState}

/-- The types of the variables and the columns of the temporary tables that exist, by name. -/
structure Inventory where
  type? : String → Option DataType
  columns? : String → Option (List TableColumn)

namespace Inventory

/-- What exists after a root. The case of names does not matter. -/
def after (v : Inventory) : RootNode → Inventory
  | .declare name type _ =>
    { v with type? := fun n => if Text.lower n = Text.lower name then some type else v.type? n }
  | .createTable name columns =>
    { v with
      columns? := fun n =>
        if Text.lower n = Text.lower name then some columns else v.columns? n }
  | .dropTable name =>
    { v with columns? := fun n => if Text.lower n = Text.lower name then none else v.columns? n }
  | _ => v

def afterAll (v : Inventory) (nodes : List RootNode) : Inventory :=
  nodes.foldl after v

def vocabulary (v : Inventory) : Vocabulary where
  var name type := v.type? name = some type
  scan s := s.source = .tempTable → v.columns? s.entity = some s.columns

def Permits (v : Inventory) : RootNode → Prop
  | .declare name _ _ => v.type? name = none
  | .assign name _ => (v.type? name).isSome
  | .insert table columns _ => Sql.isTemporaryName table →
      ∃ all, v.columns? table = some all ∧ columns ⊆ all.map (·.name)
  | .createTable name _ => v.columns? name = none
  | .dropTable name => (v.columns? name).isSome
  | _ => True

structure Admits (v : Inventory) (node : RootNode) : Prop where
  permits : v.Permits node
  plan : ∀ plan ∈ node.plan?, plan.root.UsesOnly v.vocabulary

/-- Roots lead from one inventory to another, and each of them is admitted on the way. -/
inductive Runs : Inventory → List RootNode → Inventory → Prop
  | nil (v : Inventory) : Runs v [] v
  | cons {v v' : Inventory} {node : RootNode} {rest : List RootNode} (hnode : v.Admits node)
      (hrest : Runs (v.after node) rest v') : Runs v (node :: rest) v'

namespace Runs

variable {v v' v'' : Inventory} {nodes nodes' : List RootNode} {node : RootNode}

theorem single (h : v.Admits node) : v.Runs [node] (v.after node) :=
  .cons h (.nil _)

theorem append (h : v.Runs nodes v') (h' : v'.Runs nodes' v'') : v.Runs (nodes ++ nodes') v'' := by
  induction h with
  | nil => exact h'
  | cons hnode _ ih => exact .cons hnode (ih h')

theorem afterAll_eq (h : v.Runs nodes v') : v.afterAll nodes = v' := by
  induction h with
  | nil => rfl
  | cons _ _ ih => exact ih

theorem admits {before rest : List RootNode} (h : v.Runs (before ++ node :: rest) v') :
    (v.afterAll before).Admits node := by
  induction before generalizing v with
  | nil =>
    cases h with
    | cons hnode _ => exact hnode
  | cons first before ih =>
    cases h with
    | cons _ hrest => exact ih hrest

end Runs

theorem admits_of_plan {v : Inventory} {node : RootNode} {plan : QueryPlan}
    (hplan : plan.root.UsesOnly v.vocabulary) (hnode : node.plan? = some plan)
    (h : v.Permits node) : v.Admits node :=
  ⟨h, by simpa [hnode] using hplan⟩

end Inventory

theorem Sql.isTemporaryName_iff : isTemporaryName name ↔ name.toList.head? = some '#' := by
  rw [isTemporaryName, String.startsWith_string_iff]
  change ['#'] <+: name.toList ↔ _
  cases name.toList <;> simp [eq_comm]

theorem Sql.isTemporaryName_of_lower {a b : String} (h : Text.lower a = Text.lower b)
    (ha : isTemporaryName a) : isTemporaryName b := by
  have hsign : Text.IsSign '#' := ⟨by decide, by decide⟩
  rw [isTemporaryName_iff] at ha ⊢
  obtain ⟨rest, hrest⟩ := List.head?_eq_some_iff.1 ha
  exact hsign.head?_of_lower (h ▸ Text.head?_lower_of_sign hrest (.inl rfl))

namespace Session

theorem find?_insertTable (t : TempTable) (tables : List TempTable) (name : String) :
    (insertTable t tables).find? (fun u => key u.name == key name) =
      if key name = key t.name then some t else tables.find? fun u => key u.name == key name := by
  fun_induction insertTable t tables with
  | case1 => grind
  | case2 u rest hsame => grind
  | case3 u rest hother _ => grind
  | case4 u rest hother _ ih => grind

theorem find?_create (s : Session) (t : TempTable) (name : String) :
    (s.create t).find? name = if key name = key t.name then some t else s.find? name :=
  find?_insertTable t s.tables name

theorem find?_drop (s : Session) (name other : String) :
    (s.drop name).find? other = if key other = key name then none else s.find? other := by
  unfold find? drop
  rw [List.find?_filter]
  split
  next hsame =>
    rw [List.find?_eq_none]
    intro t _
    simp [hsame]
  next hother =>
    refine congrArg (s.tables.find? ·) (funext fun t => ?_)
    by_cases h : key t.name = key other
    · simp [h, hother]
    · simp [h]

theorem find?_name {s : Session} {t : TempTable} (h : s.find? name = some t) :
    s.find? t.name = some t := by
  have hkey : key t.name = key name := by simpa using List.find?_some h
  rw [← h, find?, find?, hkey]

end Session

namespace BindState

def inventory (s : BindState) : Inventory where
  type? name := (s.declared.lookup (Text.lower name)).map (·.dataType)
  columns? name := (s.session.find? name).map (·.columns)

def Keyed (s : BindState) : Prop :=
  ∀ entry ∈ s.declared, entry.1 = Text.lower entry.2.name

theorem Shares.inventory (h : s.Shares s₀) : s.inventory = s₀.inventory := by
  unfold BindState.inventory
  rw [h.session, h.declared]

theorem Shares.keyed (h : s.Shares s₀) (hs₀ : s₀.Keyed) : s.Keyed := by
  unfold Keyed
  rw [h.declared]
  exact hs₀

theorem Keyed.provides (hs : s.Keyed) : s.Provides s.inventory.vocabulary where
  var {name v} hv := by
    obtain ⟨_, _, hdeclared, -⟩ := List.lookup_eq_some_iff.1 hv
    have hkey : Text.lower name = Text.lower v.name := hs (Text.lower name, v) (by simp [hdeclared])
    change (s.declared.lookup (Text.lower v.name)).map _ = _
    rw [← hkey, hv, Option.map_some]
  table {name t} ht _ _ := by
    change (s.session.find? t.name).map _ = _
    rw [Session.find?_name ht, Option.map_some]
    rfl
  entity _ _ _ h hsource := absurd hsource h

theorem inventory_declare (s : BindState) (name : String) (type : DataType)
    (initial : Option QueryPlan) :
    { s with declared := (Text.lower name, ⟨name, type⟩) :: s.declared }.inventory =
      s.inventory.after (.declare name type initial) := by
  refine congrArg (Inventory.mk · s.inventory.columns?) (funext fun n => ?_)
  dsimp only
  rw [List.lookup_cons]
  split
  next h => rw [if_pos (eq_of_beq h), Option.map_some]
  next h => rw [if_neg (ne_of_beq_false h)]; rfl

theorem inventory_create (s : BindState) (name : String) (columns : List TableColumn) :
    { s with session := s.session.create ⟨name, columns⟩ }.inventory =
      s.inventory.after (.createTable name columns) := by
  refine congrArg (Inventory.mk s.inventory.type?) (funext fun n => ?_)
  dsimp only
  rw [Session.find?_create]
  exact apply_ite _ _ _ _

theorem inventory_drop (s : BindState) (name : String) :
    { s with session := s.session.drop name }.inventory = s.inventory.after (.dropTable name) := by
  refine congrArg (Inventory.mk s.inventory.type?) (funext fun n => ?_)
  dsimp only
  rw [Session.find?_drop]
  exact apply_ite _ _ _ _

end BindState

end BatchPlan
