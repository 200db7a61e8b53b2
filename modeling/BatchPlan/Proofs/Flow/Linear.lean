import BatchPlan.Proofs.Flow.Machine

namespace BatchPlan

/-- A root that neither jumps nor takes part in the handling of errors. -/
def RootNode.isPlain : RootNode → Bool
  | .select _ | .insert .. | .update .. | .delete .. | .declare .. | .assign .. | .print _
  | .createTable .. | .dropTable _ => true
  | _ => false

def RootNode.label? : RootNode → Option String
  | .label name => some name
  | _ => none

namespace Linear

open BatchPlan.Flow

variable {roots code a b : List Root} {i : Nat} {r : Root}

def place? (roots : List Root) (name : String) : Option Nat :=
  roots.findIdx? fun r => r.node.label? == some name

/-- What a root does; `next` is the place after it. -/
def act (roots : List Root) (r : Root) (next : Nat) : Step (Option Nat) :=
  match r.node with
  | .label _ => .silent (some next)
  | .jump target => .silent (place? roots target)
  | .jumpWhen c target jumpIf =>
    .test c fun a => if decide (a = .true) = jumpIf then place? roots target else some next
  | .exit => .halt
  | node => if node.isPlain then .perform r (some next) else .stuck

def step (roots : List Root) : Option Nat → Step (Option Nat)
  | none => .stuck
  | some i => match roots[i]? with
    | none => .halt
    | some r => act roots r (i + 1)

def labels (roots : List Root) : List String :=
  roots.filterMap fun r => r.node.label?

theorem place?_of_nodup (h : (labels roots).Nodup) (hi : roots[i]? = some r) {name : String}
    (hr : r.node = .label name) : place? roots name = some i := by
  obtain ⟨hlt, hget⟩ := List.getElem?_eq_some_iff.1 hi
  rw [place?, List.findIdx?_eq_some_iff_getElem]
  refine ⟨hlt, by simp [hget, hr, RootNode.label?], fun j hj => ?_⟩
  -- a label of the same name before it would stand in the list of labels twice
  have hsplit : labels roots = labels (roots.take i) ++ labels (roots.drop i) := by
    rw [labels, labels, labels, ← List.filterMap_append, List.take_append_drop]
  rw [hsplit, List.nodup_append] at h
  intro hname
  have hname : (roots[j]).node.label? = some name := by simpa using hname
  have hin : name ∈ labels (roots.take i) :=
    List.mem_filterMap.2 ⟨roots[j], List.mem_take_iff_getElem.2 ⟨j, by omega, rfl⟩, hname⟩
  have hin' : name ∈ labels (roots.drop i) :=
    List.mem_filterMap.2 ⟨r, List.mem_drop_iff_getElem.2 ⟨0, by omega, by simpa using hget⟩, by
      simp [hr, RootNode.label?]⟩
  exact h.2.2 name hin name hin' rfl

theorem step_end (roots : List Root) : step roots (some roots.length) = .halt := by
  simp [step]

theorem step_of_getElem? (h : roots[i]? = some r) : step roots (some i) = act roots r (i + 1) := by
  simp [step, h]

theorem act_plain (roots : List Root) (h : r.node.isPlain) (next : Nat) :
    act roots r next = .perform r (some next) := by
  obtain ⟨node, at_⟩ := r
  cases node <;> simp_all [act, RootNode.isPlain]

def Holds (roots : List Root) (i : Nat) (code : List Root) : Prop :=
  code <+: roots.drop i

theorem Holds.head (h : Holds roots i (r :: code)) : roots[i]? = some r := by
  obtain ⟨rest, hrest⟩ := h
  have hzero : (roots.drop i)[0]? = some r := by simp [← hrest]
  simpa using hzero

theorem Holds.right (h : Holds roots i (a ++ b)) : Holds roots (i + a.length) b := by
  obtain ⟨rest, hrest⟩ := h
  refine ⟨rest, ?_⟩
  rw [← List.drop_drop, ← hrest, List.append_assoc, List.drop_left]

theorem Holds.left (h : Holds roots i (a ++ b)) : Holds roots i a :=
  (List.prefix_append a b).trans h

theorem Holds.tail (h : Holds roots i (r :: code)) : Holds roots (i + 1) code :=
  Holds.right (a := [r]) h

theorem Holds.all (roots : List Root) : Holds roots 0 roots :=
  List.prefix_rfl

end Linear

end BatchPlan
