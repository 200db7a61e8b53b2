import BatchPlan.Proofs.Flow.Names

namespace BatchPlan

def RootNode.target? : RootNode → Option String
  | .jumpWhen _ target _ | .jump target => some target
  | _ => none

namespace Flow

variable {n last : Nesting} {stations : List Station} {code rest : List Root}
    {begun : Nat} {g : Growth}
  {r : Root} {labels : List (String × List Nat)} {jumps : List Jump}

/-- A TRY or CATCH block. The blocks of a program are numbered as they begin. -/
structure Region where
  number : Nat
  isCatch : Bool
deriving DecidableEq, Repr

/-- A place in a program: the number of blocks that begin before it, and the blocks that it is in,
the outermost first. -/
structure Nesting where
  begun : Nat := 0
  around : List Region := []
deriving DecidableEq, Repr

namespace Nesting

def numbers (n : Nesting) : List Nat :=
  n.around.map Region.number

def inCatch (n : Nesting) : Bool :=
  n.around.any Region.isCatch

def enter (n : Nesting) (isCatch : Bool) : Nesting :=
  ⟨n.begun + 1, n.around ++ [⟨n.begun + 1, isCatch⟩]⟩

/-- Only the innermost block can end, and only as what it began. -/
def leave (n : Nesting) (isCatch : Bool) : Option Nesting :=
  if n.around.getLast?.map Region.isCatch = some isCatch then
    some { n with around := n.around.dropLast }
  else none

def after (n : Nesting) : RootNode → Option Nesting
  | .beginTry => some (n.enter false)
  | .beginCatch => some (n.enter true)
  | .endTry => n.leave false
  | .endCatch => n.leave true
  | _ => some n

end Nesting

structure Station where
  node : RootNode
  regions : List Nat
  inCatch : Bool

namespace Station

def landing? (st : Station) : Option (String × List Nat) :=
  st.node.label?.map fun name => (Text.lower name, st.regions)

def isNamed (name : String) (st : Station) : Bool :=
  st.landing?.map Prod.fst == some (Text.lower name)

/-- A jump is in a list of jumps, or goes to one of the labels and not into a block. What raises an
error again is in a CATCH block. -/
structure IsSafe (labels : List (String × List Nat)) (jumps : List Jump) (st : Station) : Prop where
  jump : ∀ target ∈ st.node.target?, ⟨target, st.regions⟩ ∈ jumps ∨
    ∃ regions, (target, regions) ∈ labels ∧ regions <+: st.regions
  rethrow : st.node = .rethrow → st.inCatch

theorem IsSafe.mono {labels' : List (String × List Nat)} {jumps' : List Jump} {st : Station}
    (h : st.IsSafe labels jumps) (hlabels : labels ⊆ labels') (hjumps : jumps ⊆ jumps') :
    st.IsSafe labels' jumps' := by
  refine ⟨fun target htarget => ?_, h.rethrow⟩
  rcases h.jump target htarget with hjump | ⟨regions, hlabel, hregions⟩
  · exact .inl (hjumps hjump)
  · exact .inr ⟨regions, hlabels hlabel, hregions⟩

end Station

def Nesting.station (n : Nesting) (node : RootNode) : Station :=
  ⟨node, n.numbers, n.inCatch⟩

/-- The roots with the blocks that they are in, and the place behind them. There is none if a block
ends that is not the innermost one. -/
def walk (n : Nesting) : List Root → Option (List Station × Nesting)
  | [] => some ([], n)
  | r :: rest => do
    let behind ← n.after r.node
    let (stations, last) ← walk behind rest
    return (n.station r.node :: stations, last)

theorem walk_cons {behind : Nesting} (hr : n.after r.node = some behind)
    (hrest : walk behind rest = some (stations, last)) :
    walk n (r :: rest) = some (n.station r.node :: stations, last) := by
  rw [walk, hr]
  change (walk behind rest >>= _) = _
  rw [hrest]
  rfl

theorem walk_append {m : Nesting} {stations' : List Station}
    (hcode : walk n code = some (stations, m)) (hrest : walk m rest = some (stations', last)) :
    walk n (code ++ rest) = some (stations ++ stations', last) := by
  induction code generalizing n stations with
  | nil =>
    cases hcode
    exact hrest
  | cons r code ih =>
    rw [walk] at hcode
    obtain ⟨behind, hbehind, hcode⟩ := Option.bind_eq_some_iff.1 hcode
    obtain ⟨⟨later, m'⟩, hlater, hcode⟩ := Option.bind_eq_some_iff.1 hcode
    cases hcode
    exact walk_cons hbehind (ih hlater)

theorem map_node_walk (h : walk n code = some (stations, last)) :
    stations.map Station.node = code.map Root.node := by
  induction code generalizing n stations with
  | nil =>
    cases h
    rfl
  | cons r code ih =>
    rw [walk] at h
    obtain ⟨behind, hbehind, h⟩ := Option.bind_eq_some_iff.1 h
    obtain ⟨⟨later, m⟩, hlater, h⟩ := Option.bind_eq_some_iff.1 h
    cases h
    exact congrArg (r.node :: ·) (ih hlater)

/-- What is added to a program: roots, labels of the batch in lower case and labels that were made,
with the blocks that they are in, and jumps of the batch. -/
structure Growth where
  code : List Root := []
  own : List (String × List Nat) := []
  made : List (String × List Nat) := []
  jumps : List Jump := []

/-- One growth after the other. Labels of the batch are noted in front. -/
def Growth.append (g g' : Growth) : Growth :=
  ⟨g.code ++ g'.code, g'.own ++ g.own, g.made ++ g'.made, g.jumps ++ g'.jumps⟩

/-- From a place on, roots are walked through to a place in the same blocks. Their labels are the
ones that are noted, and they are safe as soon as the labels in `pending` are there. -/
structure Stretch (pending : List (String × List Nat)) (n : Nesting) (g : Growth) (begun : Nat) :
    Prop where
  walks : ∃ stations, walk n g.code = some (stations, { n with begun }) ∧
    (stations.filterMap Station.landing?).Perm (g.own ++ g.made) ∧
    ∀ st ∈ stations, st.IsSafe (pending ++ g.made) g.jumps
  own : ∀ e ∈ g.own, ∃ name, Sql.isBareSpelling name ∧ e.1 = Text.lower name
  made : ∀ e ∈ g.made, IsMade e.1

namespace Stretch

variable {pending : List (String × List Nat)} {n : Nesting}

theorem append {g' : Growth} {begun' : Nat} (h : Stretch pending n g begun)
    (h' : Stretch pending { n with begun } g' begun') : Stretch pending n (g.append g') begun' := by
  obtain ⟨⟨stations, hwalk, hlabels, hsafe⟩, hown, hmade⟩ := h
  obtain ⟨⟨stations', hwalk', hlabels', hsafe'⟩, hown', hmade'⟩ := h'
  refine ⟨⟨stations ++ stations', walk_append hwalk hwalk', ?_, ?_⟩, ?_, ?_⟩
  · rw [List.filterMap_append]
    refine (hlabels.append hlabels').trans (List.perm_iff_count.2 fun e => ?_)
    simp only [Growth.append, List.count_append]
    omega
  · intro st hst
    rcases List.mem_append.1 hst with hst | hst
    · exact (hsafe st hst).mono (by simp [Growth.append, List.subset_def]; grind)
        (List.subset_append_left _ _)
    · exact (hsafe' st hst).mono (by simp [Growth.append, List.subset_def]; grind)
        (List.subset_append_right _ _)
  · exact List.forall_mem_append.2 ⟨hown', hown⟩
  · exact List.forall_mem_append.2 ⟨hmade, hmade'⟩

theorem resolve (h : Stretch (labels ++ pending) n g begun) (hlabels : labels ⊆ g.made) :
    Stretch pending n g begun := by
  obtain ⟨⟨stations, hwalk, hentries, hsafe⟩, hown, hmade⟩ := h
  refine ⟨⟨stations, hwalk, hentries, fun st hst => (hsafe st hst).mono ?_ fun _ h => h⟩,
    hown, hmade⟩
  simp only [List.subset_def, List.mem_append]
  grind

theorem single {own made : List (String × List Nat)} (hr : n.after r.node = some n)
    (hentry : (n.station r.node).landing?.toList = own ++ made)
    (hsafe : (n.station r.node).IsSafe (pending ++ made) jumps)
    (hown : ∀ e ∈ own, ∃ name, Sql.isBareSpelling name ∧ e.1 = Text.lower name)
    (hmade : ∀ e ∈ made, IsMade e.1) : Stretch pending n ⟨[r], own, made, jumps⟩ n.begun := by
  refine ⟨⟨[n.station r.node], walk_cons hr rfl, ?_, by simpa using hsafe⟩, hown, hmade⟩
  rw [← hentry]
  cases h : (n.station r.node).landing? <;> simp [h]

end Stretch

/-- A root that is neither a label nor the begin or end of a block, and is safe. -/
structure Steady (pending : List (String × List Nat)) (n : Nesting) (node : RootNode) : Prop where
  stays : n.after node = some n
  label? : node.label? = none
  safe : (n.station node).IsSafe pending []

theorem Stretch.steady {pending : List (String × List Nat)}
    (h : ∀ r ∈ code, Steady pending n r.node) : Stretch pending n { code } n.begun := by
  induction code with
  | nil => exact ⟨⟨[], rfl, .nil, by simp⟩, by simp, by simp⟩
  | cons r rest ih =>
    obtain ⟨hr, hrest⟩ := List.forall_mem_cons.1 h
    have hone : Stretch pending n ⟨[r], [], [], []⟩ n.begun :=
      .single hr.stays (by simp [Station.landing?, Nesting.station, hr.label?])
        (by simpa using hr.safe) (by simp) (by simp)
    exact hone.append (ih hrest)

def beginOf (isCatch : Bool) : RootNode :=
  if isCatch then .beginCatch else .beginTry

def endOf (isCatch : Bool) : RootNode :=
  if isCatch then .endCatch else .endTry

section

variable {pending labels : List (String × List Nat)} {jumps : List Jump} {n : Nesting}
  {node : RootNode} {target : String} {regions : List Nat}

theorem isSafe_of_target? (h : node.target? = none) (hnode : node ≠ .rethrow) :
    (n.station node).IsSafe labels jumps where
  jump target htarget := by
    rw [show (n.station node).node = node from rfl, h] at htarget
    cases htarget
  rethrow h := absurd h hnode

theorem isSafe_of_pending (h : node.target? = some target) (hnode : node ≠ .rethrow)
    (hlabel : (target, regions) ∈ labels) (hregions : regions <+: n.numbers) :
    (n.station node).IsSafe labels jumps where
  jump target' htarget := by
    rw [show (n.station node).node = node from rfl, h] at htarget
    cases htarget
    exact .inr ⟨regions, hlabel, hregions⟩
  rethrow h := absurd h hnode

theorem steady_of_isPlain (h : node.isPlain) : Steady pending n node := by
  cases node with
  | select | insert | update | delete | declare | assign | print | createTable | dropTable =>
    exact ⟨rfl, rfl, isSafe_of_target? rfl nofun⟩
  | _ => cases h

theorem steady_exit : Steady pending n .exit :=
  ⟨rfl, rfl, isSafe_of_target? rfl nofun⟩

theorem steady_throw (error : QueryPlan) : Steady pending n (.throw error) :=
  ⟨rfl, rfl, isSafe_of_target? rfl nofun⟩

theorem steady_rethrow (h : n.inCatch) : Steady pending n .rethrow :=
  ⟨rfl, rfl, ⟨nofun, fun _ => h⟩⟩

theorem steady_jump (hlabel : (target, regions) ∈ pending) (hregions : regions <+: n.numbers) :
    Steady pending n (.jump target) :=
  ⟨rfl, rfl, isSafe_of_pending rfl nofun hlabel hregions⟩

namespace Stretch

variable {name : String} (location : Sql.Location)

theorem madeLabel (h : IsMade name) :
    Stretch pending n { code := [⟨.label name, location⟩], made := [(name, n.numbers)] } n.begun :=
  .single rfl (by simp [Station.landing?, Nesting.station, RootNode.label?, h.lower])
    (isSafe_of_target? rfl nofun) (by simp) (by simpa using h)

theorem ownLabel (h : Sql.isBareSpelling name) :
    Stretch pending n { code := [⟨.label name, location⟩], own := [(Text.lower name, n.numbers)] }
      n.begun :=
  .single rfl (by simp [Station.landing?, Nesting.station, RootNode.label?])
    (isSafe_of_target? rfl nofun) (by simpa using ⟨name, h, rfl⟩) (by simp)

theorem ownJump (name : String) :
    Stretch pending n { code := [⟨.jump name, location⟩], jumps := [⟨name, n.numbers⟩] } n.begun :=
  .single rfl rfl ⟨by simp [Nesting.station, RootNode.target?], nofun⟩ (by simp) (by simp)

theorem region (isCatch : Bool) (h : Stretch pending (n.enter isCatch) g begun) :
    Stretch pending n { g with
      code := ⟨beginOf isCatch, location⟩ :: (g.code ++ [⟨endOf isCatch, location⟩]) } begun := by
  obtain ⟨⟨stations, hwalk, hentries, hsafe⟩, hown, hmade⟩ := h
  have hend : walk { n.enter isCatch with begun } [⟨endOf isCatch, location⟩] =
      some ([Nesting.station { n.enter isCatch with begun } (endOf isCatch)], { n with begun }) :=
    walk_cons (by cases isCatch <;> simp [Nesting.after, Nesting.leave, Nesting.enter, endOf]) rfl
  have hbegin : n.after (beginOf isCatch) = some (n.enter isCatch) := by cases isCatch <;> rfl
  refine ⟨⟨_, walk_cons hbegin (walk_append hwalk hend), ?_, ?_⟩, hown, hmade⟩
  · have hnone (m : Nesting) : (m.station (beginOf isCatch)).landing? = none ∧
        (m.station (endOf isCatch)).landing? = none := by
      cases isCatch <;> exact ⟨rfl, rfl⟩
    rw [List.filterMap_cons_none (hnone _).1, List.filterMap_append,
      List.filterMap_cons_none (hnone _).2, List.filterMap_nil, List.append_nil]
    exact hentries
  · refine List.forall_mem_cons.2 ⟨?_, List.forall_mem_append.2 ⟨hsafe, ?_⟩⟩
    · cases isCatch <;> exact isSafe_of_target? rfl nofun
    · rw [List.forall_mem_singleton]
      cases isCatch <;> exact isSafe_of_target? rfl nofun

end Stretch

end

end Flow

end BatchPlan
