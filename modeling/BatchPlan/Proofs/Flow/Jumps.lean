import BatchPlan.Proofs.Flow.Assembly
import BatchPlan.Proofs.Flow.Regions

namespace BatchPlan

open BatchPlan.Flow

open AssemblyM

variable {name : String} {a : Assembly} {g : Growth}

/-- A place where commands with some surroundings are added. -/
structure Stands (s : Surroundings) (n : Nesting) (a : Assembly) : Prop where
  begun : n.begun = a.regionCount
  regions : n.numbers = s.regions
  inCatch : s.inCatch → n.inCatch

/-- On the way from one assembly to the other, a stretch of a program was added. -/
structure Grows (pending : List (String × List Nat)) (n : Nesting) (a a' : Assembly) (g : Growth) :
    Prop where
  roots : a'.roots = a.roots ++ g.code
  labels : a'.labels = g.own ++ a.labels
  jumps : a'.jumps = a.jumps ++ g.jumps
  stretch : Stretch pending n g a'.regionCount

/-- A stretch was added in which labels were made: the allotted ones, and others with new numbers.
The labels of the batch differ as before. -/
structure Secured (pending allotted : List (String × List Nat)) (n : Nesting) (a a' : Assembly) :
    Prop where
  grows : ∃ g fresh, Grows pending n a a' g ∧ g.made.Perm (allotted ++ fresh) ∧
    FreshLabels a.labelCount a'.labelCount (fresh.map Prod.fst)
  distinct : (a.labels.map Prod.fst).Nodup → (a'.labels.map Prod.fst).Nodup

/-- What an action adds in some surroundings. -/
structure Secures (pending allotted : List (String × List Nat)) (s : Surroundings)
    (x : AssemblyM Unit) : Prop where
  after : ∀ c a n, Stands s n a → Secured pending allotted n a (x.after c a)

/-- The labels to come are in the blocks around, and the labels of the loop are among them. -/
structure Expects (pending : List (String × List Nat)) (s : Surroundings) : Prop where
  around : ∀ e ∈ pending, e.2 <+: s.regions
  loop : ∀ loop ∈ s.loop, ∀ label ∈ [loop.start, loop.stop], ∃ regions, (label, regions) ∈ pending

section

variable {pending allotted allotted' : List (String × List Nat)} {s : Surroundings} {n : Nesting}
  {a a' a'' : Assembly}

theorem Stands.next (h : Stands s n a) (a' : Assembly) :
    Stands s { n with begun := a'.regionCount } a' :=
  ⟨rfl, h.regions, h.inCatch⟩

theorem Grows.append {g' : Growth} (h : Grows pending n a a' g)
    (h' : Grows pending { n with begun := a'.regionCount } a' a'' g') :
    Grows pending n a a'' (g.append g') where
  roots := by rw [h'.roots, h.roots, List.append_assoc]; rfl
  labels := by rw [h'.labels, h.labels, ← List.append_assoc]; rfl
  jumps := by rw [h'.jumps, h.jumps, List.append_assoc]; rfl
  stretch := h.stretch.append h'.stretch

theorem Secured.of_stretch {code : List Root} (h : Stands s n a)
    (hroots : a'.roots = a.roots ++ code) (hlabels : a'.labels = a.labels)
    (hjumps : a'.jumps = a.jumps)
    (hregions : a'.regionCount = a.regionCount) (hcount : a'.labelCount = a.labelCount)
    (hstretch : Stretch pending n { code, made := allotted } n.begun) :
    Secured pending allotted n a a' := by
  have hgrows : Grows pending n a a' { code, made := allotted } :=
    ⟨hroots, hlabels, hjumps.trans (List.append_nil _).symm, by rwa [hregions, ← h.begun]⟩
  refine ⟨⟨_, [], hgrows, by simp, ?_⟩, fun hdistinct => by rwa [hlabels]⟩
  rw [hcount]
  exact .nil _

theorem Secured.append (h : Secured pending allotted n a a')
    (h' : Secured pending allotted' { n with begun := a'.regionCount } a' a'') :
    Secured pending (allotted ++ allotted') n a a'' := by
  obtain ⟨⟨g, fresh, hg, hmade, hfresh⟩, hdistinct⟩ := h
  obtain ⟨⟨g', fresh', hg', hmade', hfresh'⟩, hdistinct'⟩ := h'
  refine ⟨⟨g.append g', fresh ++ fresh', hg.append hg', ?_, ?_⟩, hdistinct' ∘ hdistinct⟩
  · refine (hmade.append hmade').trans (List.perm_iff_count.2 fun e => ?_)
    simp only [List.count_append]
    omega
  · simpa using hfresh.append hfresh'

end

namespace Secures

variable {pending allotted allotted' : List (String × List Nat)} {s : Surroundings}
    {location : Sql.Location}
  {act : BindM RootNode}

theorem append {x y : AssemblyM Unit} (hx : Secures pending allotted s x)
    (hy : Secures pending allotted' s y) : Secures pending (allotted ++ allotted')
      s (x >>= fun _ => y) where
  after c a n hn := (hx.after c a n hn).append (hy.after c _ _ (hn.next _))

theorem nothing : Secures pending [] s (pure ()) where
  after _ _ _ hn := .of_stretch hn (List.append_nil _).symm rfl rfl rfl rfl (.steady (by simp))

theorem fail (e : PlanError) : Secures pending [] s (AssemblyM.fail e) where
  after _ _ _ hn := .of_stretch hn (List.append_nil _).symm rfl rfl rfl rfl (.steady (by simp))

theorem emit {node : RootNode} (h : ∀ n a, Stands s n a → Steady pending n node) :
    Secures pending [] s (AssemblyM.emit location node) where
  after _ a n hn := .of_stretch hn rfl rfl rfl rfl rfl (.steady (by simpa using h n a hn))

theorem label (h : IsMade name) :
    Secures pending [(name, s.regions)] s (AssemblyM.emit location (.label name)) where
  after _ a n hn := by
    rw [← hn.regions]
    exact .of_stretch hn rfl rfl rfl rfl rfl (.madeLabel location h)

theorem emitAll {act : BindM (List RootNode)}
    (h : ∀ n a, Stands s n a → ∀ c st,
      BindM.Yields act c st fun nodes _ => ∀ node ∈ nodes, Steady pending n node) :
    Secures pending [] s (AssemblyM.emitAll location act) where
  after c a n hn := by
    rw [after_emitAll]
    cases hr : act.start c a.state with
    | mk r state =>
      cases r with
      | error e =>
        exact .of_stretch hn (List.append_nil _).symm rfl rfl rfl rfl (.steady (by simp))
      | ok nodes =>
        have hnodes := h n a hn c a.state nodes state hr
        exact .of_stretch hn rfl rfl rfl rfl rfl (.steady (by simpa using hnodes))

theorem emitOne (h : ∀ n a, Stands s n a → ∀ c st, BindM.Yields act c st fun node _ =>
    Steady pending n node) : Secures pending [] s (AssemblyM.emitOne location act) :=
  emitAll fun n a hn c st => (h n a hn c st).bind fun _ _ hnode => .pure (by simpa using hnode)

theorem emitPlain (h : ∀ c st, BindM.Yields act c st fun node _ => node.isPlain) :
    Secures pending [] s (AssemblyM.emitOne location act) :=
  emitOne fun _ _ _ c st => (h c st).mono fun _ _ => steady_of_isPlain

theorem forM {α : Type} {f : α → AssemblyM PUnit} (hf : ∀ v, Secures pending [] s (f v))
    (xs : List α) : Secures pending [] s (xs.forM f) := by
  induction xs with
  | nil => exact nothing
  | cons x xs ih => exact (hf x).append ih

theorem allot (names : Nat → List String) {f : String → AssemblyM Unit}
    (hnames : ∀ k, FreshLabels k (k + 1) (names (k + 1)))
    (h : ∀ k, Secures ((names k).map (·, s.regions) ++ pending) ((names k).map (·, s.regions)) s
      (f (toString k))) : Secures pending [] s (freshLabel >>= f) where
  after c a n hn := by
    rw [after_freshLabel_bind]
    have hn' : Stands s n { a with labelCount := a.labelCount + 1 } :=
      ⟨hn.begun, hn.regions, hn.inCatch⟩
    obtain ⟨⟨g, fresh, hg, hmade, hfresh⟩, hdistinct⟩ := (h (a.labelCount + 1)).after c _ n hn'
    have hall : (names (a.labelCount + 1)).map (·, s.regions) ⊆ g.made := fun e he =>
      hmade.mem_iff.2 (List.mem_append_left fresh he)
    refine ⟨⟨g, _, ⟨hg.roots, hg.labels, hg.jumps, hg.stretch.resolve hall⟩, hmade, ?_⟩, hdistinct⟩
    simpa [Function.comp_def] using (hnames a.labelCount).append hfresh

end Secures

section

variable {pending : List (String × List Nat)} {s : Surroundings} {b : QueryBinder}
  {location : Sql.Location} {condition : Sql.Expr}

theorem Expects.append {labels : List String} (h : Expects pending s) :
    Expects (labels.map (·, s.regions) ++ pending) s where
  around := List.forall_mem_append.2 ⟨by simp, h.around⟩
  loop loop hloop label hlabel := by
    obtain ⟨regions, hmem⟩ := h.loop loop hloop label hlabel
    exact ⟨regions, List.mem_append_right _ hmem⟩

theorem secures_leaveLoop (hp : Expects pending s) {word : String} {target : Loop → String}
    (htarget : ∀ loop, target loop ∈ [loop.start, loop.stop]) :
    Secures pending [] s (leaveLoop s location word target) := by
  unfold leaveLoop
  cases hloop : s.loop with
  | none => exact .fail _
  | some loop =>
    obtain ⟨regions, hlabel⟩ := hp.loop loop hloop _ (htarget loop)
    exact .emit fun n a hn => steady_jump hlabel (hn.regions ▸ hp.around _ hlabel)

theorem secures_addLabel (hname : Sql.isBareSpelling name) :
    Secures pending [] s (addLabel s location name) where
  after c a n hn := by
    change Secured pending [] n a
      ((if (a.labels.lookup (Text.lower name)).isSome then fail (.duplicate "label" name)
        else do
          modify fun a => { a with labels := (Text.lower name, s.regions) :: a.labels }
          emit location (.label name)).after c a)
    split
    · exact (Secures.fail _).after c a n hn
    next hnew =>
      have hstretch : Stretch pending n _ _ := .ownLabel location hname
      rw [hn.regions, hn.begun] at hstretch
      refine ⟨⟨_, [], ⟨rfl, rfl, (List.append_nil _).symm, hstretch⟩, .nil, .nil _⟩,
        fun hdistinct => ?_⟩
      refine List.nodup_cons.2 ⟨fun hmem => hnew ?_, hdistinct⟩
      obtain ⟨e, he, hkey⟩ := List.mem_map.1 hmem
      exact List.lookup_isSome_iff.2 ⟨e, he, beq_iff_eq.2 hkey.symm⟩

theorem secures_addJump (name : String) : Secures pending [] s (addJump s location name) where
  after c a n hn := by
    have hstretch : Stretch pending n _ _ := .ownJump location name
    rw [hn.regions, hn.begun] at hstretch
    exact ⟨⟨_, [], ⟨rfl, rfl, rfl, hstretch⟩, .nil, .nil _⟩, id⟩

theorem secures_addThrow (args : Option Sql.ThrowArguments) :
    Secures pending [] s (addThrow s location args) := by
  cases args with
  | some args => exact .emitOne fun _ _ _ _ _ => .bind .any fun _ _ _ => .pure (steady_throw _)
  | none =>
    change Secures pending [] s (if s.inCatch then _ else _)
    split
    next h => exact .emit fun n a hn => steady_rethrow (hn.inCatch h)
    next => exact .fail _

theorem secures_jumpUnless {label : String} (hlabel : (label, s.regions) ∈ pending) :
    Secures pending [] s (emitOne location (b.jumpUnless condition label)) :=
  .emitOne fun _ _ hn _ _ => .bind .any fun _ _ _ =>
    .pure ⟨rfl, rfl, isSafe_of_pending rfl nofun hlabel (hn.regions ▸ List.prefix_refl _)⟩

theorem secures_jump {label : String} (hlabel : (label, s.regions) ∈ pending) :
    Secures pending [] s (emit location (.jump label)) :=
  .emit fun _ _ hn => steady_jump hlabel (hn.regions ▸ List.prefix_refl _)

theorem secures_region (location : Sql.Location) (isCatch : Bool)
    (inner : Surroundings → Surroundings) {x : Surroundings → AssemblyM Unit}
    (hregions : ∀ s', (inner s').regions = s'.regions)
    (hcatch : ∀ s', (inner s').inCatch → isCatch ∨ s'.inCatch)
    (hx : ∀ k, Secures pending [] (inner { s with regions := s.regions ++ [k] })
      (x { s with regions := s.regions ++ [k] })) :
    Secures pending [] s (do
      emit location (beginOf isCatch)
      x (← enterRegion s)
      emit location (endOf isCatch)) where
  after c a n hn := by
    have hinner : Stands (inner { s with regions := s.regions ++ [a.regionCount + 1] })
        (n.enter isCatch)
        { a with
          roots := a.roots ++ [⟨beginOf isCatch, location⟩],
          regionCount := a.regionCount + 1 } := by
      refine ⟨congrArg (· + 1) hn.begun, ?_, fun h => ?_⟩
      · simp [hregions, Nesting.enter, Nesting.numbers, ← hn.regions, hn.begun]
      · have hn' := hn.inCatch
        have := hcatch _ h
        simp only [Nesting.enter, Nesting.inCatch] at hn' ⊢
        grind
    obtain ⟨⟨g, fresh, hg, hmade, hfresh⟩, hdistinct⟩ := (hx (a.regionCount + 1)).after c _ _ hinner
    refine ⟨⟨{ g with code := ⟨beginOf isCatch, location⟩ ::
      (g.code ++ [⟨endOf isCatch, location⟩]) },
      fresh, ⟨?_, hg.labels, hg.jumps, hg.stretch.region location isCatch⟩, hmade,
        hfresh⟩, hdistinct⟩
    refine (congrArg (· ++ [⟨endOf isCatch, location⟩]) hg.roots).trans ?_
    simp only [List.append_assoc, List.cons_append, List.nil_append]

end

section

variable {b : QueryBinder}

mutual

theorem secures_assemble (s : Surroundings) (pending : List (String × List Nat))
    (hp : Expects pending s) :
    ∀ command : Sql.Command, command.hasBareLabels → Secures pending [] s (assemble b s command)
  | .mk node location hints, h => by
    rw [assemble]
    exact secures_assembleNode s pending hp location hints node h

theorem secures_assembleNode (s : Surroundings) (pending : List (String × List Nat))
    (hp : Expects pending s) (location : Sql.Location) (hints : Hints) :
    ∀ node : Sql.CommandNode, node.hasBareLabels →
      Secures pending [] s (assembleNode b s location hints node)
  | .sql statement, _ => by
    rw [assembleNode]
    have hroots : Secures pending [] s (emitAll location (b.statement hints statement)) :=
      .emitAll fun _ _ _ c st => (plain_statement b hints statement).mono
        fun _ _ hnodes node hnode => steady_of_isPlain (hnodes node hnode)
    exact ⟨fun c a n hn => hroots.after { c with recursionHint := hints.maxRecursion } a n hn⟩
  | .declare items, _ => by
    rw [assembleNode]
    exact .forM (fun d => .emitPlain fun _ _ => plain_declare b d) items
  | .set name value, _ => by
    rw [assembleNode]
    exact .emitPlain fun _ _ => plain_assign b name value
  | .print value, _ => by
    rw [assembleNode]
    exact .emitPlain fun _ _ => plain_print b value
  | .exit, _ => by
    rw [assembleNode]
    exact .emit fun _ _ _ => steady_exit
  | .throw args, _ => by
    rw [assembleNode]
    exact secures_addThrow args
  | .block body, h => by
    rw [assembleNode]
    exact secures_assembleAll s pending hp body h
  | .ifElse condition yes none, h => by
    rw [assembleNode]
    exact .allot (fun k => [elseLabel k]) (fun k => (freshLabels_if k).sublist (by simp)) fun k =>
      (secures_jumpUnless (by simp [elseLabel])).append
        ((secures_assemble s _ hp.append yes h).append (.label (isMade_else k)))
  | .ifElse condition yes (some no), h => by
    rw [Sql.CommandNode.hasBareLabels, Bool.and_eq_true] at h
    rw [assembleNode]
    exact .allot (fun k => [elseLabel k, endLabel k]) freshLabels_if fun k =>
      (secures_jumpUnless (by simp [elseLabel])).append
        ((secures_assemble s _ hp.append yes h.1).append ((secures_jump (by simp [endLabel])).append
          ((Secures.label (isMade_else k)).append
            ((secures_assemble s _ hp.append no h.2).append (.label (isMade_end k))))))
  | .whileLoop condition body, h => by
    rw [assembleNode]
    refine .allot (fun k => [(loopLabels k).start, (loopLabels k).stop])
      freshLabels_while fun k => ?_
    have hinner : Expects ([(loopLabels k).start, (loopLabels k).stop].map
      (·, s.regions) ++ pending) { s with loop := some (loopLabels k) } := by
      refine ⟨hp.append.around, ?_⟩
      rintro loop ⟨⟩ label hlabel
      exact ⟨s.regions, List.mem_append_left _ (List.mem_map_of_mem hlabel)⟩
    have hbody : Secures _ [] s (assemble b { s with loop := some (loopLabels k) } body) :=
      ⟨fun c a n hn => (secures_assemble _ _ hinner body h).after c a n
        ⟨hn.begun, hn.regions, hn.inCatch⟩⟩
    exact (Secures.label (isMade_start k)).append
      ((secures_jumpUnless (by simp [loopLabels])).append
      (hbody.append ((secures_jump (by simp [loopLabels])).append (.label (isMade_stop k)))))
  | .breakLoop, _ | .continueLoop, _ => by
    rw [assembleNode]
    exact secures_leaveLoop hp (by simp)
  | .tryCatch body handler, h => by
    rw [Sql.CommandNode.hasBareLabels, Bool.and_eq_true] at h
    rw [assembleNode]
    have hinner (k : Nat) (inCatch : Bool) :
        Expects pending { s with regions := s.regions ++ [k], inCatch } :=
      ⟨fun e he => (hp.around e he).trans (List.prefix_append _ _), hp.loop⟩
    have htry := secures_region location false id
      (x := fun s' => assembleAll b s' body) (fun _ => rfl) (by simp) fun k =>
        secures_assembleAll _ pending (hinner k s.inCatch) body h.1
    have hcatch := secures_region location true (fun s' => { s' with inCatch := true })
      (x := fun s' => assembleAll b { s' with inCatch := true } handler) (fun _ => rfl) (by simp)
      fun k => secures_assembleAll _ pending (hinner k true) handler h.2
    exact ⟨fun c a n hn => (htry.append hcatch).after c a n hn⟩
  | .label name, h => by
    rw [assembleNode]
    exact secures_addLabel h
  | .goto name, _ => by
    rw [assembleNode]
    exact secures_addJump name

theorem secures_assembleAll (s : Surroundings) (pending : List (String × List Nat))
    (hp : Expects pending s) : ∀ commands : List Sql.Command, Sql.haveBareLabels commands →
      Secures pending [] s (assembleAll b s commands)
  | [], _ => by
    rw [assembleAll]
    exact .nothing
  | command :: rest, h => by
    rw [Sql.haveBareLabels, Bool.and_eq_true] at h
    rw [assembleAll]
    exact (secures_assemble s pending hp command h.1).append
      (secures_assembleAll s pending hp rest h.2)

end

end

theorem Assembly.checkJump_of_finish {roots : List Root} (h : a.finish = .ok roots) :
    ∀ j ∈ a.jumps, a.checkJump j = none := by
  unfold finish at h
  split at h
  · cases h
  · split at h
    next hnone => exact List.filterMap_eq_nil_iff.1 (List.append_eq_nil_iff.1 hnone).2
    next => cases h

theorem Assembly.exists_of_checkJump {j : Jump} (h : a.checkJump j = none) :
    ∃ regions, (Text.lower j.label, regions) ∈ a.labels ∧ regions <+: j.regions := by
  unfold checkJump at h
  split at h
  next => cases h
  next regions hregions =>
    split at h
    next hprefix =>
      obtain ⟨before, after, hlabels, -⟩ := List.lookup_eq_some_iff.1 hregions
      exact ⟨regions, by rw [hlabels]; simp, List.isPrefixOf_iff_prefix.1 hprefix⟩
    next => cases h

namespace Flow

/-- Labels of the batch differ, labels that were made differ, and the one is never the other. -/
theorem Stretch.nodup {pending : List (String × List Nat)} {n : Nesting} {begun : Nat}
    (h : Stretch pending n g begun) (hown : (g.own.map Prod.fst).Nodup)
    (hmade : (g.made.map Prod.fst).Nodup) : ((g.own ++ g.made).map Prod.fst).Nodup := by
  rw [List.map_append, List.nodup_append]
  refine ⟨hown, hmade, ?_⟩
  rintro _ hkey _ hname rfl
  obtain ⟨e, he, hkey⟩ := List.mem_map.1 hkey
  obtain ⟨e', he', hname⟩ := List.mem_map.1 hname
  obtain ⟨word, hword, hlower⟩ := h.own e he
  exact (h.made e' he').ne_lower hword (by rw [← hlower, hkey, hname])

theorem filter_isNamed {stations : List Station} {label : Station} {regions : List Nat}
    (h : ((stations.filterMap Station.landing?).map Prod.fst).Nodup) (hlabel : label ∈ stations)
    (hentry : label.landing? = some (Text.lower name, regions)) :
    stations.filter (Station.isNamed name) = [label] := by
  have hkey {st : Station} {rest : List Station} {e : String × List Nat} (hst : st ∈ rest)
      (he : st.landing? = some e) : e.1 ∈ (rest.filterMap Station.landing?).map Prod.fst :=
    List.mem_map_of_mem (List.mem_filterMap.2 ⟨st, hst, he⟩)
  have hnamed {st : Station} (hst : st.isNamed name) :
      ∃ e, st.landing? = some e ∧ e.1 = Text.lower name := by
    simpa [Station.isNamed] using hst
  induction stations with
  | nil => cases hlabel
  | cons st rest ih =>
    rcases List.mem_cons.1 hlabel with rfl | hlabel
    · rw [List.filterMap_cons_some hentry, List.map_cons, List.nodup_cons] at h
      have hrest : rest.filter (Station.isNamed name) = [] := by
        rw [List.filter_eq_nil_iff]
        intro st hst hname
        obtain ⟨e, he, hlower⟩ := hnamed hname
        have hmem := hkey hst he
        rw [hlower] at hmem
        exact h.1 hmem
      rw [List.filter_cons_of_pos (by simp [Station.isNamed, hentry]), hrest]
    · have hother : ¬ st.isNamed name := by
        intro hname
        obtain ⟨e, he, hlower⟩ := hnamed hname
        rw [List.filterMap_cons_some he, List.map_cons, List.nodup_cons, hlower] at h
        exact h.1 (hkey hlabel hentry)
      rw [List.filter_cons_of_neg hother]
      refine ih (h.sublist ?_) hlabel
      exact ((List.sublist_cons_self st rest).filterMap _).map _

/-- The jumps of a program are safe. Its TRY and CATCH blocks end one inside of the other, and the
walk over its roots ends in none of them. The name of a jump is the name of one label only, whatever
the case of the letters, and the blocks around the label are the outermost of those around the jump.
What raises an error again stands in a CATCH block. -/
theorem build_jumps_stay_outside_blocks (i : BuildInput) (sql : String) (roots : List Root)
    (h : i.build sql = .ok roots) :
    ∃ stations last, walk {} roots = some (stations, last) ∧ last.around = [] ∧
      stations.map Station.node = roots.map Root.node ∧ ∀ st ∈ stations,
        (∀ target ∈ st.node.target?, ∃ label, stations.filter (Station.isNamed target) = [label] ∧
          label.regions <+: st.regions) ∧
        (st.node = .rethrow → st.inCatch) := by
  obtain ⟨commands, state, hparse, -, hfinish⟩ := BuildInput.exists_of_build h
  obtain ⟨-, rfl⟩ := Assembly.errors_of_finish hfinish
  have hempty : Expects [] {} := ⟨by simp, by simp⟩
  obtain ⟨⟨g, fresh, hg, hmade, hfresh⟩, hdistinct⟩ :=
    (secures_assembleAll (b := .ofDepth (sql.length + 1)) {} [] hempty commands
      (Sql.haveBareLabels_of_parseBatch hparse)).after
      { catalog := i.catalog, options := i.options } { state } {} ⟨rfl, rfl, by simp⟩
  obtain ⟨stations, hwalk, hentries, hsafe⟩ := hg.stretch.walks
  have hroots := hg.roots
  have hlabels := hg.labels
  have hjumps := hg.jumps
  simp only [List.nil_append, List.append_nil] at hroots hlabels hjumps
  have hnodup : ((stations.filterMap Station.landing?).map Prod.fst).Nodup := by
    rw [(hentries.map Prod.fst).nodup_iff]
    refine hg.stretch.nodup ?_ ((hmade.map Prod.fst).nodup_iff.2 hfresh.nodup)
    rw [← hlabels]
    exact hdistinct (by simp)
  rw [← hroots] at hwalk
  refine ⟨stations, _, hwalk, rfl, map_node_walk hwalk, fun st hst => ⟨fun target htarget => ?_,
    (hsafe st hst).rethrow⟩⟩
  obtain ⟨regions, hentry, hregions⟩ : ∃ regions,
      (Text.lower target, regions) ∈ g.own ++ g.made ∧ regions <+: st.regions := by
    rcases (hsafe st hst).jump target htarget with hjump | ⟨regions, hlabel, hregions⟩
    · obtain ⟨regions, hmem, hregions⟩ :=
        Assembly.exists_of_checkJump (Assembly.checkJump_of_finish hfinish _ (hjumps ▸ hjump))
      exact ⟨regions, List.mem_append_left _ (hlabels ▸ hmem), hregions⟩
    · rw [List.nil_append] at hlabel
      refine ⟨regions, List.mem_append_right _ ?_, hregions⟩
      rwa [(hg.stretch.made _ hlabel).lower]
  obtain ⟨label, hlabel, hlabelEntry⟩ := List.mem_filterMap.1 (hentries.mem_iff.2 hentry)
  have hblocks : label.regions = regions := by
    obtain ⟨name, -, hname⟩ := Option.map_eq_some_iff.1 hlabelEntry
    exact congrArg Prod.snd hname
  exact ⟨label, filter_isNamed hnodup hlabel hlabelEntry, hblocks ▸ hregions⟩

def leavingTry : String :=
  "WHILE 1 = 1 BEGIN BEGIN TRY IF 1 = 2 BREAK ELSE GOTO Done END TRY " ++
    "BEGIN CATCH THROW END CATCH END DONE: RETURN"

theorem leavingTry_jumps_stay_outside_blocks :
    ∃ roots, ({ catalog := {} } : BuildInput).build leavingTry = .ok roots ∧
      (∃ r ∈ roots, r.node.target? = some "Done") ∧
      ∃ stations last, walk {} roots = some (stations, last) ∧ last.around = [] ∧
        stations.map Station.node = roots.map Root.node ∧ ∀ st ∈ stations,
          (∀ target ∈ st.node.target?, ∃ label, stations.filter (Station.isNamed target) = [label] ∧
            label.regions <+: st.regions) ∧
          (st.node = .rethrow → st.inCatch) := by
  have hjumps : (({ catalog := {} } : BuildInput).build leavingTry).toOption.any fun roots =>
      roots.any fun r => r.node.target? = some "Done" := by
    decide +kernel
  obtain ⟨roots, hroots, hjump⟩ := exists_ok_of_any hjumps
  refine ⟨roots, hroots, by simpa using hjump, ?_⟩
  exact build_jumps_stay_outside_blocks _ leavingTry roots hroots

end Flow

end BatchPlan
