import BatchPlan.Proofs.Flow.Reading

namespace BatchPlan.Sql

variable {clauses : List PlacedHints} {placed kept : List Placed} {fuel : Nat}

namespace Location

theorem not_before_trans {a b c : Location} (hab : ¬ b.before a) (hbc : ¬ c.before b) :
    ¬ c.before a := by
  simp only [before, Bool.or_eq_true, Bool.and_eq_true, decide_eq_true_eq, beq_iff_eq] at *
  omega

theorem not_after_before (at_ : Location) (cs : List Char) : ¬ (at_.after cs).before at_ := by
  induction cs generalizing at_ with
  | nil => simp [after, before]
  | cons c cs ih =>
    refine not_before_trans (b := at_.step c) ?_ (ih _)
    unfold step
    split <;> simp [before]

end Location

theorem Lexer.ordered_run {at_ : Location} {cs : List Char} (h : run fuel at_ cs = .ok placed) :
    (∀ t ∈ placed, ¬ t.location.before at_) ∧
      placed.Pairwise fun a b => ¬ b.location.before a.location := by
  fun_induction run fuel at_ cs generalizing placed with
  | case1 =>
    cases h
    simp
  | case2 =>
    cases h
    simp
  | case3 => cases h
  | case4 =>
    rename_i ih
    obtain ⟨hlater, hordered⟩ := ih h
    exact ⟨fun t ht => Location.not_before_trans (Location.not_after_before _ _)
      (hlater t ht), hordered⟩
  | case5 _ at_ =>
    rename_i ih
    obtain ⟨later, hrun, h⟩ := Result.exists_of_bind h
    cases h
    obtain ⟨hlater, hordered⟩ := ih hrun
    have hlater : ∀ t ∈ later, ¬ t.location.before at_ := fun t ht =>
      Location.not_before_trans (Location.not_after_before _ _) (hlater t ht)
    refine ⟨List.forall_mem_cons.2 ⟨?_, hlater⟩, List.pairwise_cons.2 ⟨hlater, hordered⟩⟩
    simp [Location.before]

/-- An OPTION clause begins with the word, without quotes and in any case, and a parenthesis. -/
def beginsClause (tokens : List Placed) : Bool :=
  tokens.head?.any (·.token.isBare "OPTION") && (tokens.tail.head?.map Placed.token) =
    some (.symbol "(")

/-- Tokens, those of them outside OPTION clauses, and the clauses, each with the place of its
word. -/
inductive Cut : List Placed → List Placed → List PlacedHints → Prop
  | nil : Cut [] [] []
  | keep {t : Placed} {rest kept : List Placed} {clauses : List PlacedHints}
      (ht : ¬ beginsClause (t :: rest)) (h : Cut rest kept clauses) :
        Cut (t :: rest) (t :: kept) clauses
  | clause {word bracket close : Placed} {body rest kept : List Placed} {hints : Hints}
      {clauses : List PlacedHints} (hbegins : beginsClause [word, bracket])
      (hbody : ∀ t ∈ body, t.token ≠ .symbol ")") (hclose : close.token = .symbol ")")
      (hhints : hintsOf (body.map Placed.token) = .ok hints) (h : Cut rest kept clauses) :
      Cut (word :: bracket :: (body ++ close :: rest)) kept (⟨word.location, hints⟩ :: clauses)

theorem Cut.sublist (h : Cut placed kept clauses) : kept.Sublist placed := by
  induction h with
  | nil => exact .slnil
  | keep _ _ ih => exact ih.cons_cons _
  | clause _ _ _ _ _ ih => exact (((ih.cons _).trans (List.sublist_append_right _ _)).cons _).cons _

theorem cut_extractHintsWithin (hfuel : placed.length ≤ fuel)
    (h : extractHintsWithin fuel placed = .ok (kept, clauses)) : Cut placed kept clauses := by
  fun_induction extractHintsWithin fuel placed generalizing kept clauses with
  | case1 =>
    obtain rfl := List.length_eq_zero_iff.1 (Nat.le_zero.1 hfuel)
    cases h
    exact .nil
  | case2 =>
    cases h
    exact .nil
  | case3 => cases h
  | case4 fuel word rest hbegins =>
    rename_i inner body _ hlength ih
    obtain ⟨hints, hhints, h⟩ := Result.exists_of_bind h
    obtain ⟨⟨kept, later⟩, hlater, h⟩ := Result.exists_of_bind h
    cases h
    cases rest with
    | nil => simp at hbegins
    | cons bracket rest =>
      have hsplit : body ++ inner.dropWhile (fun u => u.token ≠ .symbol ")") = inner :=
        List.takeWhile_append_dropWhile
      have hbody : ∀ t ∈ body, t.token ≠ .symbol ")" := fun t ht => by
        simpa using List.all_eq_true.1 List.all_takeWhile t ht
      cases hdrop : inner.dropWhile (fun u => u.token ≠ .symbol ")") with
      | nil =>
        rw [hdrop, List.append_nil] at hsplit
        exact absurd (congrArg List.length hsplit) hlength
      | cons close after =>
        have hclose := List.head?_dropWhile_not (fun u => decide (u.token ≠ Token.symbol ")")) inner
        rw [hdrop] at hclose hsplit
        have hrest : inner.drop (body.length + 1) = after := by
          rw [← hsplit]
          simp
        rw [hrest] at ih hlater
        have hlength : inner.length + 2 ≤ fuel + 1 := hfuel
        have hafter : after.length ≤ fuel := by
          rw [← hsplit, List.length_append, List.length_cons] at hlength
          omega
        change Cut (word :: bracket :: inner) _ _
        rw [← hsplit]
        exact .clause hbegins hbody (by simpa using hclose) hhints (ih hafter hlater)
  | case5 fuel t rest hbegins ih =>
    obtain ⟨⟨kept, later⟩, hlater, h⟩ := Result.exists_of_bind h
    cases h
    exact .keep hbegins (ih (Nat.le_of_succ_le_succ hfuel) hlater)

mutual

def Command.bare : Command → Command
  | .mk node location _ => .mk node.bare location {}

def CommandNode.bare : CommandNode → CommandNode
  | .ifElse condition yes none => .ifElse condition yes.bare none
  | .ifElse condition yes (some no) => .ifElse condition yes.bare (some no.bare)
  | .whileLoop condition body => .whileLoop condition body.bare
  | .block body => .block (bareAll body)
  | .tryCatch body handler => .tryCatch (bareAll body) (bareAll handler)
  | node => node

def bareAll : List Command → List Command
  | [] => []
  | command :: rest => command.bare :: bareAll rest

end

namespace Reader

variable {α β : Type} {x : Reader α}

@[ext]
theorem ext {y : Reader α} (h : ∀ s, x.run s = y.run s) : x = y := by
  cases x
  cases y
  congr
  exact funext h

instance : LawfulMonad Reader :=
  .mk' Reader
    (fun x => by
      ext s
      change (Reader.bind x (Reader.pure ∘ id)).run s = _
      unfold Reader.bind
      dsimp only
      cases x.run s <;> rfl)
    (fun _ _ => rfl)
    (fun x f g => by
      ext s
      change (Reader.bind (Reader.bind x f) g).run s =
        (Reader.bind x fun a => Reader.bind (f a) g).run s
      unfold Reader.bind
      dsimp only
      cases x.run s <;> rfl)

theorem read_map {s s' : List Placed} {a : α} (f : α → β) (h : x.run s = .ok (a, s')) :
    (f <$> x).read s = .ok (f a) := by
  change Except.bind ((Reader.bind x (Reader.pure ∘ f)).run s) _ = _
  unfold Reader.bind
  dsimp only
  rw [h]
  rfl

section

variable (all : List PlacedHints)

theorem bare_sqlCommand : Command.bare <$> sqlCommand all = sqlCommand [] := by
  simp only [sqlCommand, map_bind, map_pure, Command.bare, CommandNode.bare]
  rfl

mutual

theorem bare_commandWithin : ∀ fuel, Command.bare <$> commandWithin all fuel = commandWithin [] fuel
  | 0 => by
    rw [commandWithin, commandWithin]
    rfl
  | fuel + 1 => by
    have ih := bare_commandWithin fuel
    have ihs (first second : String) := bare_commandsWithin first second fuel
    rw [commandWithin, commandWithin, map_bind]
    refine bind_congr fun at_ => ?_
    simp only [map_bind]
    refine bind_congr fun word => bind_congr fun t => ?_
    split
    · simp [CommandNode.bare, Command.bare]
    split
    case h_2 =>
      refine (map_bind ..).trans (bind_congr fun isVariable => ?_)
      split <;> simp [bare_sqlCommand, Command.bare, CommandNode.bare]
    case h_3 =>
      simp only [map_bind, ← ih, bind_map_left]
      refine bind_congr fun _ => bind_congr fun _ => bind_congr fun yes => bind_congr fun _ =>
        bind_congr fun _ => ?_
      split <;> simp [Command.bare, CommandNode.bare]
    case h_7 =>
      refine (map_bind ..).trans (bind_congr fun second => ?_)
      split <;> first | rfl | simp [← ihs, Command.bare, CommandNode.bare]
    all_goals simp [← ih, bare_sqlCommand, Command.bare, CommandNode.bare]

theorem bare_commandsWithin (first second : String) :
    ∀ fuel, bareAll <$> commandsWithin all first second fuel = commandsWithin [] first second fuel
  | 0 => by
    rw [commandsWithin, commandsWithin]
    rfl
  | fuel + 1 => by
    rw [commandsWithin, commandsWithin, ← bare_commandWithin fuel, ← bare_commandsWithin
      first second fuel]
    simp only [map_bind, bind_map_left]
    refine bind_congr fun _ => bind_congr fun _ => ?_
    split
    · rfl
    refine (map_bind ..).trans (bind_congr fun _ => (map_bind ..).trans (bind_congr fun _ => ?_))
    split
    · rfl
    · simp [bareAll]

end

end

end Reader

mutual

/-- A command and all commands inside it, as they are written. -/
def Command.nested : Command → List Command
  | .mk node location hints => .mk node location hints :: node.nested

def CommandNode.nested : CommandNode → List Command
  | .ifElse _ yes none => yes.nested
  | .ifElse _ yes (some no) => yes.nested ++ no.nested
  | .whileLoop _ body => body.nested
  | .block body => allNested body
  | .tryCatch body handler => allNested body ++ allNested handler
  | _ => []

def allNested : List Command → List Command
  | [] => []
  | command :: rest => command.nested ++ allNested rest

end

theorem allNested_append (commands commands' : List Command) :
    allNested (commands ++ commands') = allNested commands ++ allNested commands' := by
  induction commands with
  | nil => rfl
  | cons command rest ih => rw [List.cons_append, allNested, allNested, ih, List.append_assoc]

theorem CommandNode.nested_eq (node : CommandNode) : node.nested = allNested node.inner := by
  cases node with
  | ifElse _ _ no => cases no <;> simp [nested, inner, allNested]
  | _ => simp [nested, inner, allNested, allNested_append]

def Command.isSql : Command → Bool
  | .mk (.sql _) _ _ => true
  | _ => false

namespace Reader

/-- A clause stands at the first token of a statement or later, and before the first token after
it. -/
def Run.covers (r : Run) (clause : PlacedHints) : Bool :=
  r.before.head?.any (fun t => !clause.location.before t.location) &&
    r.after.head?.all fun t => clause.location.before t.location

def Run.hints (r : Run) (clauses : List PlacedHints) : Hints :=
  (clauses.filter r.covers).foldl (fun hints clause => hints.merge clause.hints) {}

def Run.command (clauses : List PlacedHints) (r : Run) : Command :=
  .mk (.sql r.statement) ((startOf r.before).getD ⟨0, 0⟩) (r.hints clauses)

theorem Run.hintsBetween_eq (r : Run) (clauses : List PlacedHints) :
    hintsBetween clauses (startOf r.before) (startOf r.after) = r.hints clauses := by
  unfold hintsBetween Run.hints Run.covers startOf
  cases r.before.head? <;> cases r.after.head? <;> rfl

/-- The statements among some commands one after the other, each with its clauses, and no hints for
anything else. -/
structure Spread (clauses : List PlacedHints) (s : List Placed) (commands : List Command)
    (s' : List Placed) (runs : List Run) : Prop where
  statements : (allNested commands).filter Command.isSql = runs.map (Run.command clauses)
  others : ∀ command ∈ allNested commands, ¬ command.isSql → command.hints = {}
  around : ∀ r ∈ runs, r.before <:+ s ∧ s' <:+ r.after
  ordered : runs.Pairwise fun r r' => r'.before <:+ r.after

variable {clauses : List PlacedHints} {s s' : List Placed} {commands : List Command}

theorem Reads.suffix (h : Reads clauses s commands s') : s' <:+ s := by
  induction h with
  | skip h => exact h
  | append _ _ ih ih' => exact ih'.trans ih
  | sql r => exact grammar.statement.suffix r.reads
  | control _ _ ih => exact ih

theorem Reads.exists_spread (h : Reads clauses s commands s') :
    ∃ runs, Spread clauses s commands s' runs := by
  induction h with
  | skip => exact ⟨[], rfl, by simp [allNested], by simp, .nil⟩
  | append h h' ih ih' =>
    obtain ⟨runs, hruns⟩ := ih
    obtain ⟨runs', hruns'⟩ := ih'
    refine ⟨runs ++ runs', ?_, ?_, ?_, ?_⟩
    · rw [allNested_append, List.filter_append, hruns.statements, hruns'.statements,
        List.map_append]
    · rw [allNested_append]
      exact List.forall_mem_append.2 ⟨hruns.others, hruns'.others⟩
    · refine List.forall_mem_append.2 ⟨fun r hr => ?_, fun r hr => ?_⟩
      · exact ⟨(hruns.around r hr).1, h'.suffix.trans (hruns.around r hr).2⟩
      · exact ⟨(hruns'.around r hr).1.trans h.suffix, (hruns'.around r hr).2⟩
    · refine List.pairwise_append.2 ⟨hruns.ordered, hruns'.ordered, fun r hr r' hr' => ?_⟩
      exact (hruns'.around r' hr').1.trans (hruns.around r hr).2
  | sql r =>
    refine ⟨[r], ?_, ?_, ?_, List.pairwise_singleton _ r⟩
    · rw [r.hintsBetween_eq]
      rfl
    · simp [allNested, Command.nested, CommandNode.nested, Command.isSql]
    · simp
  | @control _ _ node location hnode _ ih =>
    have hnested : allNested [.mk node location {}] = .mk node location {} ::
        allNested node.inner := by
      rw [allNested, Command.nested, node.nested_eq, allNested, List.append_nil]
    have hsql : (Command.mk node location {}).isSql = false := by
      cases node <;> first | rfl | cases hnode
    obtain ⟨runs, hruns⟩ := ih
    refine ⟨runs, ?_, ?_, hruns.around, hruns.ordered⟩
    · rw [hnested, List.filter_cons_of_neg (by simpa using hsql), hruns.statements]
    · rw [hnested]
      exact List.forall_mem_cons.2 ⟨fun _ => rfl, hruns.others⟩

/-- A later statement gets none of the clauses of an earlier one. -/
theorem Run.not_covers {r r' : Run}
    (hordered : s.Pairwise fun a b => ¬ b.location.before a.location)
    (hr : r.after <:+ s) (hr' : r'.before <:+ r.after) {clause : PlacedHints}
    (h : r.covers clause) : ¬ r'.covers clause := by
  intro h'
  simp only [covers, Bool.and_eq_true, Option.any_eq_true] at h h'
  obtain ⟨⟨first, hfirst, hclause⟩, -⟩ := h'
  cases hafter : r.after with
  | nil => simp_all
  | cons next rest =>
    have hbefore : clause.location.before next.location := by simpa [hafter] using h.2
    have hmem : first ∈ next :: rest := hafter ▸ hr'.subset (List.mem_of_head? hfirst)
    have hle : ¬ first.location.before next.location := by
      rcases List.mem_cons.1 hmem with rfl | hmem
      · simp [Location.before]
      · exact List.rel_of_pairwise_cons (hordered.sublist (hafter ▸ hr.sublist)) hmem
    simp only [Location.before, Bool.or_eq_true, Bool.and_eq_true, decide_eq_true_eq, beq_iff_eq,
      Bool.not_eq_true'] at *
    grind

end Reader

/-- OPTION clauses reach their own statement only. What is read is what the other tokens give
without any hints. The statements in it, however deep, come one after the other; each has the hints
of the clauses from its first token on to the first token after it, in the order of the text, and no
clause is given to two of them. -/
theorem parseBatch_attaches_clauses {text : String} {commands : List Command}
    (h : parseBatch text = .ok commands) :
    ∃ placed kept clauses rest runs, tokens text = .ok placed ∧ Cut placed kept clauses ∧
      (Reader.commandsWithin [] "" "" (2 * kept.length + 2)).read kept = .ok (bareAll commands) ∧
      Reader.Spread clauses kept commands rest runs ∧
      runs.Pairwise fun r r' => ∀ clause ∈ clauses, ¬ (r.covers clause ∧ r'.covers clause) := by
  obtain ⟨placed, kept, clauses, rest, hplaced, hkept, hread⟩ := exists_of_parseBatch h
  have hcut : Cut placed kept clauses := cut_extractHintsWithin Nat.le.refl hkept
  have hordered : kept.Pairwise fun a b => ¬ b.location.before a.location :=
    (Lexer.ordered_run hplaced).2.sublist hcut.sublist
  obtain ⟨runs, hruns⟩ := (Reader.gives_commandsWithin "" "" _ _ _ _ hread).exists_spread
  refine ⟨placed, kept, clauses, rest, runs, hplaced, hcut, ?_, hruns, ?_⟩
  · rw [← Reader.bare_commandsWithin clauses]
    exact Reader.read_map bareAll hread
  · refine hruns.ordered.imp_of_mem fun {r r'} hr _ hbefore clause _ hcovers => ?_
    have hafter : r.after <:+ kept := (grammar.statement.suffix r.reads).trans (hruns.around r hr).1
    exact Reader.Run.not_covers hordered hafter hbefore hcovers.1 hcovers.2

def hintedBatch : String :=
  "IF 1 = 1 BEGIN SELECT 1 OPTION (NO_PERFORMANCE_SPOOL); PRINT 'a' END SELECT 2"

theorem hintedBatch_hints : (parseBatch hintedBatch).toOption.any fun commands =>
    (allNested commands).map Command.hints = [{}, {}, { noPerformanceSpool := true }, {}, {}] := by
  decide +kernel

theorem hintedBatch_attached : ∃ commands, parseBatch hintedBatch = .ok commands ∧
    (allNested commands).map Command.hints = [{}, {}, { noPerformanceSpool := true }, {}, {}] ∧
    ∃ placed kept clauses rest runs, tokens hintedBatch = .ok placed ∧ Cut placed kept clauses ∧
      (Reader.commandsWithin [] "" "" (2 * kept.length + 2)).read kept = .ok (bareAll commands) ∧
      Reader.Spread clauses kept commands rest runs ∧
      runs.Pairwise fun r r' => ∀ clause ∈ clauses, ¬ (r.covers clause ∧ r'.covers clause) := by
  obtain ⟨commands, hcommands, hhints⟩ := exists_ok_of_any hintedBatch_hints
  refine ⟨commands, hcommands, ?_, parseBatch_attaches_clauses hcommands⟩
  exact of_decide_eq_true hhints

end BatchPlan.Sql
