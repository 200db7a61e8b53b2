import BatchPlan.Sql.Grammar.Batch

namespace BatchPlan.Sql

/-- The commands right inside another one, as they are written. -/
def CommandNode.inner : CommandNode → List Command
  | .block body => body
  | .ifElse _ yes no => yes :: no.toList
  | .whileLoop _ body => [body]
  | .tryCatch body handler => body ++ handler
  | _ => []

/-- A command that is no statement of its own; if it is a label, then one without quotes. -/
def CommandNode.isControl : CommandNode → Bool
  | .sql _ => false
  | .label name => isBareSpelling name
  | _ => true

namespace Reader

/-- A statement as it is read. -/
structure Run where
  before : List Placed
  statement : Statement
  after : List Placed
  reads : grammar.statement.run before = .ok (statement, after)

def front (s : List Placed) : Token :=
  (s[0]?.map Placed.token).getD .eof

/-- The place of the first token. -/
def startOf (s : List Placed) : Option Location :=
  s.head?.map Placed.location

/-- Commands with the tokens before and after them. -/
inductive Reads (all : List PlacedHints) : List Placed → List Command → List Placed → Prop
  | skip {s s' : List Placed} (h : s' <:+ s) : Reads all s [] s'
  | append {s s' s'' : List Placed} {commands commands' : List Command}
    (h : Reads all s commands s')
      (h' : Reads all s' commands' s'') : Reads all s (commands ++ commands') s''
  | sql (r : Run) : Reads all r.before
      [.mk (.sql r.statement) ((startOf r.before).getD ⟨0, 0⟩)
        (hintsBetween all (startOf r.before) (startOf r.after))] r.after
  | control {s s' : List Placed} {node : CommandNode} {location : Location} (hnode : node.isControl)
      (h : Reads all s node.inner s') : Reads all s [.mk node location {}] s'

variable {α β : Type} {s t : List Placed} {all : List PlacedHints} {commands : List Command}
  {P : α → List Placed → Prop} {Q : β → List Placed → Prop} {x : Reader α} {f : α → Reader β}

/-- What a reader gives and leaves of some tokens. -/
def Gives (x : Reader α) (s : List Placed) (P : α → List Placed → Prop) : Prop :=
  ∀ a s', x.run s = .ok (a, s') → P a s'

namespace Gives

theorem pure {P : α → List Placed → Prop} {a : α} (h : P a s) : Gives (pure a) s P := by
  intro a' s' hs
  cases hs
  exact h

theorem throw {P : α → List Placed → Prop} {e : PlanError} : Gives (throw e : Reader α) s P := by
  intro a s' hs
  cases hs

theorem bind (hx : Gives x s P) (hf : ∀ a s', P a s' → Gives (f a) s' Q) : Gives (x >>= f) s Q := by
  intro b s'' h
  change Reader.run (Reader.bind x f) s = _ at h
  unfold Reader.bind at h
  dsimp only at h
  split at h
  next a s' hr => exact hf a s' (hx a s' hr) b s'' h
  next => cases h

theorem ite {p : Prop} [Decidable p] {y : Reader α} (hx : p → Gives x s P)
    (hy : ¬ p → Gives y s P) : Gives (if p then x else y) s P := by
  split
  · exact hx ‹_›
  · exact hy ‹_›

theorem peek {a : α} (hx : x.run s = .ok (a, s)) (hf : Gives (f a) s Q) : Gives (x >>= f) s Q := by
  refine bind (P := fun a' s' => a' = a ∧ s' = s) (fun _ _ h => ?_) ?_
  · rw [hx] at h
    cases h
    exact ⟨rfl, rfl⟩
  · rintro _ _ ⟨rfl, rfl⟩
    exact hf

/-- Tokens between commands and around them do not matter. -/
theorem after (h : Reads all t commands s)
    (hf : ∀ a s', Reads all t commands s' → Gives (f a) s' Q) : Gives (x >>= f) s Q := by
  refine bind (fun a s' hx => ?_) hf
  have hskip := h.append (.skip (x.suffix hx))
  rwa [List.append_nil] at hskip

theorem reads {part : α → List Command} (hx : Gives x s fun a s' => Reads all s (part a) s')
    (h : Reads all t commands s) (hf : ∀ a s', Reads all t (commands ++ part a) s' →
      Gives (f a) s' Q) :
    Gives (x >>= f) s Q :=
  bind (fun a s' ha => h.append (hx a s' ha)) hf

end Gives

theorem isSpelled_front (s : List Placed) : (front s).isSpelled := by
  unfold front
  cases s[0]? with
  | none => rfl
  | some t => exact t.spelled

theorem gives_bareWord : Gives (bareWord 0) s fun word s' =>
    s' = s ∧ (word.isSome → ∃ value, front s = .word value none) := by
  refine .peek (a := front s) rfl ?_
  cases front s with
  | word value quote =>
    cases quote with
    | none => exact .pure ⟨rfl, fun _ => ⟨value, rfl⟩⟩
    | some quote => exact .pure ⟨rfl, by simp⟩
  | _ => exact .pure ⟨rfl, by simp⟩

theorem gives_nameOf {what value : String} (h : front s = .word value none) :
    Gives (nameOf what) s fun name _ => isBareSpelling name := by
  refine .bind (P := fun t _ => t = front s) (fun _ _ hs => by cases hs; rfl) ?_
  rintro t s' rfl
  have hspelled := isSpelled_front s
  rw [h] at hspelled ⊢
  exact .pure hspelled

theorem gives_sqlCommand : Gives (sqlCommand all) s fun command s' => Reads all s [command] s' := by
  refine .peek rfl (.peek rfl (.bind (fun _ _ h => h) fun statement s' h => ?_))
  exact .peek rfl (.pure (.sql ⟨s, statement, s', h⟩))

mutual

theorem gives_commandWithin : ∀ (fuel : Nat) (s : List Placed),
    Gives (commandWithin all fuel) s fun command s' => Reads all s [command] s'
  | 0, _ => by
    rw [commandWithin]
    exact .throw
  | fuel + 1, s => by
    have ih (s : List Placed) := gives_commandWithin fuel s
    have ihs (first second : String) (s : List Placed) := gives_commandsWithin first second fuel s
    have h : Reads all s [] s := .skip List.suffix_rfl
    rw [commandWithin]
    refine .peek rfl (gives_bareWord.bind ?_)
    rintro word s ⟨rfl, hword⟩
    refine .peek rfl (.ite (fun hlabel => ?_) fun _ => ?_)
    · rw [Bool.and_eq_true] at hlabel
      obtain ⟨value, hvalue⟩ := hword hlabel.1
      refine .bind (fun name s' hs => And.intro (gives_nameOf hvalue name s' hs)
        ((nameOf "label").suffix hs)) fun name _ hname => ?_
      exact .after (.skip hname.2) fun _ _ h => .pure (.control hname.1 h)
    split
    · exact .after h fun _ _ h => .after h fun _ _ h => .pure (.control rfl h)
    · refine .after h fun _ _ h => .ite (fun _ => ?_) fun _ _ _ hs =>
        h.append (gives_sqlCommand _ _ hs)
      exact .after h fun _ _ h => .after h fun _ _ h => .after h fun _ _ h => .after h fun _ _ h =>
        .pure (.control rfl h)
    · refine .after h fun _ _ h => .after h fun condition _ h => (ih _).reads h fun yes _ h =>
        .after h fun _ _ h => .after h fun _ _ h =>
          .ite (fun _ => ?_) fun _ => .pure (.control rfl h)
      exact .after h fun _ _ h => (ih _).reads h fun no _ h => .pure (.control rfl h)
    · exact .after h fun _ _ h => .after h fun _ _ h =>
        (ih _).reads h fun _ _ h => .pure (.control rfl h)
    · exact .after h fun _ _ h => .pure (.control rfl h)
    · exact .after h fun _ _ h => .pure (.control rfl h)
    · refine .after h fun _ _ h => ?_
      split
      · exact .after h fun _ _ h => (ihs _ _ _).reads h fun body _ h => .after h fun _ _ h =>
          .after h fun _ _ h => .after h fun _ _ h => .after h fun _ _ h => .after h fun _ _ h =>
          (ihs _ _ _).reads h fun handler _ h => .after h fun _ _ h => .after h fun _ _ h =>
          .pure (.control rfl h)
      · exact .throw
      · exact .throw
      · exact .throw
      · exact .after h fun _ _ h => (ihs _ _ _).reads h fun _ _ h => .after h fun _ _ h =>
          .pure (.control rfl h)
    · exact .after h fun _ _ h => .after h fun _ _ h => .pure (.control rfl h)
    · exact .after h fun _ _ h => .after h fun _ _ h => .pure (.control rfl h)
    · exact .after h fun _ _ h => .after h fun _ _ h => .pure (.control rfl h)
    · exact .after h fun _ _ h => .pure (.control rfl h)
    · exact gives_sqlCommand

theorem gives_commandsWithin (first second : String) : ∀ (fuel : Nat) (s : List Placed),
    Gives (commandsWithin all first second fuel) s fun commands s' => Reads all s commands s'
  | 0, _ => by
    rw [commandsWithin]
    exact .pure (.skip List.suffix_rfl)
  | fuel + 1, s => by
    have h : Reads all s [] s := .skip List.suffix_rfl
    rw [commandsWithin]
    refine .after h fun _ _ h => .after h fun _ _ h => .ite (fun _ => .pure h) fun _ =>
      .after h fun _ _ h => .after h fun _ _ h => .ite (fun _ => .pure h) fun _ => ?_
    exact (gives_commandWithin fuel _).reads h fun command _ h =>
      (gives_commandsWithin first second fuel _).reads h fun commands _ h => .pure h

end

end Reader

theorem exists_of_parseBatch {text : String} {commands : List Command}
    (h : parseBatch text = .ok commands) :
    ∃ placed kept clauses rest, tokens text = .ok placed ∧
    extractHints placed = .ok (kept, clauses) ∧
      (Reader.commandsWithin clauses "" "" (2 * kept.length + 2)).run kept =
        .ok (commands, rest) := by
  unfold parseBatch at h
  obtain ⟨placed, hplaced, h⟩ := Result.exists_of_bind h
  obtain ⟨⟨kept, clauses⟩, hkept, h⟩ := Result.exists_of_bind h
  obtain ⟨⟨commands', rest⟩, hread, h⟩ := Result.exists_of_bind h
  cases h
  exact ⟨placed, kept, clauses, rest, Result.of_mapError hplaced, hkept, hread⟩

end BatchPlan.Sql
