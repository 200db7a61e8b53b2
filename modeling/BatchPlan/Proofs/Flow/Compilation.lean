import BatchPlan.Proofs.Flow.Assembly

namespace BatchPlan.Flow

theorem Layout.matches_start {n n' : Nat} {script : List Script} {roots : List Root}
    (h : Layout n none script roots n') : Matches roots (Script.start script) (some 0) := by
  have hdoes : Does roots none 0 (script ++ []) roots.length :=
    h.does h.freshLabels.nodup (Linear.Holds.all roots) (by simpa using .done none roots.length)
  rw [List.append_nil] at hdoes
  exact .mk hdoes (.halt (Linear.step_end roots))

/-- A batch whose control flow is nested runs as the roots it becomes: its statements and conditions
can be bound one after the other as they stand in the text, and whatever the conditions come out as,
the flat program and the batch visit the same roots and conditions in the same order, end after the
same visits, and never get stuck. -/
theorem assembleAll_runs_as_script (depth : Nat) (context : BindContext) (state : BindState)
    (commands : List Sql.Command) (roots : List Root) (hstructured : Sql.areStructured commands)
    (hroots : ((assembleAll (.ofDepth depth) {} commands context).run { state }).2.finish =
      .ok roots) :
    ∃ script, ((Script.ofCommands (.ofDepth depth) commands).start context state).1 = .ok script ∧
      ∀ oracle, (∀ visited, Visits (Linear.step roots) oracle (some 0) visited ↔
          Visits Script.step oracle (Script.start script) visited) ∧
        (∀ visited, Halts (Linear.step roots) oracle (some 0) visited ↔
          Halts Script.step oracle (Script.start script) visited) ∧
        ¬ Sticks (Linear.step roots) oracle (some 0) ∧
        ¬ Sticks Script.step oracle (Script.start script) := by
  obtain ⟨hnone, rfl⟩ := Assembly.errors_of_finish hroots
  obtain ⟨script, hscript, -, code, hcode, hlayout⟩ :=
    (lowers_assembleAll (QueryBinder.isTame_ofDepth depth) {} commands hstructured).lays context
      { state } hnone
  refine ⟨script, by rw [hscript], fun oracle => ?_⟩
  rw [List.nil_append] at hcode
  have hstart : Matches code (Script.start script) (some 0) := hlayout.matches_start
  rw [← hcode] at hstart
  have halike := matches_alike
    ((assembleAll (.ofDepth depth) {} commands).after context { state }).roots
  exact ⟨fun _ => (halike.visits_iff oracle hstart _).symm,
    fun _ => (halike.halts_iff oracle hstart _).symm,
    halike.symm.not_sticks oracle hstart, halike.not_sticks oracle hstart⟩

/-- A loop that is gone through again by one branch and left by the other. -/
def leavingLoop : List Sql.Command :=
  let command (node : Sql.CommandNode) : Sql.Command := .mk node ⟨1, 1⟩ {}
  let holds (answer : Bool) : Sql.Expr := .literal (.boolean answer)
  let body := [.ifElse (holds false) (command .continueLoop) (some (command .breakLoop)),
    .print (.literal .null)]
  [command (.whileLoop (holds true) (command (.block (body.map command)))), command .exit]

theorem leavingLoop_runs_as_script :
    Sql.areStructured leavingLoop ∧ ∃ roots,
      ((assembleAll (.ofDepth 1) {} leavingLoop { catalog := {}, options := {} }).run
        { state := { session := .empty } }).2.finish = .ok roots ∧
      ∃ script, ((Script.ofCommands (.ofDepth 1) leavingLoop).start
          { catalog := {}, options := {} } { session := .empty }).1 = .ok script ∧
        ∀ oracle, (∀ visited, Visits (Linear.step roots) oracle (some 0) visited ↔
            Visits Script.step oracle (Script.start script) visited) ∧
          (∀ visited, Halts (Linear.step roots) oracle (some 0) visited ↔
            Halts Script.step oracle (Script.start script) visited) ∧
          ¬ Sticks (Linear.step roots) oracle (some 0) ∧
          ¬ Sticks Script.step oracle (Script.start script) := by
  refine ⟨by decide, ?_⟩
  have haccepted : ((assembleAll (.ofDepth 1) {} leavingLoop { catalog := {}, options := {} }).run
      { state := { session := .empty } }).2.finish.toOption.any fun _ => true := by decide +kernel
  obtain ⟨roots, hroots, -⟩ := exists_ok_of_any haccepted
  exact ⟨roots, hroots, assembleAll_runs_as_script 1 _ _ leavingLoop roots (by decide) hroots⟩

end BatchPlan.Flow
