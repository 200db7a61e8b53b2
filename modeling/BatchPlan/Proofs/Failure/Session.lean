import BatchPlan.Proofs.Binding.Tame

namespace BatchPlan

open BindM

variable {name : String}

namespace Session

def dropAll (s : Session) (objects : List Sql.ObjectName) : Session :=
  objects.foldl (fun s o => s.drop o.base) s

/-- DROP TABLE stops at a name that is not one of a temporary table, or of which there is no
table. -/
def StopsAt (s : Session) (ifExists : Bool) (object : Sql.ObjectName) : Prop :=
  Sql.isTemporaryName object.base = false ∨ ifExists = false ∧ s.find? object.base = none

theorem drop_of_find? {s : Session} {t : TempTable} (h : s.find? name = some t) :
    s.drop t.name = s.drop name := by
  have hkey : key t.name = key name := by simpa using List.find?_some h
  rw [drop, hkey, drop]

theorem drop_of_find?_eq_none {s : Session} (h : s.find? name = none) : s.drop name = s := by
  have hall : s.tables.filter (fun t => key t.name != key name) = s.tables :=
    List.filter_eq_self.2 fun t ht => by simpa using List.find?_eq_none.1 h t ht
  rw [drop, hall]

end Session

variable {c : BindContext} {s s' : BindState} {e : PlanError}

/-- A table is created at the very end. -/
theorem eq_of_start_createTable {create : Sql.CreateTable}
    (h : (createTable create).start c s = (.error e, s')) : s' = s := by
  unfold createTable at h
  dsimp only at h
  split at h
  · cases h
    rfl
  · split at h
    · cases h
      rfl
    · rw [start_get_bind] at h
      split at h
      · cases h
        rfl
      · cases hcolumns : tableColumns [] create.columns with
        | error fault =>
          rw [hcolumns] at h
          cases h
          rfl
        | ok columns =>
          rw [hcolumns] at h
          cases h

/-- Tables are removed one after the other, up to the name at which the statement stops. -/
theorem session_of_start_dropTables {ifExists : Bool} {names : List Sql.ObjectName}
    (h : (dropTables ifExists names).start c s = (.error e, s')) :
    ∃ removed object rest, names = removed ++ object :: rest ∧
    s'.session = s.session.dropAll removed ∧ s'.session.StopsAt ifExists object := by
  induction names generalizing s with
  | nil => cases h
  | cons object rest ih =>
    have hlater {s₁ : BindState} (hsession : s₁.session = s.session.drop object.base)
        (h : (dropTables ifExists rest).start c s₁ = (.error e, s')) :
        ∃ removed last after, object :: rest = removed ++ last :: after ∧
          s'.session = s.session.dropAll removed ∧ s'.session.StopsAt ifExists last := by
      obtain ⟨removed, last, after, rfl, hs', hstops⟩ := ih h
      rw [hsession] at hs'
      exact ⟨object :: removed, last, after, rfl, hs', hstops⟩
    unfold dropTables at h
    dsimp only at h
    split at h
    next hname =>
      cases h
      exact ⟨[], object, rest, rfl, rfl, .inl (by simpa using hname)⟩
    · rw [start_get_bind] at h
      split at h
      next table hfind =>
        change (dropTables ifExists rest >>= _).start c _ = _ at h
        obtain ⟨_, hrest, ⟨⟩⟩ | ⟨_, _, -, h⟩ := cases_of_start_bind h
        · exact hlater (Session.drop_of_find? hfind) hrest
        · cases h
      next hfind =>
        split at h
        · exact hlater (Session.drop_of_find?_eq_none hfind).symm h
        next hexists =>
          cases h
          exact ⟨[], object, rest, rfl, rfl, .inr ⟨by simpa using hexists, hfind⟩⟩

/-- A statement that fails leaves the session as it was, or it is a DROP TABLE that has removed the
tables named before the one at which it stops. -/
theorem QueryBinder.failing_statement_session (depth : Nat) (hints : Hints)
    (statement : Sql.Statement) (c : BindContext) (s s' : BindState) (e : PlanError)
    (h : ((ofDepth depth).statement hints statement).start c s = (.error e, s')) :
    s'.session = s.session ∨ ∃ d removed object rest, statement = .drop d ∧ d.kind = "TABLE" ∧
      d.names = removed ++ object :: rest ∧ s'.session = s.session.dropAll removed ∧
      s'.session.StopsAt d.ifExists object := by
  have hdraft (draft : BindM Draft) (hstatement : (ofDepth depth).draft? statement = some draft) :
      s'.session = s.session :=
    ((tame_statement (isTame_ofDepth depth) hints hstatement).of_start c s _ s' h).1.session
  cases statement with
  | query | insert | update | delete => exact .inl (hdraft _ rfl)
  | createTable create =>
    refine .inl ?_
    change (createTable create >>= _).start c s = _ at h
    rw [start_bind] at h
    split at h
    · cases h
    next hcreate =>
      cases h
      rw [eq_of_start_createTable hcreate]
  | drop d =>
    change (if d.kind = "TABLE" then dropTables d.ifExists d.names else throw _).start c s = _ at h
    split at h
    next hkind =>
      obtain ⟨removed, object, rest, hnames, hs', hstops⟩ := session_of_start_dropTables h
      exact .inr ⟨d, removed, object, rest, rfl, hkind, hnames, hs', hstops⟩
    · cases h
      exact .inl rfl
  | other headline =>
    cases h
    exact .inl rfl

def dropsTwo : Sql.Statement :=
  .drop ⟨"TABLE", false, [⟨[⟨"#a", none⟩]⟩, ⟨[⟨"#b", none⟩]⟩]⟩

def onlyFirst : BindState :=
  { session := ⟨[⟨"#a", []⟩]⟩ }

/-- The second table does not exist, and the first one is gone. -/
theorem QueryBinder.dropsTwo_removes_first :
    (((ofDepth 1).statement {} dropsTwo).start { catalog := {}, options := {} }
      onlyFirst).1.toOption.isNone ∧
      (((ofDepth 1).statement {} dropsTwo).start { catalog := {}, options := {} }
        onlyFirst).2.session ≠ onlyFirst.session := by
  decide +kernel

theorem QueryBinder.dropsTwo_stops :
    ∃ e s', ((ofDepth 1).statement {} dropsTwo).start { catalog := {}, options := {} } onlyFirst =
        (.error e, s') ∧
      (s'.session = onlyFirst.session ∨ ∃ d removed object rest, dropsTwo = .drop d ∧
        d.kind = "TABLE" ∧
        d.names = removed ++ object :: rest ∧ s'.session = onlyFirst.session.dropAll removed ∧
        s'.session.StopsAt d.ifExists object) := by
  have hfails : (((ofDepth 1).statement {} dropsTwo).start { catalog := {}, options := {} }
      onlyFirst).1.toOption.isNone := by decide +kernel
  rcases h : ((ofDepth 1).statement {} dropsTwo).start { catalog := {}, options := {} }
    onlyFirst with
    ⟨e | nodes, s'⟩
  · exact ⟨e, s', rfl, failing_statement_session 1 {} dropsTwo _ _ s' e h⟩
  · rw [h] at hfails
    cases hfails

end BatchPlan
