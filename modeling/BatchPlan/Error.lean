namespace BatchPlan

inductive ErrorCategory where
  | parse
  | unsupported
  | semantic
  | catalog
  | structural
  | internal
deriving DecidableEq, Repr, Inhabited

inductive PlanError where
  | parse (detail : String)
  | notSupported (fragment : String) (suggestion : Option String)
  | ambiguousColumn (name : String)
  | columnNotFound (name : String)
  | typeMismatch (detail : String)
  | undeclaredVariable (name : String)
  | duplicate (kind name : String)
  | semantic (detail : String)
  | invalidObjectName (name : String) (suggestions : List String)
  | metadata (detail : String)
  | structural (detail : String)
  | internal (detail : String)
  /-- Faults of independent parts, in the order in which they were found. -/
  | multiple (errors : List PlanError)
deriving Repr, Inhabited

abbrev Result := Except PlanError

theorem Result.exists_of_bind {ε α β : Type} {r : Except ε α} {f : α → Except ε β} {b : β}
    (h : r >>= f = .ok b) : ∃ a, r = .ok a ∧ f a = .ok b := by
  cases r with
  | error e => cases h
  | ok a => exact ⟨a, rfl, h⟩

theorem Result.of_mapError {ε ε' α : Type} {r : Except ε α} {f : ε → ε'} {a : α}
    (h : r.mapError f = .ok a) : r = .ok a := by
  cases r with
  | error e => cases h
  | ok a =>
    cases h
    rfl

theorem exists_ok_of_any {ε α : Type} {x : Except ε α} {p : α → Bool} (h : x.toOption.any p) :
    ∃ a, x = .ok a ∧ p a := by
  cases x with
  | error e => cases h
  | ok a => exact ⟨a, rfl, h⟩

namespace PlanError

def refuse (fragment suggestion : String) : PlanError :=
  .notSupported fragment (some suggestion)

def unsupported (fragment : String) : PlanError :=
  .notSupported fragment none

mutual

def message : PlanError → String
  | .parse detail => "Parse error: " ++ detail
  | .notSupported fragment (some suggestion) => "Not supported: " ++ fragment ++ ". " ++ suggestion
  | .notSupported fragment none => "Not supported: " ++ fragment
  | .ambiguousColumn name => "Ambiguous column name '" ++ name ++ "'"
  | .columnNotFound name => "Invalid column name '" ++ name ++ "'"
  | .typeMismatch detail => "Type error: " ++ detail
  | .undeclaredVariable name => "Must declare the scalar variable \"" ++ name ++ "\""
  | .duplicate kind name => "Duplicate " ++ kind ++ " name '" ++ name ++ "'"
  | .semantic detail => "Semantic error: " ++ detail
  | .invalidObjectName name suggestions =>
    "Invalid object name '" ++ name ++ "'" ++
      (if suggestions.isEmpty then ""
        else ". Did you mean '" ++ "', '".intercalate suggestions ++ "'?")
  | .metadata detail => "Metadata error: " ++ detail
  | .structural detail => "Structural error: " ++ detail
  | .internal detail => "Internal error: " ++ detail
  | .multiple errors => "\n".intercalate (messages errors)

def messages : List PlanError → List String
  | [] => []
  | e :: rest => e.message :: messages rest

end

def category : PlanError → ErrorCategory
  | .parse _ => .parse
  | .notSupported .. => .unsupported
  | .ambiguousColumn _ | .columnNotFound _ | .typeMismatch _ | .undeclaredVariable _
  | .duplicate .. | .semantic _ => .semantic
  | .invalidObjectName .. | .metadata _ => .catalog
  | .structural _ => .structural
  | .internal _ => .internal
  | .multiple [] => .internal
  | .multiple (e :: _) => e.category

mutual

def flatten : PlanError → List PlanError
  | .multiple errors => flattenAll errors
  | e => [e]

def flattenAll : List PlanError → List PlanError
  | [] => []
  | e :: rest => e.flatten ++ flattenAll rest

end

mutual

theorem flatten_of_mem_flatten : ∀ {e fault : PlanError}, fault ∈ e.flatten →
    fault.flatten = [fault]
  | .multiple _, _, h => by
    rw [flatten] at h
    exact flatten_of_mem_flattenAll h
  | .parse _, _, h | .notSupported .., _, h | .ambiguousColumn _, _, h | .columnNotFound _, _, h
  | .typeMismatch _, _, h | .undeclaredVariable _, _, h | .duplicate .., _, h | .semantic _, _, h
  | .invalidObjectName .., _, h | .metadata _, _, h | .structural _, _, h | .internal _, _, h => by
    simp only [flatten, List.mem_singleton] at h
    simp [h, flatten]

theorem flatten_of_mem_flattenAll :
    ∀ {errors : List PlanError} {fault : PlanError}, fault ∈ flattenAll errors →
    fault.flatten = [fault]
  | e :: rest, _, h => by
    rw [flattenAll, List.mem_append] at h
    exact h.elim flatten_of_mem_flatten flatten_of_mem_flattenAll

end

def combine (a b : PlanError) : PlanError :=
  match a.flatten ++ b.flatten with
  | [e] => e
  | errors => .multiple errors

def ofList? : List PlanError → Option PlanError
  | [] => none
  | [e] => some e
  | errors => some (.multiple errors)

end PlanError

/-- Two independent results; every fault is kept. -/
def Result.both {α β : Type} : Result α → Result β → Result (α × β)
  | .ok a, .ok b => .ok (a, b)
  | .error e, .ok _ => .error e
  | .ok _, .error e => .error e
  | .error e, .error e' => .error (e.combine e')

/-- The faults found so far by parts that do not depend on each other. -/
structure ErrorLog where
  errors : List PlanError := []
  /-- They are kept one by one. -/
  single : ∀ e ∈ errors, e.flatten = [e] := by exact List.forall_mem_nil _
deriving Repr

instance : Inhabited ErrorLog := ⟨{}⟩

namespace ErrorLog

def isEmpty (log : ErrorLog) : Bool :=
  log.errors.isEmpty

def push (log : ErrorLog) (e : PlanError) : ErrorLog where
  errors := log.errors ++ e.flatten
  single fault h := (List.mem_append.1 h).elim (log.single fault) PlanError.flatten_of_mem_flatten

def check {α : Type} (log : ErrorLog) : Result α → ErrorLog
  | .ok _ => log
  | .error e => log.push e

def finish (log : ErrorLog) : Result Unit :=
  match PlanError.ofList? log.errors with
  | some e => .error e
  | none => .ok ()

/-- The recorded faults, when there is nothing to go on with. -/
def toError (log : ErrorLog) : PlanError :=
  (PlanError.ofList? log.errors).getD (.internal "clause failed without an error")

end ErrorLog

end BatchPlan
