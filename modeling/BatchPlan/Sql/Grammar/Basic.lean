import BatchPlan.Error
import BatchPlan.Sql.Keyword
import BatchPlan.Sql.Lexer
import BatchPlan.Sql.Statement

namespace BatchPlan.Sql

structure Reader (α : Type) where
  run : List Placed → Result (α × List Placed)
  /-- What is left is the end of what was there. -/
  suffix : ∀ {s s' : List Placed} {a : α}, run s = .ok (a, s') → s' <:+ s

namespace Reader

section

variable {α β : Type}

@[always_inline, inline]
protected def pure (a : α) : Reader α where
  run s := .ok (a, s)
  suffix h := by
    cases h
    exact List.suffix_rfl

@[always_inline, inline]
protected def bind (x : Reader α) (f : α → Reader β) : Reader β where
  run s :=
    match x.run s with
    | .ok (a, s') => (f a).run s'
    | .error e => .error e
  suffix h := by
    split at h
    next hx => exact ((f _).suffix h).trans (x.suffix hx)
    next => cases h

/-- What the first reader took is forgotten if it fails. -/
@[always_inline, inline]
protected def orElse (x : Reader α) (f : PlanError → Reader α) : Reader α where
  run s :=
    match x.run s with
    | .ok r => .ok r
    | .error e => (f e).run s
  suffix h := by
    split at h
    next hx =>
      cases h
      exact x.suffix hx
    next => exact (f _).suffix h

instance : Monad Reader where
  pure := Reader.pure
  bind := Reader.bind

instance : MonadExcept PlanError Reader where
  throw e := ⟨fun _ => .error e, nofun⟩
  tryCatch := Reader.orElse

def read (x : Reader α) (tokens : List Placed) : Result α :=
  return (← x.run tokens).1

def remaining : Reader (List Placed) where
  run s := .ok (s, s)
  suffix h := by
    cases h
    exact List.suffix_rfl

def skip (n : Nat) : Reader Unit where
  run s := .ok ((), s.drop n)
  suffix h := by
    cases h
    exact List.drop_suffix n _

/-- A reader that takes nothing if it gives nothing. -/
def tentative (x : Reader (Option α)) : Reader (Option α) where
  run s :=
    match x.run s with
    | .ok (none, _) => .ok (none, s)
    | r => r
  suffix h := by
    split at h
    · cases h
      exact List.suffix_rfl
    · exact x.suffix h

/-- A reader that is made when it is needed. -/
def delayed (x : Unit → Reader α) : Reader α where
  run s := (x ()).run s
  suffix h := (x ()).suffix h

end

def fail {α : Type} (detail : String) : Reader α :=
  throw (.parse ("sql parser error: " ++ detail))

def peekNth (n : Nat) : Reader Token := do
  return (((← remaining)[n]?).map Placed.token).getD .eof

def peek : Reader Token :=
  peekNth 0

def location : Reader Location := do
  return (((← remaining).head?).map Placed.location).getD ⟨0, 0⟩

/-- Takes the next token. At the end there is always an `eof` more. -/
def next : Reader Token := do
  let t ← peek
  skip 1
  return t

def expected {α : Type} (what : String) : Reader α := do
  fail ("Expected: " ++ what ++ ", found: " ++ (← peek).text)

/-- A reader that either succeeds or takes nothing. -/
def attempt {α : Type} (r : Reader α) : Reader (Option α) :=
  tryCatch (some <$> r) fun _ => return none

def isKeyword (kw : String) : Token → Bool
  | .word v none => keywordForm v == kw
  | _ => false

def peekKeyword (kw : String) : Reader Bool := do
  return isKeyword kw (← peek)

def keyword (kw : String) : Reader Bool := do
  if ← peekKeyword kw then
    skip 1
    return true
  else return false

def keywords (kws : List String) : Reader Bool := do
  let s ← remaining
  if (s.take kws.length).length == kws.length &&
      (kws.zip s).all fun (kw, t) => isKeyword kw t.token then
    skip kws.length
    return true
  else return false

def oneOf : List String → Reader (Option String)
  | [] => return none
  | kw :: rest => do
    if ← keyword kw then return some kw else oneOf rest

def anyKeywords : List (List String) → Reader Bool
  | [] => return false
  | kws :: rest => do
    if ← keywords kws then return true else anyKeywords rest

def expectKeyword (kw : String) : Reader Unit := do
  unless ← keyword kw do expected kw

def expectKeywords : List String → Reader Unit
  | [] => return ()
  | kw :: rest => do
    expectKeyword kw
    expectKeywords rest

def symbol (s : String) : Reader Bool := do
  if (← peek) = .symbol s then
    skip 1
    return true
  else return false

def expectSymbol (s : String) : Reader Unit := do
  unless ← symbol s do expected s

/-- Takes the token that a value was made of. -/
def accept {α : Type} (a : α) : Reader α := do
  skip 1
  return a

/-- A part that stands behind some keywords, if these are there. -/
def also {α : Type} (kws : List String) (part : Reader α) : Reader Unit := do
  if ← keywords kws then
    let _ ← part

def require (choices : List String) (what : String) : Reader Unit := do
  unless (← oneOf choices).isSome do expected what

def ifExists : Reader Bool :=
  keywords ["IF", "EXISTS"]

def ifNotExists : Reader Bool :=
  keywords ["IF", "NOT", "EXISTS"]

/-- What stands behind the first keywords that are there. -/
def firstOf {α : Type} (otherwise : Reader α) : List (List String × Reader α) → Reader α
  | [] => otherwise
  | (kws, part) :: rest => do
    if ← keywords kws then part else firstOf otherwise rest

/-- One or more items divided by commas; the fuel bounds their number. -/
def commaSeparatedWithin {α : Type} (item : Reader α) : Nat → Reader (List α)
  | 0 => return [← item]
  | fuel + 1 => do
    let a ← item
    if ← symbol "," then return a :: (← commaSeparatedWithin item fuel)
    else return [a]

def commaSeparated {α : Type} (item : Reader α) : Reader (List α) := do
  commaSeparatedWithin item (← remaining).length

def parenthesized {α : Type} (item : Reader α) : Reader α := do
  expectSymbol "("
  let a ← item
  expectSymbol ")"
  return a

/-- Steps a value until a step declines; the fuel bounds the number of steps. -/
def iterate {α : Type} (step : α → Reader (Option α)) : Nat → α → Reader α
  | 0, a => return a
  | fuel + 1, a => do
    match ← step a with
    | some a' => iterate step fuel a'
    | none => return a

/-- Steps a value until a step declines. Each step that goes on takes a token. -/
def loop {α : Type} (step : α → Reader (Option α)) (start : α) : Reader α := do
  iterate step ((← remaining).length + 1) start

def identifier : Reader Ident := do
  match ← peek with
  | .word value quote => accept ⟨value, quote⟩
  | .string value => accept ⟨value, some '\''⟩
  | _ => expected "identifier"

def objectName : Reader ObjectName := do
  let first ← identifier
  let parts ← loop (fun parts => do
    if ← symbol "." then return some ((← identifier) :: parts) else return none) [first]
  return ⟨parts.reverse⟩

def columnList : Reader (List Ident) :=
  parenthesized (commaSeparated identifier)

def columnList? : Reader (List Ident) := do
  if (← peek) = .symbol "(" then columnList else return []

def literalString : Reader String := do
  match ← peek with
  | .string value => accept value
  | .word value quote =>
    if quote.isSome || !(Sql.keywords.contains (keywordForm value)) then
      let _ ← next
      return value
    else expected "literal string"
  | _ => expected "literal string"

def word64? (digits : String) : Option Nat :=
  if !digits.isEmpty && digits.all Char.isDigit then
    match digits.toNat? with
    | some n => if n < 1 <<< 64 then some n else none
    | none => none
  else none

def literalNat : Reader Nat := do
  match ← peek with
  | .number digits _ =>
    match word64? digits with
    | some n => accept n
    | none => fail ("Could not parse '" ++ digits ++ "'")
  | _ => expected "literal int"

/-- A literal value on its own. Only here a string with escapes may stand: it begins no
expression. -/
def literal : Reader Literal := do
  match ← peek with
  | .word value none =>
    let found : Option Literal :=
      match keywordForm value with
      | "TRUE" => some (.boolean true)
      | "FALSE" => some (.boolean false)
      | "NULL" => some .null
      | _ => none
    match found with
    | some l => accept l
    | none => expected "a concrete value"
  | .word value (some '"') => accept (.doubleQuoted value)
  | .number digits long => accept (.number digits long)
  | .string value => accept (.string value)
  | .national value => accept (.national value)
  | .escape value => accept (.escape value)
  | .hex digits => accept (.hex digits)
  | .placeholder text => accept (.placeholder text)
  | .dollarQuoted tag value => accept (.dollarQuoted tag value)
  | .symbol mark =>
    if mark = ":" || mark = "@" then
      let _ ← next
      match ← peek with
      | .word value _ => accept (.placeholder (mark ++ value))
      | .number digits false => accept (.placeholder (mark ++ digits))
      | _ => expected "placeholder"
    else expected "a value"
  | _ => expected "a value"

/-- The name after AS, or a bare word that is not reserved here, or a string. -/
def alias? (reserved : List String) : Reader (Option Ident) := do
  let afterAs ← keyword "AS"
  match ← peek with
  | .word value quote =>
    if afterAs || quote.isSome || !(reserved.contains (keywordForm value)) then
      let _ ← next
      return some ⟨value, quote⟩
    else return none
  | .string value => accept (some ⟨value, some '\''⟩)
  | _ => if afterAs then expected "an identifier after AS" else return none

def tableAlias? : Reader (Option TableAlias) := do
  match ← alias? reservedForTableAlias with
  | some name => return some ⟨name, ← columnList?⟩
  | none => return none

end Reader

end BatchPlan.Sql
