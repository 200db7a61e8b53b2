import BatchPlan.Sql.Batch
import BatchPlan.Sql.Grammar.Statement

namespace BatchPlan.Sql

def Token.isBare (word : String) : Token → Bool
  | .word value none => Text.sameAscii value word
  | _ => false

structure PlacedHints where
  location : Location
  hints : Hints
deriving DecidableEq, Repr, Inhabited

def splitAtCommas : List Token → List (List Token)
  | [] => [[]]
  | t :: rest =>
    match splitAtCommas rest with
    | part :: parts => if t = .symbol "," then [] :: part :: parts else (t :: part) :: parts
    | [] => [[t]]

def addHint (hints : Hints) (part : List Token) : Result Hints :=
  let refusal : Result Hints :=
    throw (.refuse ("OPTION (" ++ " ".intercalate (part.map Token.text) ++ ")")
      "Only the MAXRECURSION and NO_PERFORMANCE_SPOOL query hints are supported")
  match part with
  | [w, .number digits _] =>
    if w.isBare "MAXRECURSION" then
      match Reader.word64? digits with
      | none => throw (.parse ("Invalid MAXRECURSION value " ++ digits))
      | some n =>
        if n > maxRecursionLimit then
          throw (.structural ("The value " ++ toString n ++
            " specified for the MAXRECURSION option exceeds the allowed maximum of " ++
            toString maxRecursionLimit))
        else return { hints with maxRecursion := some n }
    else refusal
  | [w] =>
    if w.isBare "NO_PERFORMANCE_SPOOL" then return { hints with noPerformanceSpool := true }
    else refusal
  | _ => refusal

def hintsOf (body : List Token) : Result Hints :=
  (splitAtCommas body).foldlM addHint {}

/-- Cuts the OPTION clauses out of a list of tokens. Each step takes at least one token. -/
def extractHintsWithin : Nat → List Placed → Result (List Placed × List PlacedHints)
  | 0, _ => return ([], [])
  | _ + 1, [] => return ([], [])
  | fuel + 1, t :: rest =>
    if t.token.isBare "OPTION" && (rest.head?.map Placed.token) = some (.symbol "(") then do
      let inner := rest.drop 1
      let body := inner.takeWhile fun u => u.token ≠ .symbol ")"
      if body.length = inner.length then throw (.parse "Unterminated OPTION clause")
      let hints ← hintsOf (body.map Placed.token)
      let (kept, later) ← extractHintsWithin fuel (inner.drop (body.length + 1))
      return (kept, ⟨t.location, hints⟩ :: later)
    else do
      let (kept, later) ← extractHintsWithin fuel rest
      return (t :: kept, later)

def extractHints (tokens : List Placed) : Result (List Placed × List PlacedHints) :=
  extractHintsWithin tokens.length tokens

namespace Reader

def bareWord (n : Nat) : Reader (Option String) := do
  match ← peekNth n with
  | .word value none => return some (Text.upperAscii value)
  | _ => return none

def expectWord (word : String) : Reader Unit := do
  if (← bareWord 0) = some word then
    let _ ← next
  else throw (.parse ("Expected " ++ word ++ ", found '" ++ (← peek).text ++ "'"))

def nameOf (what : String) : Reader String := do
  match ← next with
  | .word value _ => return value
  | other => throw (.parse ("Expected " ++ what ++ ", found '" ++ other.text ++ "'"))

def skipSemicolons : Reader Unit :=
  loop (fun () => do
    if ← symbol ";" then return some () else return none) ()

def declaration : Reader Declaration := do
  let name ← nameOf "variable name"
  unless name.startsWith "@" do
    throw (.parse ("Variable names must start with '@', found '" ++ name ++ "'"))
  if (← bareWord 0) = some "AS" then
    let _ ← next
  if (← bareWord 0) = some "TABLE" then
    throw (.refuse ("DECLARE " ++ name ++ " TABLE")
      "Use a temporary table (CREATE TABLE #name) instead")
  let type ← typeName
  let initial ← do
    if ← symbol "=" then pure (some (← expr grammar)) else pure none
  return ⟨name, type, initial⟩

def throwArguments? : Reader (Option ThrowArguments) := do
  let t ← peek
  if t = .symbol ";" || t = .eof || (← bareWord 0) = some "END" then return none
  let number ← expr grammar
  expectSymbol ","
  let message ← expr grammar
  expectSymbol ","
  return some ⟨number, message, ← expr grammar⟩

def variableAfter : Reader Bool := do
  match ← peekNth 1 with
  | .word value _ => return value.startsWith "@"
  | _ => return false

def position : Reader (Option Location) := do
  return (← remaining).head?.map Placed.location

def hintsBetween (all : List PlacedHints) (start stop : Option Location) : Hints :=
  let within (at_ : Location) : Bool :=
    (match start with
      | some s => !(at_.before s)
      | none => false) &&
    match stop with
      | some e => at_.before e
      | none => true
  (all.filter fun h => within h.location).foldl (fun acc h => acc.merge h.hints) {}

def sqlCommand (all : List PlacedHints) : Reader Command := do
  let at_ ← location
  let start ← position
  let statement ← grammar.statement
  return .mk (.sql statement) at_ (hintsBetween all start (← position))

mutual

/-- One command. The fuel is more than twice the number of tokens: a command takes a token before it
reads the commands inside it. -/
def commandWithin (all : List PlacedHints) : Nat → Reader Command
  | 0 => fail "recursion limit exceeded"
  | fuel + 1 => do
    let at_ ← location
    let word ← bareWord 0
    let plain (node : CommandNode) : Command := .mk node at_ {}
    if word.isSome && (← peekNth 1) = .symbol ":" then
      let name ← nameOf "label"
      let _ ← next
      return plain (.label name)
    match word with
    | some "DECLARE" =>
      let _ ← next
      return plain (.declare (← commaSeparated declaration))
    | some "SET" =>
      if ← variableAfter then
        let _ ← next
        let name ← nameOf "variable"
        expectSymbol "="
        return plain (.set name (← expr grammar))
      else sqlCommand all
    | some "IF" =>
      let _ ← next
      let condition ← expr grammar
      let yes ← commandWithin all fuel
      skipSemicolons
      if (← bareWord 0) = some "ELSE" then
        let _ ← next
        return plain (.ifElse condition yes (some (← commandWithin all fuel)))
      else return plain (.ifElse condition yes none)
    | some "WHILE" =>
      let _ ← next
      let condition ← expr grammar
      return plain (.whileLoop condition (← commandWithin all fuel))
    | some "BREAK" =>
      let _ ← next
      return plain .breakLoop
    | some "CONTINUE" =>
      let _ ← next
      return plain .continueLoop
    | some "BEGIN" =>
      match ← bareWord 1 with
      | some "TRY" =>
        skip 2
        let body ← commandsWithin all "END" "TRY" fuel
        expectWord "END"
        expectWord "TRY"
        skipSemicolons
        expectWord "BEGIN"
        expectWord "CATCH"
        let handler ← commandsWithin all "END" "CATCH" fuel
        expectWord "END"
        expectWord "CATCH"
        return plain (.tryCatch body handler)
      | some "TRAN" | some "TRANSACTION" | some "DISTRIBUTED" =>
        throw (.refuse "BEGIN TRANSACTION"
          "Each statement is sent to the backend as its own request")
      | _ =>
        let _ ← next
        let body ← commandsWithin all "END" "" fuel
        expectWord "END"
        return plain (.block body)
    | some "GOTO" =>
      let _ ← next
      return plain (.goto (← nameOf "label"))
    | some "THROW" =>
      let _ ← next
      return plain (.throw (← throwArguments?))
    | some "PRINT" =>
      let _ ← next
      return plain (.print (← expr grammar))
    | some "RETURN" =>
      let _ ← next
      return plain .exit
    | _ => sqlCommand all

/-- Commands up to the end or up to two words; an empty second word stands for any. -/
def commandsWithin (all : List PlacedHints) (first second : String) : Nat → Reader (List Command)
  | 0 => return []
  | fuel + 1 => do
    skipSemicolons
    if (← peek) = .eof then return []
    let word ← bareWord 0
    if !first.isEmpty && word = some first && (second.isEmpty || (← bareWord 1) = some second) then
      return []
    let command ← commandWithin all fuel
    return command :: (← commandsWithin all first second fuel)

end

end Reader

def parseBatch (text : String) : Result (List Command) := do
  let tokens ← (tokens text).mapError fun e => .parse e.message
  let (kept, hints) ← extractHints tokens
  (Reader.commandsWithin hints "" "" (2 * kept.length + 2)).read kept

end BatchPlan.Sql
