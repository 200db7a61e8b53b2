import BatchPlan.Sql.Lexer.Escape
import BatchPlan.Sql.Token
import BatchPlan.Text.Alphabetic

namespace BatchPlan.Sql

inductive LexError where
  | unterminatedString (at_ : Location)
  | unterminatedEscapeString (at_ : Location)
  | unclosedIdentifier (close : Char) (at_ : Location)
  | unclosedComment (at_ : Location)
  | unclosedDollars (isTagged : Bool) (at_ : Location)
deriving DecidableEq, Repr

def Location.suffix (at_ : Location) : String :=
  " at Line: " ++ toString at_.line ++ ", Column: " ++ toString at_.column

def LexError.message : LexError → String
  | .unterminatedString at_ => "Unterminated string literal" ++ at_.suffix
  | .unterminatedEscapeString at_ => "Unterminated encoded string literal" ++ at_.suffix
  | .unclosedIdentifier close at_ =>
    "Expected close delimiter '" ++ close.toString ++ "' before EOF." ++ at_.suffix
  | .unclosedComment at_ => "Unexpected EOF while in a multi-line comment" ++ at_.suffix
  | .unclosedDollars isTagged at_ =>
    (if isTagged then "Unterminated dollar-quoted, expected $"
      else "Unterminated dollar-quoted string") ++ at_.suffix

namespace Lexer

def isWordStart (c : Char) : Bool :=
  Text.isAlphabetic c || c == '_' || c == '#' || c == '@'

def isWordPart (c : Char) : Bool :=
  Text.isAlphabetic c || c.isDigit || c == '@' || c == '$' || c == '#' || c == '_'

/-- The text up to a closing quote and what follows it; a doubled quote stands for one. -/
def quoted (close : Char) : List Char → Option (List Char × List Char)
  | [] => none
  | c :: rest =>
    if c = close then
      match rest with
      | d :: rest' =>
        if d = close then (quoted close rest').map fun (s, r) => (c :: s, r)
        else some ([], rest)
      | [] => some ([], [])
    else (quoted close rest).map fun (s, r) => (c :: s, r)

/-- What follows a comment that is open `depth + 1` times; `last` is the character before. -/
def skipComment (depth : Nat) (last : Char) : List Char → Option (List Char)
  | [] => none
  | c :: rest =>
    if last = '/' && c = '*' then skipComment (depth + 1) c rest
    else if last = '*' && c = '/' then
      match depth with
      | 0 => some rest
      | depth + 1 => skipComment depth c rest
    else skipComment depth c rest

def skipLine (cs : List Char) : List Char :=
  (cs.dropWhile (· != '\n')).drop 1

def exponent : List Char → List Char × List Char
  | e :: rest =>
    if e = 'e' || e = 'E' then
      match rest with
      | s :: d :: _ =>
        if (s = '+' || s = '-') && d.isDigit then
          (e :: s :: (rest.drop 1).takeWhile Char.isDigit, (rest.drop 1).dropWhile Char.isDigit)
        else if s.isDigit then (e :: rest.takeWhile Char.isDigit, rest.dropWhile Char.isDigit)
        else ([], e :: rest)
      | [s] => if s.isDigit then ([e, s], []) else ([], e :: rest)
      | [] => ([], [e])
    else ([], e :: rest)
  | [] => ([], [])

/-- A number, a hex literal `0x…`, or a lone period. -/
def number (cs : List Char) : Token × List Char :=
  let whole := cs.takeWhile Char.isDigit
  let rest := cs.dropWhile Char.isDigit
  match whole, rest with
  | ['0'], 'x' :: tail =>
    (.hex (String.ofList (tail.takeWhile isHexDigit)), tail.dropWhile isHexDigit)
  | _, _ =>
    let point := rest.take (if rest.head? = some '.' then 1 else 0)
    let rest := rest.drop point.length
    let fraction := rest.takeWhile Char.isDigit
    let rest := rest.dropWhile Char.isDigit
    let mantissa := whole ++ point ++ fraction
    if mantissa = ['.'] then (.symbol ".", rest)
    else
      let (power, rest) := exponent rest
      let digits := String.ofList (mantissa ++ power)
      match rest with
      | 'L' :: rest => (.number digits true, rest)
      | rest => (.number digits false, rest)

/-- The symbols of more than one character, longer ones before their beginnings. -/
def longSymbols : List String :=
  ["->>", "->", "||/", "||", "|/", "=>", "==", "!~~*", "!~~", "!~*", "!~", "!=", "!!", "<=>", "<=",
    "<>", "<<", "<@", ">=", ">>", "::", ":=", "&&", "^@", "~~*", "~~", "~*"]

/-- The longest symbol that a text starts with; `!=` is another spelling of `<>`. -/
def symbol (c : Char) (rest : List Char) : Token × List Char :=
  match longSymbols.find? fun s => s.toList.isPrefixOf (c :: rest) with
  | some s => (.symbol (if s = "!=" then "<>" else s), (c :: rest).drop s.length)
  | none => (.symbol c.toString, rest)

/-- An unquoted word whose first characters are given. -/
def word (first rest : List Char) : Token × List Char :=
  (.word (String.ofList (first ++ rest.takeWhile isWordPart)) none, rest.dropWhile isWordPart)

/-- A word that starts with `#` or `@`, or one of the symbols that do. The character after the
sign belongs to the word whatever it is, a blank apart. -/
def signed (c : Char) (rest : List Char) : Token × List Char :=
  match c, rest with
  | '#', '-' :: rest => (.symbol "#-", rest)
  | '#', '>' :: '>' :: rest => (.symbol "#>>", rest)
  | '#', '>' :: rest => (.symbol "#>", rest)
  | '@', '>' :: rest => (.symbol "@>", rest)
  | '@', '?' :: rest => (.symbol "@?", rest)
  | '@', '@' :: ' ' :: rest => (.symbol "@@", ' ' :: rest)
  | '@', ['@'] => (.symbol "@@", [])
  | '@', '@' :: d :: rest => word ['@', '@', d] rest
  | c, ' ' :: rest => (.symbol c.toString, ' ' :: rest)
  | c, d :: rest => word [c, d] rest
  | c, [] => (.symbol c.toString, [])

def upTo (mark : List Char) : List Char → Option (List Char × List Char)
  | [] => none
  | c :: rest =>
    if mark.isPrefixOf (c :: rest) then some ([], (c :: rest).drop mark.length)
    else (upTo mark rest).map fun (s, r) => (c :: s, r)

/-- Faults, with the number of characters before the place that they name. -/
inductive Fault where
  | string (offset : Nat)
  | escapeString
  | identifier (close : Char)
  | comment
  | dollars (isTagged : Bool)

/-- Compares the beginning of a text with a tag: the characters compared, whether they are the tag,
and what follows them. The first character that differs counts as compared. -/
def compareTag : List Char → List Char → Option (List Char × Bool × List Char)
  | [], cs => some ([], true, cs)
  | _ :: _, [] => none
  | t :: tag, c :: cs =>
    if t = c then (compareTag tag cs).map fun (taken, same, r) => (c :: taken, same, r)
    else some ([c], false, cs)

/-- The text up to a tag between dollar signs, and what follows that. A dollar sign that begins no
such mark belongs to the text with the characters compared after it, so a mark among these does not
end the text. The fuel bounds the number of dollar signs. -/
def upToTag (tag : List Char) : Nat → List Char → Option (List Char × List Char)
  | 0, _ => none
  | fuel + 1, cs =>
    let before := cs.takeWhile (· != '$')
    match cs.dropWhile (· != '$') with
    | [] => none
    | dollar :: rest =>
      match compareTag tag rest with
      | none => none
      | some (_, true, '$' :: rest) => some (before, rest)
      | some (taken, _, rest) =>
        (upToTag tag fuel rest).map fun (s, r) => (before ++ dollar :: taken ++ s, r)

/-- What follows a dollar sign: the name of a parameter, or a text between two equal marks, each of
them a tag between dollar signs. -/
def dollar (rest : List Char) : Except Fault (Token × List Char) :=
  let isPart (c : Char) : Bool := Text.isAlphabetic c || Text.isNumeral c || c == '_'
  let tag := rest.takeWhile isPart
  match tag, rest.dropWhile isPart with
  | [], '$' :: body =>
    match upTo ['$', '$'] body with
    | some (s, r) => .ok (.dollarQuoted none (String.ofList s), r)
    | none => .error (.dollars false)
  | tag, '$' :: body =>
    match upToTag tag (body.length + 1) body with
    | some (s, r) => .ok (.dollarQuoted (some (String.ofList tag)) (String.ofList s), r)
    | none => .error (.dollars true)
  | tag, r => .ok (.placeholder (String.ofList ('$' :: tag)), r)

/-- The first token of a text, `none` for blanks and comments, and what follows it. -/
def next (c : Char) (rest : List Char) : Except Fault (Option Token × List Char) :=
  let plain (r : Token × List Char) : Except Fault (Option Token × List Char) := .ok (some r.1, r.2)
  if Text.isBlank c then .ok (none, rest)
  else if (c = 'N' || c = 'n') && rest.head? = some '\'' then
    match quotedEscaping '\'' (rest.drop 1) with
    | some (s, r) => .ok (some (.national (String.ofList s)), r)
    | none => .error (.string 1)
  else if (c = 'E' || c = 'e') && rest.head? = some '\'' then
    match escapeString rest.length (rest.drop 1) with
    | some (s, r) => .ok (some (.escape (String.ofList s)), r)
    | none => .error .escapeString
  else if (c = 'X' || c = 'x') && rest.head? = some '\'' then
    match quotedEscaping '\'' (rest.drop 1) with
    | some (s, r) => .ok (some (.hex (String.ofList s)), r)
    | none => .error (.string 1)
  else if c = '\'' then
    match quoted '\'' rest with
    | some (s, r) => .ok (some (.string (String.ofList s)), r)
    | none => .error (.string 0)
  else if c = '"' || c = '[' then
    match quoted (closingQuote c) rest with
    | some (s, r) => .ok (some (.word (String.ofList s) (some c)), r)
    | none => .error (.identifier (closingQuote c))
  else if c.isDigit || c = '.' then plain (number (c :: rest))
  else if c = '-' && rest.head? = some '-' then .ok (none, skipLine (rest.drop 1))
  else if c = '/' && rest.head? = some '*' then
    match skipComment 0 ' ' (rest.drop 1) with
    | some r => .ok (none, r)
    | none => .error .comment
  else if c = '#' || c = '@' then plain (signed c rest)
  else if c = '?' then
    plain (.placeholder (String.ofList (c :: rest.takeWhile Text.isNumeral)),
      rest.dropWhile Text.isNumeral)
  else if c = '$' then do plain (← dollar rest)
  else if isWordStart c then plain (word [c] rest)
  else plain (symbol c rest)

theorem isBareSpelling_word {c : Char} (rest : List Char) (hc : c ≠ '.') :
    isBareSpelling (String.ofList (c :: rest.takeWhile isWordPart)) := by
  have hparts : '.' ∉ rest.takeWhile isWordPart := fun h =>
    absurd (List.all_eq_true.1 List.all_takeWhile '.' h) (by decide)
  unfold isBareSpelling
  rw [String.toList_ofList]
  split
  · rfl
  · rfl
  · simpa [Ne.symm hc] using hparts

theorem isSpelled_signed {c : Char} (rest : List Char) (hc : c = '#' ∨ c = '@') :
    (signed c rest).1.isSpelled := by
  unfold signed
  rcases hc with rfl | rfl <;> split <;> simp_all [word, Token.isSpelled, isBareSpelling]

theorem isSpelled_number (cs : List Char) : (number cs).1.isSpelled := by
  unfold number
  grind [Token.isSpelled]

theorem isSpelled_symbol (c : Char) (rest : List Char) : (symbol c rest).1.isSpelled := by
  unfold symbol
  split <;> rfl

theorem isSpelled_dollar {rest rest' : List Char} {token : Token}
    (h : dollar rest = .ok (token, rest')) : token.isSpelled := by
  unfold dollar at h
  grind [Token.isSpelled]

theorem of_ite {α : Type} {p : Prop} [Decidable p] {x y r : α} (h : (if p then x else y) = r) :
    p ∧ x = r ∨ ¬ p ∧ y = r := by
  by_cases hp : p
  · exact .inl ⟨hp, by rwa [if_pos hp] at h⟩
  · exact .inr ⟨hp, by rwa [if_neg hp] at h⟩

theorem isSpelled_next {c : Char} {rest rest' : List Char} {token : Token}
    (h : next c rest = .ok (some token, rest')) : token.isSpelled := by
  unfold next at h
  -- blanks, strings and quoted words
  iterate 6 rcases of_ite h with ⟨_, h⟩ | ⟨_, h⟩; (· grind [Token.isSpelled])
  rcases of_ite h with ⟨_, h⟩ | ⟨hnumber, h⟩
  · cases h
    exact isSpelled_number _
  -- comments
  iterate 2 rcases of_ite h with ⟨_, h⟩ | ⟨_, h⟩; (· grind)
  rcases of_ite h with ⟨hsign, h⟩ | ⟨_, h⟩
  · cases h
    exact isSpelled_signed rest (by simpa using hsign)
  rcases of_ite h with ⟨_, h⟩ | ⟨_, h⟩
  · cases h
    rfl
  rcases of_ite h with ⟨_, h⟩ | ⟨_, h⟩
  · cases hdollar : dollar rest with
    | error fault =>
      rw [hdollar] at h
      cases h
    | ok r =>
      rw [hdollar] at h
      cases h
      exact isSpelled_dollar hdollar
  rcases of_ite h with ⟨_, h⟩ | ⟨_, h⟩
  · cases h
    refine isBareSpelling_word rest ?_
    rintro rfl
    simp at hnumber
  · cases h
    exact isSpelled_symbol c rest

def Fault.error (at_ : Location) (cs : List Char) : Fault → LexError
  | .string offset => .unterminatedString (at_.after (cs.take offset))
  | .escapeString => .unterminatedEscapeString at_
  | .identifier close => .unclosedIdentifier close at_
  | .comment => .unclosedComment (at_.after cs)
  | .dollars isTagged => .unclosedDollars isTagged (at_.after cs)

/-- The tokens of a text that starts at a given place. Each step takes at least one character, so
as much fuel as there are characters is enough. -/
def run : Nat → Location → List Char → Except LexError (List Placed)
  | 0, _, _ => .ok []
  | _ + 1, _, [] => .ok []
  | fuel + 1, at_, c :: rest =>
    let after (rest' : List Char) := at_.after ((c :: rest).take (rest.length + 1 - rest'.length))
    match h : next c rest with
    | .error fault => .error (fault.error at_ (c :: rest))
    | .ok (none, rest') => run fuel (after rest') rest'
    | .ok (some token, rest') => do
      let later ← run fuel (after rest') rest'
      return ⟨token, at_, isSpelled_next h⟩ :: later

end Lexer

def tokens (text : String) : Except LexError (List Placed) :=
  Lexer.run text.toList.length .start text.toList

end BatchPlan.Sql
