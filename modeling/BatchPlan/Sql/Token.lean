namespace BatchPlan.Sql

/-- A place in the text: lines and columns count from 1, columns in characters. The end of the
text has no place and is given as line 0, column 0. -/
structure Location where
  line : Nat
  column : Nat
deriving DecidableEq, Repr, Inhabited

def Location.step (at_ : Location) (c : Char) : Location :=
  if c = '\n' then ⟨at_.line + 1, 1⟩ else ⟨at_.line, at_.column + 1⟩

def Location.after (at_ : Location) (cs : List Char) : Location :=
  cs.foldl Location.step at_

def Location.start : Location := ⟨1, 1⟩

def Location.before (a b : Location) : Bool :=
  a.line < b.line || (a.line == b.line && a.column < b.column)

inductive Token where
  /-- An identifier or keyword; a quoted one remembers its opening quote. -/
  | word (value : String) (quote : Option Char)
  /-- The digits as written, and whether they end in `L`. -/
  | number (digits : String) (long : Bool)
  | string (value : String)
  | national (value : String)
  | escape (value : String)
  | hex (digits : String)
  /-- A query parameter such as `?` or `$1`. -/
  | placeholder (text : String)
  | dollarQuoted (tag : Option String) (value : String)
  | symbol (text : String)
  | eof
deriving DecidableEq, Repr, Inhabited

def closingQuote (c : Char) : Char :=
  if c = '[' then ']' else c

def dollarQuotedText (tag : Option String) (value : String) : String :=
  let mark := "$" ++ tag.getD "" ++ "$"
  mark ++ value ++ mark

def Token.text : Token → String
  | .word value none => value
  | .word value (some q) => q.toString ++ value ++ (closingQuote q).toString
  | .number digits long => if long then digits ++ "L" else digits
  | .string value => "'" ++ value ++ "'"
  | .national value => "N'" ++ value ++ "'"
  | .escape value => "E'" ++ value ++ "'"
  | .hex digits => "X'" ++ digits ++ "'"
  | .placeholder text => text
  | .dollarQuoted tag value => dollarQuotedText tag value
  | .symbol text => text
  | .eof => "EOF"

/-- Is a word spelled as one without quotes? It has no dot in it, unless it starts with a sign. -/
def isBareSpelling (value : String) : Bool :=
  match value.toList with
  | '#' :: _ | '@' :: _ => true
  | cs => !cs.contains '.'

def Token.isSpelled : Token → Bool
  | .word value none => isBareSpelling value
  | _ => true

structure Placed where
  token : Token
  location : Location
  spelled : token.isSpelled
deriving DecidableEq, Repr

instance : Inhabited Placed := ⟨⟨.eof, .start, rfl⟩⟩

end BatchPlan.Sql
