import BatchPlan.Sql.Name
import BatchPlan.Text.Printable

namespace BatchPlan.Sql

def commas (items : List String) : String :=
  ", ".intercalate items

def spaced (parts : List String) : String :=
  String.join (parts.map fun part => " " ++ part)

/-- A part of a statement that no rule of the binder looks into: its text, and its structure spelled
out. -/
structure Rendered where
  text : String
  shape : String
deriving DecidableEq, Repr, Inhabited

namespace Shape

def record (name : String) (fields : List (String × String)) : String :=
  name ++ " \x7b " ++ commas (fields.map fun (field, value) => field ++ ": " ++ value) ++ " \x7d"

def tuple (name : String) (parts : List String) : String :=
  name ++ "(" ++ commas parts ++ ")"

def list (items : List String) : String :=
  "[" ++ commas items ++ "]"

def option : Option String → String
  | some s => tuple "Some" [s]
  | none => "None"

def truth (b : Bool) : String :=
  if b then "true" else "false"

def char (quote c : Char) : String :=
  if c = quote || c = '\\' then "\\" ++ c.toString
  else if c = '\n' then "\\n"
  else if c = '\r' then "\\r"
  else if c = '\t' then "\\t"
  else if c.toNat = 0 then "\\0"
  else if Text.isPrintable c then c.toString
  else "\\u\x7b" ++ String.ofList (Nat.toDigits 16 c.toNat) ++ "\x7d"

def quoted (s : String) : String :=
  "\"" ++ String.join (s.toList.map (char '"')) ++ "\""

def capitalized (word : String) : String :=
  match word.toList with
  | c :: rest => String.ofList (c.toUpper :: rest.map Char.toLower)
  | [] => ""

end Shape

def Ident.shape (i : Ident) : String :=
  Shape.record "Ident" [("value", Shape.quoted i.value),
    ("quote_style", Shape.option (i.quote.map fun q => "'" ++ Shape.char '\'' q ++ "'"))]

def identShapes (names : List Ident) : String :=
  Shape.list (names.map Ident.shape)

def ObjectName.shape (n : ObjectName) : String :=
  Shape.tuple "ObjectName" [identShapes n.parts]

end BatchPlan.Sql
