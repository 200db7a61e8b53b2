import BatchPlan.Sql.Token
import BatchPlan.Text.Basic
import BatchPlan.Text.Lowercase

namespace BatchPlan.Sql

structure Ident where
  value : String
  quote : Option Char := none
deriving DecidableEq, Repr, Inhabited

/-- The body of a quoted text, with single quotes doubled. A quote that is doubled already, or that
follows a backslash, stays as it is. -/
def doubleQuotes (quote : Char) (last : Char) : List Char → List Char
  | [] => []
  | [c] => if c = quote && last ≠ '\\' then [c, c] else [c]
  | c :: d :: rest =>
    if c = quote then
      if last = '\\' then c :: doubleQuotes quote last (d :: rest)
      else if d = quote then c :: c :: doubleQuotes quote c rest
      else c :: c :: doubleQuotes quote c (d :: rest)
    else c :: doubleQuotes quote c (d :: rest)

def quotedText (quote : Char) (s : String) : String :=
  quote.toString ++ String.ofList (doubleQuotes quote (Char.ofNat 0) s.toList) ++ quote.toString

def Ident.text (i : Ident) : String :=
  match i.quote with
  | none => i.value
  | some '[' => "[" ++ i.value ++ "]"
  | some q => quotedText q i.value

structure ObjectName where
  parts : List Ident
deriving DecidableEq, Repr, Inhabited

namespace ObjectName

def text (n : ObjectName) : String :=
  ".".intercalate (n.parts.map Ident.text)

def dotted (n : ObjectName) : String :=
  ".".intercalate (n.parts.map Ident.value)

def base (n : ObjectName) : String :=
  (n.parts.getLast?.map Ident.value).getD ""

def schema? (n : ObjectName) : Option String :=
  match n.parts.reverse with
  | _ :: s :: _ => some s.value
  | _ => none

end ObjectName

/-- The characters between two given ones that open and close a text. -/
def between? (opening closing : Char) (cs : List Char) : Option (List Char) :=
  match cs with
  | c :: rest =>
    if c = opening && rest.getLast? = some closing then some rest.dropLast else none
  | [] => none

/-- Blanks at both ends removed, then one pair of brackets or double quotes. -/
def unquote (name : String) : String :=
  let cs := Text.trimBlanks name.toList
  String.ofList (((between? '[' ']' cs).or (between? '"' '"' cs)).getD cs)

/-- Temporary tables are named with a leading `#`. -/
def isTemporaryName (name : String) : Bool :=
  name.startsWith "#"

end BatchPlan.Sql
