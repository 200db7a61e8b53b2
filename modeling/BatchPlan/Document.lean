import BatchPlan.Text.Basic

namespace BatchPlan

/-- A number as it was written. Only whole numbers without a fraction part, an exponent or a sign
before zero count as integers. A number outside the range of doubles has no value. -/
inductive DocumentNumber where
  | natural (n : Nat)
  | negative (n : Int)
  | real (x : Float)
  | outOfRange
deriving Repr, Inhabited

/-- Texts with unpaired surrogates can be skipped over, but have no value. -/
inductive Document where
  | null
  | boolean (value : Bool)
  | number (value : DocumentNumber)
  | text (value : Option String)
  | array (items : List Document)
  | object (members : List (Option String × Document))
deriving Repr, Inhabited

namespace DocumentNumber

def wordLimit : Nat := 1 <<< 64

/-- A significand of at most 64 bits with a power of ten. -/
structure Scaled where
  significand : Nat
  exponent : Int
deriving Repr

/-- Takes in digits as long as the significand fits in 64 bits, and drops the rest. -/
def takePlaces : List Char → Scaled → Scaled
  | [], s => s
  | c :: cs, s =>
    let next := s.significand * 10 + (c.toNat - '0'.toNat)
    if wordLimit ≤ next then s else takePlaces cs ⟨next, s.exponent - 1⟩

/-- Takes in the digits before the point; those that do not fit only count for the size. -/
def takeWhole : List Char → Nat → Scaled
  | [], n => ⟨n, 0⟩
  | c :: cs, n =>
    let next := n * 10 + (c.toNat - '0'.toNat)
    if wordLimit ≤ next then ⟨n, (c :: cs).length⟩ else takeWhole cs next

/-- Multiplies or divides by a power of ten, in steps of at most `10 ^ 308`. -/
def scale (fuel : Nat) (x : Float) (exponent : Int) : Option Float :=
  match fuel with
  | 0 => some 0
  | fuel + 1 =>
    if exponent.natAbs ≤ 308 then
      let power := Float.ofScientific 1 false exponent.natAbs
      if 0 ≤ exponent then
        let y := x * power
        if y.isInf then none else some y
      else some (x / power)
    else if x == 0 then some x
    else if 0 ≤ exponent then none
    else scale fuel (x / Float.ofScientific 1 false 308) (exponent + 308)

/-- The double for a significand and a power of ten. After four steps down nothing is left. -/
def ofScaled (isNegative : Bool) (s : Scaled) : DocumentNumber :=
  match scale 4 s.significand.toUInt64.toFloat s.exponent with
  | some x => .real (if isNegative then -x else x)
  | none => .outOfRange

def ofWhole (isNegative : Bool) (digits : List Char) : DocumentNumber :=
  match takeWhole digits 0 with
  | ⟨n, 0⟩ =>
    if !isNegative then .natural n
    else if n = 0 ∨ 1 <<< 63 < n then .real (-n.toUInt64.toFloat)
    else .negative (-n)
  | s => ofScaled isNegative s

end DocumentNumber

namespace Document

abbrev Reader (α : Type) := StateT (List Char) (Except (List Char)) α

def fault {α : Type} : Reader α := fun cs => .error cs

def isSpace (c : Char) : Bool :=
  c = ' ' || c = '\n' || c = '\t' || c = '\r'

def skipSpace : Reader Unit :=
  modify (·.dropWhile isSpace)

def expect (c : Char) : Reader Unit := do
  match ← get with
  | d :: cs => if c = d then set cs else fault
  | [] => fault

def word (w : String) : Reader Unit := do
  let cs ← get
  if w.toList.isPrefixOf cs then set (cs.drop w.length) else fault

def takeDigits : Reader (List Char) := do
  let cs ← get
  set (cs.dropWhile Char.isDigit)
  return cs.takeWhile Char.isDigit

def someDigits : Reader (List Char) := do
  match ← takeDigits with
  | [] => fault
  | ds => return ds

def exponent? : Reader (Option Int) := do
  match ← get with
  | c :: cs =>
    if c = 'e' ∨ c = 'E' then
      match cs with
      | '-' :: rest => set rest; return some (-(digitsValue (← someDigits) : Int))
      | '+' :: rest => set rest; return some (digitsValue (← someDigits))
      | rest => set rest; return some (digitsValue (← someDigits))
    else return none
  | [] => return none

def signedNumber (isNegative : Bool) : Reader DocumentNumber := do
  let whole ← someDigits
  if whole.length > 1 && whole.head? == some '0' then fault
  let places ← match ← get with
    | '.' :: cs => do set cs; some <$> someDigits
    | _ => pure none
  match places, ← exponent? with
  | none, none => return .ofWhole isNegative whole
  | places, e =>
    let s := DocumentNumber.takePlaces (places.getD []) (DocumentNumber.takeWhole whole 0)
    let e := e.getD 0
    if s.significand = 0 then return .ofScaled isNegative ⟨0, 0⟩
    else return .ofScaled isNegative ⟨s.significand, max (-2000) (min 2000 (s.exponent + e))⟩

def hexDigit? (c : Char) : Option Nat :=
  if c.isDigit then some (c.toNat - '0'.toNat)
  else if 'a' ≤ c ∧ c ≤ 'f' then some (c.toNat - 'a'.toNat + 10)
  else if 'A' ≤ c ∧ c ≤ 'F' then some (c.toNat - 'A'.toNat + 10)
  else none

def hexUnit? : List Char → Option (Nat × List Char)
  | a :: b :: c :: d :: rest => do
    return (((← hexDigit? a) * 16 + (← hexDigit? b)) * 256 +
      (← hexDigit? c) * 16 + (← hexDigit? d), rest)
  | _ => none

def isHighSurrogate (u : Nat) : Bool := 0xD800 ≤ u && u ≤ 0xDBFF

def isLowSurrogate (u : Nat) : Bool := 0xDC00 ≤ u && u ≤ 0xDFFF

def simpleEscape? : Char → Option Char
  | '"' => some '"'
  | '\\' => some '\\'
  | '/' => some '/'
  | 'b' => some '\x08'
  | 'f' => some '\x0c'
  | 'n' => some '\n'
  | 'r' => some '\r'
  | 't' => some '\t'
  | _ => none

/-- A text up to its closing quote. The characters are absent once an unpaired surrogate is met. -/
def chars (fuel : Nat) (soFar : Option (List Char)) : Reader (Option (List Char)) := do
  match fuel with
  | 0 => fault
  | fuel + 1 =>
    let push (c : Char) := soFar.map (c :: ·)
    match ← get with
    | '"' :: cs => set cs; return soFar.map List.reverse
    | '\\' :: 'u' :: cs =>
      match hexUnit? cs with
      | none => fault
      | some (u, rest) =>
        set rest
        if isHighSurrogate u then
          match rest with
          | '\\' :: 'u' :: cs =>
            match hexUnit? cs with
            | none => fault
            | some (v, rest) =>
              if isLowSurrogate v then
                set rest
                chars fuel (push (Char.ofNat (0x10000 + (u - 0xD800) * 0x400 + (v - 0xDC00))))
              else chars fuel none
          | _ => chars fuel none
        else if isLowSurrogate u then chars fuel none
        else chars fuel (push (Char.ofNat u))
    | '\\' :: c :: cs =>
      match simpleEscape? c with
      | some c => set cs; chars fuel (push c)
      | none => fault
    | c :: cs => if c.toNat < 0x20 || c == '\\' then fault else set cs; chars fuel (push c)
    | [] => fault

def quoted : Reader (Option String) := do
  let cs ← chars ((← get).length + 1) (some [])
  return cs.map String.ofList

/-- Reads the items of an array or object up to the closing bracket, commas between them. -/
def items {α : Type} (fuel : Nat) (item : Reader α) (close : Char) : Reader (List α) := do
  match fuel with
  | 0 => fault
  | fuel + 1 =>
    let first ← item
    skipSpace
    match ← get with
    | ',' :: cs => set cs; skipSpace; return first :: (← items fuel item close)
    | c :: cs => if c = close then set cs; return [first] else fault
    | [] => fault

def bracketed {α : Type} (item : Reader α) (close : Char) : Reader (List α) := do
  skipSpace
  match ← get with
  | c :: cs =>
    if c = close then set cs; return []
    else items ((← get).length + 1) item close
  | [] => fault

def member (document : Reader Document) : Reader (Option String × Document) := do
  expect '"'
  let name ← quoted
  skipSpace
  expect ':'
  skipSpace
  return (name, ← document)

def document (fuel : Nat) : Reader Document := do
  match fuel with
  | 0 => fault
  | fuel + 1 =>
    match ← get with
    | '{' :: cs =>
      set cs
      return .object (← bracketed (member (document fuel)) '}')
    | '[' :: cs => set cs; return .array (← bracketed (document fuel) ']')
    | '"' :: cs => set cs; return .text (← quoted)
    | '-' :: cs => set cs; return .number (← signedNumber true)
    | 't' :: _ => word "true"; return .boolean true
    | 'f' :: _ => word "false"; return .boolean false
    | 'n' :: _ => word "null"; return .null
    | _ => return .number (← signedNumber false)

def whole : Reader Document := do
  skipSpace
  let d ← document ((← get).length + 1)
  skipSpace
  match ← get with
  | [] => return d
  | _ => fault

def position (text : String) (rest : List Char) : Nat × Nat :=
  let before := text.toList.take (text.length - rest.length)
  ((before.filter (· = '\n')).length + 1, (before.reverse.takeWhile (· ≠ '\n')).length)

def complaint (what text : String) (rest : List Char) : String :=
  let (line, column) := position text rest
  what ++ " at line " ++ toString line ++ " column " ++ toString column

def read {α : Type} (decode : Document → Option α) (text : String) : Except String α :=
  match whole.run text.toList with
  | .error rest => .error (complaint "malformed document" text rest)
  | .ok (d, _) => match decode d with
    | some a => .ok a
    | none => .error (complaint "unexpected content" text [])

def toBool? : Document → Option Bool
  | .boolean b => some b
  | _ => none

def toText? : Document → Option String
  | .text s => s
  | _ => none

def toNat? (bound : Nat) : Document → Option Nat
  | .number (.natural n) => if n < bound then some n else none
  | _ => none

def toRows? (d : Document) : Option UInt64 :=
  (d.toNat? (1 <<< 64)).map Nat.toUInt64

def toFloat? : Document → Option Float
  | .number (.natural n) => some n.toUInt64.toFloat
  | .number (.negative n) => some (-n.natAbs.toUInt64.toFloat)
  | .number (.real x) => some x
  | _ => none

def toList? {α : Type} (decode : Document → Option α) : Document → Option (List α)
  | .array ds => ds.mapM decode
  | _ => none

def toOption? {α : Type} (decode : Document → Option α) : Document → Option (Option α)
  | .null => some none
  | d => (decode d).map some

/-- One of a set of names, alone or as the only member of an object, without a value. -/
def toName? : Document → Option String
  | .text s => s
  | .object [(s, .null)] => s
  | _ => none

abbrev Fields := List (String × Document)

def noneTwice : List String → Bool
  | [] => true
  | n :: rest => !rest.contains n && noneTwice rest

/-- The fields of a record with the given field names; all its members need proper names. -/
def fields? (names : List String) : Document → Option Fields
  | .object members => do
    let members ← members.mapM fun (name, d) => name.map (·, d)
    let known := members.filter fun m => names.contains m.1
    if noneTwice (known.map (·.1)) then some known else none
  | .array ds => if ds.length ≤ names.length then some (names.zip ds) else none
  | _ => none

def Fields.required {α : Type} (fields : Fields) (name : String) (decode : Document → Option α) :
    Option α :=
  (fields.lookup name).bind decode

def Fields.withDefault {α : Type} (fields : Fields) (name : String) (decode : Document → Option α)
    (absent : α) : Option α :=
  match fields.lookup name with
  | some d => decode d
  | none => some absent

end Document

end BatchPlan
