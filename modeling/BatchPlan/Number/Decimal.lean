import BatchPlan.Text.Basic

namespace BatchPlan

/-- The number `± coefficient / 10 ^ scale`. -/
structure Decimal where
  isNegative : Bool
  coefficient : Nat
  scale : Nat
deriving DecidableEq, Repr, Inhabited

namespace Decimal

def coefficientLimit : Nat := 1 <<< 96

def maxScale : Nat := 28

/-- Drops what follows a coefficient, rounding by the first digit dropped. A coefficient that
becomes too large gives up its last place. -/
def roundOff (coefficient scale digit : Nat) : Option (Nat × Nat) :=
  if digit < 5 then some (coefficient, scale)
  else if coefficient + 1 < coefficientLimit then some (coefficient + 1, scale)
  else if scale = 0 then none
  else some ((coefficient + 5) / 10, scale - 1)

/-- Coefficients from here on do not fit into one word of 64 bits with another digit for sure. -/
def wordLimit : Nat := (1 <<< 64) / 10 - 255

/-- Reads on after `coefficient` with `scale` places. Places that do not fit are rounded off, an
integral part that does not fit is refused. Underscores may stand after any digit. After the last
place one ends a number whose other digits are below `wordLimit`; a longer number goes on, and
`grouped` says that it takes one more place if that fits. -/
def readDigits (coefficient scale : Nat) (point seen grouped : Bool) :
    List Char → Option (Nat × Nat)
  | [] => if seen then some (coefficient, scale) else none
  | c :: cs =>
    let full : Bool := point && maxScale ≤ scale
    if c.isDigit then
      let digit := c.toNat - '0'.toNat
      let next := coefficient * 10 + digit
      if coefficientLimit ≤ next ∨ (full && !grouped) then
        if point then roundOff coefficient scale digit else none
      else readDigits next (if point then scale + 1 else scale) point true false cs
    else if c = '_' ∧ seen then
      if full && !grouped && coefficient / 10 < wordLimit then some (coefficient, scale)
      else readDigits coefficient scale point true full cs
    else if c = '.' ∧ !point then readDigits coefficient scale true seen false cs
    else if c = '.' ∧ full ∧ !grouped then some (coefficient, scale)
    else none

/-- Zero has no sign, and a scale is taken modulo the number of scales. -/
def ofParts (isNegative : Bool) (parts : Nat × Nat) : Decimal :=
  ⟨isNegative && parts.1 != 0, parts.1, parts.2 % (maxScale + 1)⟩

/-- The number with no more than `scale` places. A half is rounded away from zero. -/
def roundTo (d : Decimal) (scale : Nat) : Decimal :=
  let unit := Nat.pow 10 (d.scale - scale)
  ⟨d.isNegative, (d.coefficient + unit / 2) / unit, min d.scale scale⟩

/-- The number divided by a power of ten. Places that do not fit are rounded off. -/
def shiftRight? (d : Decimal) (places : Nat) : Option Decimal :=
  if maxScale < places then none
  else
    let d := d.roundTo (maxScale - places)
    some { d with scale := d.scale + places }

/-- The number times a power of ten. The point is moved while there are places; beyond that the
coefficient grows, and no places are left. -/
def shiftLeft? (d : Decimal) (places : Nat) : Option Decimal :=
  if places ≤ d.scale then some { d with scale := d.scale - places }
  else if maxScale < places then none
  else
    let coefficient := d.coefficient * Nat.pow 10 (places - d.scale)
    if coefficient < coefficientLimit then some ⟨d.isNegative, coefficient, 0⟩ else none

def exponentDigits? : List Char → Option Nat
  | '+' :: cs => digitsBelow? (1 <<< 32) cs
  | cs => digitsBelow? (1 <<< 32) cs

def ofPlain? (isNegative : Bool) (cs : List Char) : Option Decimal :=
  (readDigits 0 0 false false false cs).map (ofParts isNegative)

def ofUnsigned? (isNegative : Bool) (cs : List Char) : Option Decimal :=
  let isMark (c : Char) : Bool := c == 'e' || c == 'E'
  let base := ofPlain? isNegative (cs.takeWhile (!isMark ·))
  match cs.dropWhile (!isMark ·) with
  | [] => base
  | _ :: '-' :: exponent => do (← base).shiftRight? (← exponentDigits? exponent)
  | _ :: exponent => do (← base).shiftLeft? (← exponentDigits? exponent)

def ofText? (s : String) : Option Decimal :=
  match s.toList with
  | '-' :: cs => ofUnsigned? true cs
  | '+' :: cs => ofUnsigned? false cs
  | cs => ofUnsigned? false cs

def text (d : Decimal) : String :=
  let ds := toString d.coefficient
  let padded := ("".pushn '0' (d.scale + 1 - ds.length) ++ ds).toList
  let whole := String.ofList (padded.take (padded.length - d.scale))
  (if d.isNegative then "-" else "") ++ whole ++
    if d.scale = 0 then "" else "." ++ String.ofList (padded.drop (padded.length - d.scale))

end Decimal

end BatchPlan
