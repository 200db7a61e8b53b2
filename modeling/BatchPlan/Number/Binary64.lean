import BatchPlan.Text.Basic

namespace BatchPlan

structure Binary64 where
  bits : UInt64
deriving DecidableEq, Repr, Inhabited

namespace Binary64

def ofFloat (x : Float) : Binary64 :=
  ⟨x.toBits⟩

def toFloat (x : Binary64) : Float :=
  Float.ofBits x.bits

def isNegative (x : Binary64) : Bool :=
  x.bits.toNat >>> 63 == 1

/-- The biased exponent: 0 for the subnormal numbers, 2047 for infinities and NaN. -/
def exponentField (x : Binary64) : Nat :=
  (x.bits.toNat >>> 52) % 2048

def fraction (x : Binary64) : Nat :=
  x.bits.toNat % (1 <<< 52)

def significand (x : Binary64) : Nat :=
  if x.exponentField = 0 then x.fraction else x.fraction + (1 <<< 52)

def exponent (x : Binary64) : Int :=
  if x.exponentField = 0 then -1074 else x.exponentField - 1075

def infinityBits : Nat := 2047 <<< 52

/-- The natural nearest to `num / den`; a half goes to the even neighbour. -/
def roundDiv (num den : Nat) : Nat :=
  let q := num / den
  let r := num % den
  if 2 * r < den then q
  else if den < 2 * r then q + 1
  else q + q % 2

/-- `num / den * 2 ^ (-q)` as a ratio of naturals. -/
def scaled (num den : Nat) (q : Int) : Nat × Nat :=
  (num <<< (-q).toNat, den <<< q.toNat)

/-- The double nearest to `num / den`, ties to even; too large a ratio gives infinity. -/
def ofRatio (num den : Nat) : Binary64 :=
  if num = 0 ∨ den = 0 then ⟨0⟩
  else
    let guess : Int := (num.log2 : Int) - den.log2 - 52
    let (n, d) := scaled num den guess
    let q := max (-1074) (if n / d < 1 <<< 52 then guess - 1 else guess)
    let (n, d) := scaled num den q
    ⟨(min (((q + 1074).toNat <<< 52) + roundDiv n d) infinityBits).toUInt64⟩

/-- The double nearest to `digits * 10 ^ exponent`. Numbers far outside the range of doubles are
infinite or zero without their powers of ten being computed. -/
def ofScientific (digits : Nat) (exponent : Int) : Binary64 :=
  let size : Int := (digits.log2 : Int) / 3 + exponent
  if digits = 0 ∨ size < -400 then ⟨0⟩
  else if 700 < exponent then ⟨infinityBits.toUInt64⟩
  else ofRatio (digits * Nat.pow 10 exponent.toNat) (Nat.pow 10 (-exponent).toNat)

def ofText? (s : String) : Option Binary64 :=
  let cs := s.toList
  let whole := cs.takeWhile Char.isDigit
  let rest := cs.dropWhile Char.isDigit
  let (places, rest) := match rest with
    | '.' :: r => (r.takeWhile Char.isDigit, r.dropWhile Char.isDigit)
    | _ => ([], rest)
  if whole.isEmpty && places.isEmpty then none
  else
    let shifted (e : Int) := ofScientific (digitsValue (whole ++ places)) (e - places.length)
    match rest with
    | [] => some (shifted 0)
    | c :: r => if c = 'e' ∨ c = 'E' then (signedDigits? r).map shifted else none

end Binary64

end BatchPlan
