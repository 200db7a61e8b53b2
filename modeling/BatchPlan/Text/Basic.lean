namespace BatchPlan.Text

def sortedNames (names : List String) : List String :=
  (names.mergeSort fun a b => !(b < a)).eraseReps

def listed (items : List String) : String :=
  ", ".intercalate items

def isBlank (c : Char) : Bool :=
  let n := c.toNat
  (9 ≤ n && n ≤ 13) || n == 0x20 || n == 0x85 || n == 0xa0 || n == 0x1680 ||
    (0x2000 ≤ n && n ≤ 0x200a) || n == 0x2028 || n == 0x2029 || n == 0x202f || n == 0x205f ||
    n == 0x3000

def trimBlanks (cs : List Char) : List Char :=
  ((cs.dropWhile isBlank).reverse.dropWhile isBlank).reverse

/-- Is a code point in a set? From code point 0 on, the runs are in turn outside and inside of
it. -/
def inRuns : List Nat → Nat → Bool
  | outside :: inside :: rest, n =>
    decide (outside ≤ n) && (decide (n < outside + inside) || inRuns rest (n - outside - inside))
  | _, _ => false

end BatchPlan.Text

namespace BatchPlan

def digitsValue (cs : List Char) : Nat :=
  cs.foldl (fun n c => n * 10 + (c.toNat - '0'.toNat)) 0

def digitsBelow? (bound : Nat) (cs : List Char) : Option Nat :=
  if !cs.isEmpty && cs.all Char.isDigit && digitsValue cs <
    bound then some (digitsValue cs) else none

def signedDigits? : List Char → Option Int
  | '-' :: cs => if !cs.isEmpty && cs.all Char.isDigit then some (-(digitsValue cs : Int)) else none
  | '+' :: cs => if !cs.isEmpty && cs.all Char.isDigit then some (digitsValue cs) else none
  | cs => if !cs.isEmpty && cs.all Char.isDigit then some (digitsValue cs) else none

end BatchPlan
