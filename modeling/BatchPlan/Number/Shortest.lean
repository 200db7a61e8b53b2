import BatchPlan.Number.Binary64

namespace BatchPlan.Binary64

/-- The reals that round to a double, in quarters of its last binary place: the value, the two ends,
and whether the ends belong to it. Below a power of two the doubles lie closer together. -/
structure Neighbourhood where
  low : Nat
  value : Nat
  high : Nat
  closed : Bool
  place : Int
deriving Repr

def neighbourhood (x : Binary64) : Neighbourhood where
  low := 4 * x.significand - (if x.fraction = 0 ∧ 1 < x.exponentField then 1 else 2)
  value := 4 * x.significand
  high := 4 * x.significand + 2
  closed := x.significand % 2 == 0
  place := x.exponent - 2

namespace Neighbourhood

def step (n : Neighbourhood) (k : Int) : Nat × Nat :=
  (Nat.pow 10 (-k).toNat <<< n.place.toNat, Nat.pow 10 k.toNat <<< (-n.place).toNat)

def holds (n : Neighbourhood) (k : Int) (d : Nat) : Bool :=
  let (num, den) := n.step k
  if n.closed then n.low * num ≤ d * den && d * den ≤ n.high * num
  else n.low * num < d * den && d * den < n.high * num

/-- The multiple of `10 ^ k` that reads back, if there is one; of two the nearer, and the larger
when both are equally near. -/
def onGrid? (n : Neighbourhood) (k : Int) : Option (Nat × Int) :=
  let (num, den) := n.step k
  let below := n.value * num / den
  let remainder := n.value * num % den
  let above := if remainder = 0 then below else below + 1
  match n.holds k below, n.holds k above with
  | true, true => some (if den ≤ 2 * remainder then above else below, k)
  | true, false => some (below, k)
  | false, true => some (above, k)
  | false, false => none

def top (n : Neighbourhood) : Int :=
  ((n.value.log2 : Int) + 1 + n.place) * 30103 / 100000 + 1

/-- The digits and the power of ten of the shortest decimal. Seventeen digits always suffice. -/
def shortest (n : Neighbourhood) : Nat × Int :=
  ((List.range 20).findSome? fun (i : Nat) => n.onGrid? (n.top - i)).getD (0, 0)

end Neighbourhood

def positional (digits : Nat) (k : Int) : String :=
  let ds := toString digits
  if 0 ≤ k then ds ++ "".pushn '0' k.toNat
  else
    let places := (-k).toNat
    let padded := ("".pushn '0' (places + 1 - ds.length) ++ ds).toList
    String.ofList (padded.take (padded.length - places)) ++ "." ++
      String.ofList (padded.drop (padded.length - places))

def text (x : Binary64) : String :=
  if x.exponentField = 2047 then
    if x.fraction = 0 then (if x.isNegative then "-inf" else "inf") else "NaN"
  else
    let magnitude :=
      if x.significand = 0 then "0"
      else
        let (digits, k) := x.neighbourhood.shortest
        positional digits k
    if x.isNegative then "-" ++ magnitude else magnitude

end BatchPlan.Binary64
