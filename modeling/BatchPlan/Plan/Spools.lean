import BatchPlan.Plan.Basic

namespace BatchPlan.Plan

def producer? : Plan → Option Nat
  | .spool id _ _ _ => some id
  | _ => none

def producers (p : Plan) : List Nat :=
  p.operators.filterMap producer?

def consumed? : Plan → Option Nat
  | .consumer producer _ => some producer
  | _ => none

def readsSpool (p : Plan) : Bool :=
  p.operators.any fun q => q.consumed?.isSome

def lastSpool (p : Plan) : Nat :=
  p.operators.foldl (fun n q => max n (max (q.producer?.getD 0) (q.consumed?.getD 0))) 0

def firstRepeated : List Nat → List Nat → Option Nat
  | _, [] => none
  | seen, id :: rest => if seen.contains id then some id else firstRepeated (id :: seen) rest

mutual

def checkConsumers (available : List Nat) : Plan → Result Unit
  | .consumer producer _ =>
    if available.contains producer then .ok ()
    else .error (.internal ("spool consumer reads spool #" ++ toString producer ++
      " before it is produced"))
  | .spool id input _ _ => input.checkConsumers (id :: available)
  | .join left right spec => do
    left.checkConsumers available
    match spec.strategy with
    | .nestedLoop _ => right.checkConsumers (left.producers ++ available)
    | _ => right.checkConsumers available
  | .scan _ | .constant .. | .function _ => .ok ()
  | .filter input _ | .compute input _ | .aggregate input _ | .sort input _
  | .segment input _ _ | .sequence input _ | .distinct input _ | .top input _ _ _
  | .offset input _ _ | .rename input _ _ | .assert input _ _ => input.checkConsumers available
  | .concat inputs _ => checkAllConsumers available inputs

def checkAllConsumers (available : List Nat) : List Plan → Result Unit
  | [] => .ok ()
  | p :: rest => do
    p.checkConsumers available
    checkAllConsumers available rest

end

/-- No spool is filled twice, and none is read before it is filled. -/
def validateSpools (p : Plan) : Result Unit := do
  if let some id := firstRepeated [] p.producers then
    throw (.internal ("spool #" ++ toString id ++ " is produced more than once"))
  p.checkConsumers []

end BatchPlan.Plan
