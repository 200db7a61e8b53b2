import BatchPlan.Function
import BatchPlan.Sql.Query

namespace BatchPlan.Sql

namespace Call

variable {E : Type}

def function (c : Call E) : String :=
  Text.upperAscii c.name.base

def argumentExpr? : Argument E → Option E
  | .value _ e => some e
  | _ => none

def exprs (c : Call E) : List E :=
  match c.args with
  | .list _ args _ => args.filterMap argumentExpr?
  | _ => []

def hasStar (c : Call E) : Bool :=
  match c.args with
  | .list _ args _ => args.any fun
    | .star none => true
    | _ => false
  | _ => false

def isDistinct (c : Call E) : Bool :=
  match c.args with
  | .list distinct _ _ => distinct == some true
  | _ => false

end Call

variable {Q : Type}

mutual

/-- The outermost parts with a property, from left to right. Of a CASE the conditions come before
the results. -/
def ExprOf.outermost (p : ExprOf Q → Bool) (e : ExprOf Q) : List (ExprOf Q) :=
  if p e then [e]
  else match e with
    | .binary left _ right => left.outermost p ++ right.outermost p
    | .unary _ e | .nested e | .isNull e _ | .cast _ e _ _ | .collate e _ | .round _ e _
    | .trim e _ _ | .inQuery e _ _ | .convert _ _ e _ => e.outermost p
    | .inList e items _ => e.outermost p ++ outermostOfList p items
    | .between e low high _ => e.outermost p ++ low.outermost p ++ high.outermost p
    | .like e pattern _ => e.outermost p ++ pattern.outermost p
    | .case operand branches otherwise =>
      outermostOfOption p operand ++ outermostOfConditions p branches ++
        outermostOfResults p branches ++ outermostOfOption p otherwise
    | .substring e start length _ =>
      e.outermost p ++ outermostOfOption p start ++ outermostOfOption p length
    | .call c => outermostOfCall p c
    | .ident _ | .compound _ | .literal _ | .typed .. | .exists .. | .subquery _ | .other _ => []

def outermostOfList (p : ExprOf Q → Bool) : List (ExprOf Q) → List (ExprOf Q)
  | [] => []
  | e :: rest => e.outermost p ++ outermostOfList p rest

def outermostOfOption (p : ExprOf Q → Bool) : Option (ExprOf Q) → List (ExprOf Q)
  | some e => e.outermost p
  | none => []

def outermostOfConditions (p : ExprOf Q → Bool) : List (ExprOf Q × ExprOf Q) → List (ExprOf Q)
  | [] => []
  | (c, _) :: rest => c.outermost p ++ outermostOfConditions p rest

def outermostOfResults (p : ExprOf Q → Bool) : List (ExprOf Q × ExprOf Q) → List (ExprOf Q)
  | [] => []
  | (_, r) :: rest => r.outermost p ++ outermostOfResults p rest

def outermostOfCall (p : ExprOf Q → Bool) : Call (ExprOf Q) → List (ExprOf Q)
  | ⟨_, args, withinGroup, _, window⟩ =>
    outermostOfArguments p args ++ outermostOfOrder p withinGroup ++ outermostOfOver p window

def outermostOfArguments (p : ExprOf Q → Bool) : Arguments (ExprOf Q) → List (ExprOf Q)
  | .list _ args _ => outermostOfArgumentList p args
  | .none | .query _ => []

def outermostOfArgumentList (p : ExprOf Q → Bool) : List (Argument (ExprOf Q)) → List (ExprOf Q)
  | [] => []
  | a :: rest => outermostOfArgument p a ++ outermostOfArgumentList p rest

def outermostOfArgument (p : ExprOf Q → Bool) : Argument (ExprOf Q) → List (ExprOf Q)
  | .value _ e => e.outermost p
  | .star _ | .tableStar _ _ => []

def outermostOfOrder (p : ExprOf Q → Bool) : List (OrderItem (ExprOf Q)) → List (ExprOf Q)
  | [] => []
  | o :: rest => outermostOfItem p o ++ outermostOfOrder p rest

def outermostOfItem (p : ExprOf Q → Bool) : OrderItem (ExprOf Q) → List (ExprOf Q)
  | ⟨e, _, _⟩ => e.outermost p

def outermostOfOver (p : ExprOf Q → Bool) : Option (Window (ExprOf Q)) → List (ExprOf Q)
  | some w => outermostOfWindow p w
  | none => []

def outermostOfWindow (p : ExprOf Q → Bool) : Window (ExprOf Q) → List (ExprOf Q)
  | .named _ => []
  | .spec _ partitionBy orderBy _ => outermostOfList p partitionBy ++ outermostOfOrder p orderBy

end

def ExprOf.isSubquery : ExprOf Q → Bool
  | .subquery _ | .exists .. | .inQuery .. => true
  | _ => false

def ExprOf.containsSubquery (e : ExprOf Q) : Bool :=
  !(e.outermost ExprOf.isSubquery).isEmpty

def ExprOf.call? : ExprOf Q → Option (Call (ExprOf Q))
  | .call c => some c
  | _ => none

def Call.isAggregate {E : Type} (c : Call E) : Bool :=
  c.window.isNone && (AggregateFunction.ofName? c.function).isSome

section

variable [Printed Q]

/-- Each call once; calls are told apart by their text. -/
def distinctCalls (calls : List (Call (ExprOf Q))) : List (Call (ExprOf Q)) :=
  (calls.foldl (fun (kept : List (String × Call (ExprOf Q))) c =>
    let key := ExprOf.key (.call c)
    if kept.any fun k => k.1 == key then kept else kept ++ [(key, c)]) []).map (·.2)

/-- The aggregates that some expressions call, windowed calls left out but not what they are
called on. -/
def aggregateCalls (es : List (ExprOf Q)) : List (Call (ExprOf Q)) :=
  distinctCalls <| es.flatMap fun e =>
    (e.outermost fun e => e.call?.any Call.isAggregate).filterMap ExprOf.call?

def windowCalls (es : List (ExprOf Q)) : List (Call (ExprOf Q)) :=
  distinctCalls <| es.flatMap fun e =>
    (e.outermost fun e => e.call?.any fun c => c.window.isSome).filterMap ExprOf.call?

end

def OrderItem.descends {E : Type} (o : OrderItem E) : Bool :=
  o.ascending == some false

end BatchPlan.Sql
