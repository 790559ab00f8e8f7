import TypeCatalog.DefinitionError

/-!
# Rates and limits

A rate allows a number of events in a period. A limit applies a rate to operations on the types
that a selector selects.
-/

namespace TypeCatalog

/-- What the events of a rate are counted for. -/
inductive RateScope where
  | partition
  | workspace
  | user
  | address
  deriving DecidableEq, Repr

namespace RateScope

def text : RateScope → String
  | partition => "AppPartition"
  | workspace => "Workspace"
  | user => "User"
  | address => "IP"

instance : Enumeration RateScope where
  members := [partition, workspace, user, address]
  rank := RateScope.ctorIdx
  text := text
  rank_injective a b h := by rw [← RateScope.ofNat_ctorIdx a, ← RateScope.ofNat_ctorIdx b, h]

end RateScope

/-- A length of time. -/
structure Period where
  seconds : Nat
  nanoseconds : Nat
  deriving DecidableEq, Repr

def Period.isZero (period : Period) : Bool := period.seconds == 0 && period.nanoseconds == 0

/-- At most `count` events in a period. -/
structure Rate where
  count : Nat
  period : Period
  scopes : Std.ExtTreeSet RateScope

/-- A rate that allows something in some time. Without scopes, events are counted for each
partition of the application. -/
def Rate.make (count : Nat) (period : Period) (scopes : List RateScope) :
    Except DefinitionError Rate :=
  if count = 0 then .error .zeroRateCount
  else if period.isZero then .error .zeroRatePeriod
  else .ok ⟨count, period, .ofList (if scopes.isEmpty then [.partition] else scopes)⟩

/-- A rate for operations on selected types. -/
structure Limit where
  operations : OperationSet
  selector : Selector
  rate : QName

def Limit.make (operations : List Operation) (selector : Selector) (rate : QName) :
    Except DefinitionError Limit :=
  let operations : OperationSet := .ofList operations
  if operations.isEmpty then .error .limitOperationsMissing
  else match operations.toList.find? fun op => !op.isLimitable with
    | some op => .error (.unlimitable op)
    | none => if rate.isNull then .error .limitRateMissing else .ok ⟨operations, selector, rate⟩

end TypeCatalog
