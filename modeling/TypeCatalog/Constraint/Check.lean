import TypeCatalog.DefinitionError
import TypeCatalog.Pattern.Validity

/-!
# Constraints in order and in conflict

* `Constraint.check` asks whether one constraint applies to a kind of values and is well formed.
* `Constraint.conflicts` lists the contradictions within a list of constraints; of several
  constraints of one kind it looks at the first.
-/

namespace TypeCatalog

namespace Constraint

/-- Accepts constraints that apply to values of kind `data` and are well formed, where `isPattern`
says of texts whether they are regular expressions. -/
def check (c : Constraint) (data : DataKind) (isPattern : String → Bool := Pattern.isValid) :
    Except ConstraintFlaw Unit :=
  if !c.kind.appliesTo data then .error (.misfit c data)
  else match c with
    | maxLen length => if length = 0 then .error .zeroLength else .ok ()
    | pattern expression =>
      if isPattern expression then .ok () else .error (.badPattern expression)
    | minIncl bound | minExcl bound | maxIncl bound | maxExcl bound =>
      if bound.isNaN then .error (.boundNotANumber c) else .ok ()
    | enum values => if values.isEmpty then .error .noValues else .ok ()
    | minLen _ => .ok ()

/-- Accepts lists of constraints that all pass the check; the first that does not decides. -/
def checkAll (isPattern : String → Bool) (data : DataKind) :
    List Constraint → Except ConstraintFlaw Unit
  | [] => .ok ()
  | c :: rest =>
    match c.check data isPattern with
    | .ok _ => checkAll isPattern data rest
    | .error flaw => .error flaw

/-! ## Conflicts -/

/-- A contradiction within a list of constraints. -/
inductive Conflict where
  | lengths (min max : Nat)
  | bounds (low high : Float)
  | twoLowerBounds
  | twoUpperBounds
  deriving Repr

def Conflict.text : Conflict → String
  | lengths min max => "MinLen " ++ toString min ++ " exceeds MaxLen " ++ toString max
  | bounds low high =>
    "lower bound " ++ positionalText low ++ " is not below upper bound " ++ positionalText high
  | twoLowerBounds => "both MinIncl and MinExcl are set"
  | twoUpperBounds => "both MaxIncl and MaxExcl are set"

/-- The length that the constraint demands at least. -/
def minLength? : Constraint → Option Nat
  | minLen length => some length
  | _ => none

/-- The length that the constraint allows at most. -/
def maxLength? : Constraint → Option Nat
  | maxLen length => some length
  | _ => none

/-- The lower bound that the constraint sets, and whether it includes the bound. -/
def lowerBound? : Constraint → Option (Float × Bool)
  | minIncl bound => some (bound, true)
  | minExcl bound => some (bound, false)
  | _ => none

/-- The upper bound that the constraint sets, and whether it includes the bound. -/
def upperBound? : Constraint → Option (Float × Bool)
  | maxIncl bound => some (bound, true)
  | maxExcl bound => some (bound, false)
  | _ => none

def lengthConflict (cs : List Constraint) : List Conflict :=
  match cs.findSome? minLength?, cs.findSome? maxLength? with
  | some min, some max => if max < min then [.lengths min max] else []
  | _, _ => []

def boundConflict (cs : List Constraint) : List Conflict :=
  match cs.findSome? lowerBound?, cs.findSome? upperBound? with
  | some (low, lowIncluded), some (high, highIncluded) =>
    let nothingBetween : Bool := if lowIncluded && highIncluded then high < low else high ≤ low
    if nothingBetween then [.bounds low high] else []
  | _, _ => []

/-- Whether a list has a constraint of the given kind. -/
def hasKind (cs : List Constraint) (kind : ConstraintKind) : Bool := cs.any fun c => c.kind == kind

def conflicts (cs : List Constraint) : List Conflict :=
  lengthConflict cs ++ boundConflict cs
    ++ (if hasKind cs .minIncl && hasKind cs .minExcl then [.twoLowerBounds] else [])
    ++ (if hasKind cs .maxIncl && hasKind cs .maxExcl then [.twoUpperBounds] else [])

end Constraint

end TypeCatalog
