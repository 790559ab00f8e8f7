import TypeCatalog.Decimal.Text
import TypeCatalog.Kind

/-!
# Constraints on values

* `Constraint` is one condition on the values of a field or data type.
* `Constraint.overlay` lays a type's own constraints over inherited ones: where a kind is
  declared anew, all inherited constraints of that kind go, and the result is in kind order.
-/

namespace TypeCatalog

/-- A condition on the values of a field or data type. -/
inductive Constraint where
  | minLen (length : Nat)
  | maxLen (length : Nat)
  | pattern (expression : String)
  | minIncl (bound : Float)
  | minExcl (bound : Float)
  | maxIncl (bound : Float)
  | maxExcl (bound : Float)
  | enum (values : List String)
  deriving Repr

/-- Kind of a constraint. -/
inductive ConstraintKind where
  | minLen
  | maxLen
  | pattern
  | minIncl
  | minExcl
  | maxIncl
  | maxExcl
  | enum
  deriving DecidableEq, Repr

namespace ConstraintKind

def text : ConstraintKind → String
  | minLen => "MinLen"
  | maxLen => "MaxLen"
  | pattern => "Pattern"
  | minIncl => "MinIncl"
  | minExcl => "MinExcl"
  | maxIncl => "MaxIncl"
  | maxExcl => "MaxExcl"
  | enum => "Enum"

instance : Enumeration ConstraintKind where
  members := [minLen, maxLen, pattern, minIncl, minExcl, maxIncl, maxExcl, enum]
  rank := ConstraintKind.ctorIdx
  text := text
  rank_injective a b h := by
    rw [← ConstraintKind.ofNat_ctorIdx a, ← ConstraintKind.ofNat_ctorIdx b, h]

instance : ToString ConstraintKind := ⟨text⟩

/-- Whether constraints of this kind apply to values of kind `data`. -/
def appliesTo (kind : ConstraintKind) (data : DataKind) : Bool :=
  match kind with
  | minLen | maxLen | pattern => data.isStringLike
  | minIncl | minExcl | maxIncl | maxExcl => data.isNumeric
  | enum => data == .string || data.isNumeric

end ConstraintKind

namespace Constraint

def kind : Constraint → ConstraintKind
  | minLen _ => .minLen
  | maxLen _ => .maxLen
  | pattern _ => .pattern
  | minIncl _ => .minIncl
  | minExcl _ => .minExcl
  | maxIncl _ => .maxIncl
  | maxExcl _ => .maxExcl
  | enum _ => .enum

/-- The written form of the bound, expression or values. -/
def valueText : Constraint → String
  | minLen length | maxLen length => toString length
  | pattern expression => "`" ++ expression ++ "`"
  | minIncl bound | minExcl bound | maxIncl bound | maxExcl bound => positionalText bound
  | enum values => "[" ++ ", ".intercalate values ++ "]"

def text (c : Constraint) : String := c.kind.text ++ ": " ++ c.valueText

instance : ToString Constraint := ⟨text⟩

/-- Whether one constraint comes no later than another in kind order. -/
def kindLe (a b : Constraint) : Bool := (compare a.kind b.kind).isLE

/-- Lays `own` constraints over `inherited` ones, kind by kind. -/
def overlay (inherited own : List Constraint) : List Constraint :=
  ((inherited.filter fun c => !own.any fun o => o.kind == c.kind) ++ own).mergeSort kindLe

end Constraint

end TypeCatalog
