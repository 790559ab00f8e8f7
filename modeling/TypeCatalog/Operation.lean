import TypeCatalog.Kind

/-!
# Operations governed by access rules

* `TypeKind.operations` lists what can be done with resources of a kind.
* `TypeKind.defaultOperations` lists what a blanket grant or revoke stands for.
-/

namespace TypeCatalog

/-- An operation governed by access rules. -/
inductive Operation where
  | insert
  | update
  | select
  | activate
  | deactivate
  | execute
  | inherits
  deriving DecidableEq, Repr

namespace Operation

def text : Operation → String
  | insert => "Insert"
  | update => "Update"
  | select => "Select"
  | activate => "Activate"
  | deactivate => "Deactivate"
  | execute => "Execute"
  | inherits => "Inherits"

instance : Enumeration Operation where
  members := [insert, update, select, activate, deactivate, execute, inherits]
  rank := Operation.ctorIdx
  text := text
  rank_injective a b h := by rw [← Operation.ofNat_ctorIdx a, ← Operation.ofNat_ctorIdx b, h]

instance : ToString Operation := ⟨text⟩

/-- Whether the operation may be narrowed to single fields. -/
def hasFields : Operation → Bool
  | insert | update | select => true
  | _ => false

def isLimitable : Operation → Bool
  | inherits => false
  | _ => true

end Operation

abbrev OperationSet := Std.ExtTreeSet Operation

/-- Operations that apply to resources of a kind, in order. -/
def TypeKind.operations (kind : TypeKind) : List Operation :=
  if kind.isActivable then [.insert, .update, .select, .activate, .deactivate]
  else if kind.isStructure then [.insert, .update, .select]
  else if kind = .view then [.select]
  else if kind.isFunction then [.execute]
  else if kind = .role then [.inherits]
  else []

/-- Operations a blanket rule stands for: those of the kind, without switching on and off. -/
def TypeKind.defaultOperations (kind : TypeKind) : List Operation :=
  if kind.isActivable then kind.operations.take 3 else kind.operations

/-- Effect of an access rule. -/
inductive Policy where
  | allow
  | deny
  deriving DecidableEq, Repr

namespace Policy

def text : Policy → String
  | allow => "Allow"
  | deny => "Deny"

instance : Enumeration Policy where
  members := [allow, deny]
  rank := Policy.ctorIdx
  text := text
  rank_injective a b h := by rw [← Policy.ofNat_ctorIdx a, ← Policy.ofNat_ctorIdx b, h]

def verb : Policy → String
  | allow => "GRANT"
  | deny => "REVOKE"

/-- The word before the role in a rule's written statement. -/
def preposition : Policy → String
  | allow => "TO"
  | deny => "FROM"

end Policy

end TypeCatalog
