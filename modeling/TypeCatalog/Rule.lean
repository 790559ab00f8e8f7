import TypeCatalog.TypeDef

/-!
# Access rules

A rule grants operations on selected types to a role, or revokes them. It may be narrowed to some
fields.

* `Rule.checkShape` asks whether operations, policy and fields go together.
* `Rule.checkOn` asks whether operations and fields go with one of the selected types.
-/

namespace TypeCatalog

/-- One statement in the list of access rules. -/
structure Rule where
  position : Nat
  policy : Policy
  operations : OperationSet
  selector : Selector
  /-- The fields; none of them means all. -/
  fields : List String
  principal : QName
  workspace : QName
  comment : Comment := none

namespace Rule

def text (rule : Rule) : String :=
  let operations := " ".intercalate (rule.operations.toList.map Operation.text)
  let fields := if rule.fields.isEmpty then "" else "(" ++ ", ".intercalate rule.fields ++ ")"
  rule.policy.verb ++ " [" ++ operations ++ "] ON " ++ rule.selector.text ++ fields ++ " "
    ++ rule.policy.preposition ++ " " ++ rule.principal.text

/-- Accepts operations, if there are any, that go with each other, the policy and the fields. -/
def checkShape (policy : Policy) (operations : OperationSet) (fields : List String) :
    Except DefinitionError Unit := do
  if operations.isEmpty then throw .ruleOperationsMissing
  if operations.contains .inherits then
    if 1 < operations.size then throw .inheritsMixed
    if policy = .deny then throw .revokedInherits
  if !fields.isEmpty then
    match operations.toList.find? fun op => !op.hasFields with
    | some op => throw (.operationWithFields op)
    | none => pure ()

/-- Accepts types that all the operations apply to and that have all the fields, unless they have
no fields at all. -/
def checkOn (operations : OperationSet) (fields : List String) (t : TypeDef) :
    Except DefinitionError Unit := do
  if t.kind.operations.isEmpty then throw (.notAResource t.ref)
  match operations.toList.find? fun op => !t.kind.operations.contains op with
  | some op => throw (.operationMisfit op t.ref)
  | none => pure ()
  match t.fields? with
  | some known =>
    match fields.find? fun f => !known.has f with
    | some missing => throw (.ruleFieldNotFound missing t.ref)
    | none => pure ()
  | none => pure ()

/-- Accepts types that are all accepted; the first that is not decides. -/
def checkOnAll (operations : OperationSet) (fields : List String) :
    List TypeDef → Except DefinitionError Unit
  | [] => .ok ()
  | t :: rest => do
    checkOn operations fields t
    checkOnAll operations fields rest

end Rule

end TypeCatalog
