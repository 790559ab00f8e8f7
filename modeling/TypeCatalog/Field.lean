import TypeCatalog.Comment
import TypeCatalog.Config
import TypeCatalog.Constraint.Check
import TypeCatalog.Identifier

/-!
# Fields

A field has a name, a data type and the kind of its values. A list of fields starts with the
system fields of the type it belongs to; names occur once.

* `Fields.ofKind` is the list that a new type starts with.
* `Fields.push` appends a field, `Fields.update` changes one in place.
-/

namespace TypeCatalog

/-- How a user may verify the value of a field. -/
inductive Verification where
  | email
  | phone
  deriving DecidableEq, Repr

namespace Verification

def text : Verification → String
  | email => "EMail"
  | phone => "Phone"

instance : Enumeration Verification where
  members := [email, phone]
  rank := Verification.ctorIdx
  text := text
  rank_injective a b h := by
    rw [← Verification.ofNat_ctorIdx a, ← Verification.ofNat_ctorIdx b, h]

end Verification

/-- A field of a structure or view. -/
structure Field where
  name : String
  data : QName
  kind : DataKind
  required : Bool
  verifications : Std.ExtTreeSet Verification := ∅
  constraints : List Constraint := []
  /-- For references, the types referred to; none of them means any record. -/
  targets : Option NameSet := none
  comment : Comment := none

namespace Field

def ofKind (name : String) (kind : DataKind) (required : Bool) : Field where
  name := name
  data := kind.sysName
  kind := kind
  required := required

def ofData (name : String) (data : QName) (kind : DataKind) (required : Bool) : Field where
  name := name
  data := data
  kind := kind
  required := required

/-- A reference to records of the given types, or of any type if none is given. -/
def reference (name : String) (required : Bool) (targets : List QName) : Field :=
  { ofKind name .recordID required with targets := some (.ofList targets) }

def ofSystem (field : SystemField) : Field := ofKind field.name field.kind field.required

/-- Whether the field is a system field, which its name tells. -/
def isSystem (field : Field) : Bool :=
  SystemField.namePrefix.toList.isPrefixOf field.name.toList

def isFixedWidth (field : Field) : Bool := field.kind.isFixedWidth

def isReference (field : Field) : Bool := field.targets.isSome

def targetList (field : Field) : List QName :=
  match field.targets with
  | some targets => targets.toList
  | none => []

/-- Whether the field may refer to records of the given type. -/
def mayReferTo (field : Field) (target : QName) : Bool :=
  match field.targets with
  | some targets => targets.isEmpty || targets.contains target
  | none => false

/-- The field with other constraints, if they all fit its kind. -/
def setConstraints (field : Field) (isPattern : String → Bool) (constraints : List Constraint) :
    Except DefinitionError Field :=
  match Constraint.checkAll isPattern field.kind constraints with
  | .ok _ => .ok { field with constraints := constraints }
  | .error flaw => .error (.fieldConstraint field.name flaw)

/-- The field with other ways of verification, if it holds texts. -/
def setVerifications (field : Field) (ways : List Verification) : Except DefinitionError Field :=
  if field.kind = .string then .ok { field with verifications := .ofList ways }
  else .error (.verificationMisfit field.name field.kind)

end Field

/-- Fields in order of declaration, system fields first. -/
abbrev Fields := List Field

namespace Fields

def ofKind (kind : TypeKind) : Fields := kind.systemFields.map Field.ofSystem

def get? (fields : Fields) (name : String) : Option Field := fields.find? fun f => f.name == name

def has (fields : Fields) (name : String) : Bool := (fields.get? name).isSome

def names (fields : Fields) : List String := fields.map Field.name

def ofUser (fields : Fields) : Fields := fields.filter fun f => !f.isSystem

def references (fields : Fields) : Fields := fields.filter Field.isReference

/-- Appends a field to those of a type of kind `owner`. -/
def push (fields : Fields) (field : Field) (owner : TypeKind) (config : Config) :
    Except DefinitionError Fields := do
  checkIdentifier config.maxIdentLen field.name
  if fields.has field.name then throw (.fieldExists field.name)
  if config.maxFields ≤ fields.length then throw (.tooManyFields config.maxFields)
  if !owner.mayHold field.kind then throw (.fieldMisfit field.name field.kind owner)
  return fields ++ [field]

/-- Changes the first field with the given name. -/
def update (name : String) (change : Field → Except DefinitionError Field) :
    Fields → Except DefinitionError Fields
  | [] => .error (.fieldNotFound name)
  | field :: rest =>
    if field.name = name then (change field).map (· :: rest)
    else (update name change rest).map (field :: ·)

end Fields

end TypeCatalog
