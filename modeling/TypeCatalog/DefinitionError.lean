import TypeCatalog.Constraint.Basic
import TypeCatalog.Occurs
import TypeCatalog.Operation
import TypeCatalog.Selector

/-!
# Errors of definitions

Every way in which a definition can be refused is a constructor of `DefinitionError` that carries
what the refusal is about.

* `DefinitionError.kind` sorts refusals into the classes of `ErrorKind`.
* `DefinitionError.message` is the one place where they are worded.
-/

namespace TypeCatalog

/-- Class of a definition error or of a problem found by validation. -/
inductive ErrorKind where
  | missing
  | invalidName
  | alreadyExists
  | notFound
  | invalid
  | incompatible
  /-- A number is outside its range. -/
  | outOfBounds
  | tooMany
  | unsupported
  | empty
  | cycle
  deriving DecidableEq, Repr

namespace ErrorKind

def text : ErrorKind → String
  | missing => "missing"
  | invalidName => "invalid name"
  | alreadyExists => "already exists"
  | notFound => "not found"
  | invalid => "invalid"
  | incompatible => "incompatible"
  | outOfBounds => "out of bounds"
  | tooMany => "too many"
  | unsupported => "unsupported"
  | empty => "empty"
  | cycle => "cycle"

instance : Enumeration ErrorKind where
  members := [missing, invalidName, alreadyExists, notFound, invalid, incompatible, outOfBounds,
    tooMany, unsupported, empty, cycle]
  rank := ErrorKind.ctorIdx
  text := text
  rank_injective a b h := by rw [← ErrorKind.ofNat_ctorIdx a, ← ErrorKind.ofNat_ctorIdx b, h]

instance : ToString ErrorKind := ⟨text⟩

def about (kind : ErrorKind) (subject : String) : String :=
  match kind with
  | missing => subject ++ " is missing"
  | invalidName => "invalid name " ++ subject
  | alreadyExists => subject ++ " already exists"
  | notFound => subject ++ " not found"
  | invalid => subject ++ " is invalid"
  | incompatible => "incompatible " ++ subject
  | outOfBounds => subject ++ " is out of bounds"
  | tooMany => "too many " ++ subject
  | unsupported => "unsupported " ++ subject
  | empty => subject ++ " is empty"
  | cycle => "circular inheritance: " ++ subject

end ErrorKind

def quoted (text : String) : String := "«" ++ text ++ "»"

/-- What identifies a type in a message: its kind and its name. -/
structure TypeRef where
  kind : TypeKind
  name : QName
  deriving DecidableEq, Repr

def TypeRef.text (t : TypeRef) : String := t.kind.text ++ " " ++ quoted t.name.text

/-! ## What can be wrong with names and constraints -/

/-- What is wrong with a name. -/
inductive NameFlaw where
  /-- It is longer than the limit, in bytes. -/
  | tooLong (limit : Nat)
  | badStart
  | badCharacter (character : Char)
  | partMissing
  | notTwoParts
  deriving DecidableEq, Repr

def NameFlaw.text : NameFlaw → String
  | tooLong limit => "longer than " ++ toString limit ++ " characters"
  | badStart => "must start with a letter or underscore"
  | badCharacter character => "unexpected character " ++ quoted (String.singleton character)
  | partMissing => "package and entity must be set"
  | notTwoParts => "expected exactly one «.» between package and entity"

/-- What is wrong with a constraint. -/
inductive ConstraintFlaw where
  | misfit (constraint : Constraint) (data : DataKind)
  | zeroLength
  | badPattern (expression : String)
  | boundNotANumber (constraint : Constraint)
  | noValues
  deriving Repr

namespace ConstraintFlaw

def kind : ConstraintFlaw → ErrorKind
  | misfit .. => .incompatible
  | zeroLength => .outOfBounds
  | badPattern _ | boundNotANumber _ => .invalid
  | noValues => .missing

def subject : ConstraintFlaw → String
  | misfit constraint data => "constraint " ++ constraint.text ++ " and data kind " ++ data.text
  | zeroLength => "constraint " ++ (Constraint.maxLen 0).text ++ ", expected 1..=65535"
  | badPattern expression => "pattern " ++ quoted expression ++ ": <regex error>"
  | boundNotANumber constraint => "constraint " ++ constraint.text
  | noValues => "values of constraint " ++ (Constraint.enum []).text

def message (flaw : ConstraintFlaw) : String := flaw.kind.about flaw.subject

end ConstraintFlaw

/-! ## Refusals -/

/-- What a name was expected to stand for. -/
inductive Expected where
  | workspace
  | dataType
  | structured
  | function
  | projector
  | job
  | extension
  deriving DecidableEq, Repr

def Expected.text : Expected → String
  | workspace => "workspace"
  | dataType => "data type"
  | structured => "structure"
  | function => "function"
  | projector => "projector"
  | job => "job"
  | extension => "extension"

/-- Why a definition was refused. -/
inductive DefinitionError where
  | identifierMissing
  | nameMissing
  | packagePathMissing (pkg : String)
  | uniqueFieldsMissing (unique : QName)
  | limitOperationsMissing
  | limitRateMissing
  | ancestorsMissing (workspace : QName)
  | ruleOperationsMissing
  | eventOperationsMissing (projector : QName)
  | invalidName (name : String) (flaw : NameFlaw)
  | packageBound (pkg path : String)
  | pathBound (path pkg : String)
  | typeExists (name : QName)
  | nameExists (name : QName)
  | fieldExists (field : String)
  | containerExists (container : String)
  | containerNamedLikeField (name : String)
  | repeatedUniqueField (unique : QName)
  | overlappingUnique (other unique : QName)
  | typeNotFound (name : QName)
  | workspaceNotFound (name : QName)
  | dataTypeNotFound (name : QName)
  | descriptorNotFound (descriptor workspace : QName)
  | tagNotFound (tag : QName)
  | roleNotFound (role : QName)
  | fieldNotFound (field : String)
  | containerNotFound (container : String)
  | storageNotFound (storage : QName)
  | uniqueFieldNotFound (field : String) (unique : QName)
  | ruleFieldNotFound (field : String) (resource : TypeRef)
  | nothingSelected (selector : Selector)
  /-- A constraint is not in order. -/
  | constraint (flaw : ConstraintFlaw)
  /-- A constraint of a field is not in order. -/
  | fieldConstraint (field : String) (flaw : ConstraintFlaw)
  | fieldMisfit (field : String) (data : DataKind) (owner : TypeKind)
  | containerMisfit (container : String) (owner : TypeKind) (child : TypeRef)
  | variablePartitionField (field : String) (data : DataKind)
  | keyFieldMisfit (field : String) (data : DataKind)
  | unexpectedType (found : TypeRef) (expected : Expected)
  | viewExpected (name : QName)
  | descriptorMisfit (found : TypeRef)
  | ancestorMisfit (data : DataKind) (ancestor : QName) (found : DataKind)
  | inheritsMixed
  | operationWithFields (operation : Operation)
  | operationMisfit (operation : Operation) (resource : TypeRef)
  | verificationMisfit (field : String) (data : DataKind)
  | zeroMaxOccurs (container : String)
  | minAboveMax (container : String) (min max : Occurs)
  | zeroRateCount
  | zeroRatePeriod
  | tooManyFields (limit : Nat)
  | tooManyContainers (limit : Nat)
  | tooManyUniques (limit : Nat)
  | tooManyUniqueFields (unique : QName) (limit : Nat)
  | unlimitable (operation : Operation)
  | revokedInherits
  | notAResource (found : TypeRef)
  | kindNotAResource (kind : TypeKind)
  | singletonMisfit (kind : TypeKind)
  | unloggedParamMisfit (kind : TypeKind)
  | circularInheritance (workspace ancestor : QName)

namespace DefinitionError

def kind : DefinitionError → ErrorKind
  | identifierMissing | nameMissing | packagePathMissing _ | uniqueFieldsMissing _
  | limitOperationsMissing | limitRateMissing | ancestorsMissing _ | ruleOperationsMissing
  | eventOperationsMissing _ => .missing
  | invalidName .. => .invalidName
  | packageBound .. | pathBound .. | typeExists _ | nameExists _ | fieldExists _
  | containerExists _ | containerNamedLikeField _ | repeatedUniqueField _
  | overlappingUnique .. => .alreadyExists
  | typeNotFound _ | workspaceNotFound _ | dataTypeNotFound _ | descriptorNotFound ..
  | tagNotFound _ | roleNotFound _ | fieldNotFound _ | containerNotFound _ | storageNotFound _
  | uniqueFieldNotFound .. | ruleFieldNotFound .. | nothingSelected _ => .notFound
  | constraint flaw => flaw.kind
  | fieldConstraint .. => .invalid
  | fieldMisfit .. | containerMisfit .. | variablePartitionField .. | keyFieldMisfit ..
  | unexpectedType .. | viewExpected _ | descriptorMisfit _ | ancestorMisfit .. | inheritsMixed
  | operationWithFields _ | operationMisfit .. | verificationMisfit .. => .incompatible
  | zeroMaxOccurs _ | minAboveMax .. | zeroRateCount | zeroRatePeriod => .outOfBounds
  | tooManyFields _ | tooManyContainers _ | tooManyUniques _ | tooManyUniqueFields .. => .tooMany
  | unlimitable _ | revokedInherits | notAResource _ | kindNotAResource _ | singletonMisfit _
  | unloggedParamMisfit _ => .unsupported
  | circularInheritance .. => .cycle

def atMost (what : String) (limit : Nat) : String :=
  what ++ ", at most " ++ toString limit ++ " allowed"

def subject : DefinitionError → String
  | identifierMissing => "identifier"
  | nameMissing => "qualified name"
  | packagePathMissing pkg => "path of package " ++ quoted pkg
  | uniqueFieldsMissing unique => "fields of unique " ++ quoted unique.text
  | limitOperationsMissing => "limit operations"
  | limitRateMissing => "limit rate"
  | ancestorsMissing workspace => "ancestors of workspace " ++ quoted workspace.text
  | ruleOperationsMissing => "ACL rule operations"
  | eventOperationsMissing projector =>
    "operations of projector " ++ quoted projector.text ++ " event"
  | invalidName name flaw => quoted name ++ ": " ++ flaw.text
  | packageBound pkg path => "package " ++ quoted pkg ++ " bound to path " ++ quoted path
  | pathBound path pkg => "package path " ++ quoted path ++ " bound to local name " ++ quoted pkg
  | typeExists name => "type " ++ quoted name.text
  | nameExists name => "name " ++ quoted name.text
  | fieldExists field => "field " ++ quoted field
  | containerExists container => "container " ++ quoted container
  | containerNamedLikeField name =>
    "field " ++ quoted name ++ ", container can not use the same name"
  | repeatedUniqueField unique => "duplicated field in unique " ++ quoted unique.text
  | overlappingUnique other unique =>
    "unique " ++ quoted other.text ++ " overlapping fields of unique " ++ quoted unique.text
  | typeNotFound name => "type " ++ quoted name.text
  | workspaceNotFound name => "workspace " ++ quoted name.text
  | dataTypeNotFound name => "data type " ++ quoted name.text
  | descriptorNotFound descriptor workspace =>
    "descriptor " ++ quoted descriptor.text ++ " in workspace " ++ quoted workspace.text
  | tagNotFound tag => "tag " ++ quoted tag.text
  | roleNotFound role => "role " ++ quoted role.text
  | fieldNotFound field => "field " ++ quoted field
  | containerNotFound container => "container " ++ quoted container
  | storageNotFound storage => "storage " ++ quoted storage.text
  | uniqueFieldNotFound field unique =>
    "field " ++ quoted field ++ " of unique " ++ quoted unique.text
  | ruleFieldNotFound field resource => "field " ++ quoted field ++ " in " ++ resource.text
  | nothingSelected selector => "types matching " ++ selector.text
  | constraint flaw => flaw.subject
  | fieldConstraint field flaw => "field " ++ quoted field ++ ": " ++ flaw.message
  | fieldMisfit field data owner =>
    "field " ++ quoted field ++ " data kind " ++ data.text ++ " and type kind " ++ owner.text
  | containerMisfit container owner child =>
    "container " ++ quoted container ++ ": " ++ owner.text ++ " can not contain " ++ child.text
  | variablePartitionField field data =>
    "partition key field " ++ quoted field ++ " of variable width kind " ++ data.text
  | keyFieldMisfit field data => "key field " ++ quoted field ++ " of kind " ++ data.text
  | unexpectedType found expected => found.text ++ ", " ++ expected.text ++ " expected"
  | viewExpected name => quoted name.text ++ ", view expected"
  | descriptorMisfit found => "descriptor " ++ found.text ++ ", CDoc expected"
  | ancestorMisfit data ancestor found =>
    "data kind " ++ data.text ++ " and ancestor " ++ quoted ancestor.text ++ " of kind "
      ++ found.text
  | inheritsMixed => "operations: Inherits can not be mixed with other operations"
  | operationWithFields operation => "operation " ++ operation.text ++ " with fields"
  | operationMisfit operation resource =>
    "operation " ++ operation.text ++ " and " ++ resource.text
  | verificationMisfit field data =>
    "verification of field " ++ quoted field ++ " of kind " ++ data.text
  | zeroMaxOccurs container =>
    "max occurs of container " ++ quoted container ++ ", must be positive"
  | minAboveMax container min max =>
    "min occurs " ++ min.text ++ " of container " ++ quoted container
      ++ ", must not exceed max occurs " ++ max.text
  | zeroRateCount => "rate count 0"
  | zeroRatePeriod => "zero rate period"
  | tooManyFields limit => atMost "fields" limit
  | tooManyContainers limit => atMost "containers" limit
  | tooManyUniques limit => atMost "uniques" limit
  | tooManyUniqueFields unique limit => atMost ("fields in unique " ++ quoted unique.text) limit
  | unlimitable operation => "limited operation " ++ operation.text
  | revokedInherits => "revoking Inherits"
  | notAResource found => found.text ++ " as ACL resource"
  | kindNotAResource kind => kind.text ++ " as ACL resource"
  | singletonMisfit kind => "singleton " ++ kind.text
  | unloggedParamMisfit kind => "unlogged parameter for " ++ kind.text
  | circularInheritance workspace ancestor =>
    "ancestor " ++ quoted ancestor.text ++ " already inherits from " ++ quoted workspace.text

def message (error : DefinitionError) : String := error.kind.about error.subject

end DefinitionError

end TypeCatalog
