import TypeCatalog.Rule
import TypeCatalog.Saturation

/-!
# Access queries

A query asks whether some roles may perform an operation on a resource. The rules in scope are
gone through in order of declaration: a grant adds to what is allowed and a revoke takes from it,
so that for each field the last rule about it decides.

* `Scope` is the part of a catalog that a query looks at.
* `Scope.expand` adds to some roles all roles that they inherit.
* `Scope.verdict` goes through the rules, `Scope.query` answers a query and `Scope.published` lists
  all that a role may do.
-/

namespace TypeCatalog

/-! ## Answers -/

/-- Why a query has no answer. -/
inductive AccessError where
  | resourceNotFound (resource : QName)
  | incompatibleResource (operation : Operation) (resource : TypeRef)
  | unsupportedOperation (operation : Operation)
  | fieldNotFound (resource : QName) (field : String)
  | missingPrincipals
  | roleNotFound (role : QName)
  deriving DecidableEq, Repr

def AccessError.message : AccessError → String
  | resourceNotFound resource => "resource " ++ quoted resource.text ++ " not found"
  | incompatibleResource operation resource =>
    "operation " ++ operation.text ++ " is not applicable to " ++ resource.text
  | unsupportedOperation operation =>
    "operation " ++ operation.text ++ " is not supported by ACL queries"
  | fieldNotFound resource field =>
    "field " ++ quoted field ++ " not found in " ++ quoted resource.text
  | missingPrincipals => "principals are missing"
  | roleNotFound role => "role " ++ quoted role.text ++ " not found"

/-- Answer to a query. -/
structure Access where
  allowed : Bool
  /-- The allowed fields in the order of the resource, unless it has no fields at all. -/
  fields : Option (List String)
  deriving DecidableEq, Repr

/-- The operations that a role may perform on a type. An operation that is allowed on some fields
only comes with these fields. -/
structure Publication where
  type : TypeDef
  operations : List (Operation × Option (List String))

/-- The part of a catalog that a query looks at. -/
structure Scope where
  /-- The type with a given name, or the type that is not there. -/
  resolve : QName → TypeDef
  roles : List TypeDef
  /-- The rules, in order of declaration. -/
  rules : List Rule
  logsDenials : Bool

/-! ## Going through the rules -/

/-- What is allowed after some of the rules. -/
structure Verdict where
  allowed : Bool := false
  fields : Std.ExtTreeSet String := ∅

def TypeDef.fieldNames (t : TypeDef) : List String :=
  match t.fields? with
  | some fields => Fields.names fields
  | none => []

/-- What is allowed on a type after one more rule. A grant or revoke without fields is about all
of them; a revoke of fields leaves the operation allowed as long as some field is. -/
def Verdict.apply (t : TypeDef) (verdict : Verdict) (rule : Rule) : Verdict :=
  match rule.policy, rule.fields with
  | .allow, [] => ⟨true, verdict.fields.insertMany t.fieldNames⟩
  | .allow, fields => ⟨true, verdict.fields.insertMany fields⟩
  | .deny, [] => ⟨false, ∅⟩
  | .deny, fields =>
    let left := verdict.fields.eraseMany fields
    ⟨!left.isEmpty, left⟩

namespace Scope

/-- Whether a rule is about an operation on a type by one of some roles. -/
def applies (operation : Operation) (t : TypeDef) (roles : NameSet) (rule : Rule) : Bool :=
  rule.operations.contains operation && roles.contains rule.principal && rule.selector.selects t

def verdict (scope : Scope) (operation : Operation) (t : TypeDef) (roles : NameSet) : Verdict :=
  (scope.rules.filter (applies operation t roles)).foldl (Verdict.apply t) {}

/-! ## Roles -/

def inherited (scope : Scope) (role : QName) : List QName :=
  (scope.rules.filter fun rule => rule.policy == .allow && rule.operations.contains .inherits
    && rule.principal == role).flatMap
      fun rule => (rule.selector.select scope.roles).map TypeDef.name

/-- Some roles with all roles that they inherit, directly or not. -/
def expand (scope : Scope) (roles : List QName) : NameSet :=
  saturate scope.inherited scope.roles.length (.ofList roles)

/-! ## Queries -/

def checkQuery (scope : Scope) (operation : Operation) (resource : QName) (fields : List String)
    (principals : List QName) : Except AccessError TypeDef := do
  if operation = .inherits then throw (.unsupportedOperation operation)
  let t := scope.resolve resource
  if t.isNull then throw (.resourceNotFound resource)
  if !t.kind.operations.contains operation then
    throw (.incompatibleResource operation ⟨t.kind, resource⟩)
  match fields.find? fun f => !t.hasField f with
  | some missing => throw (.fieldNotFound resource missing)
  | none => pure ()
  if principals.isEmpty then throw .missingPrincipals
  match principals.find? fun p => (scope.resolve p).kind != .role with
  | some unknown => throw (.roleNotFound unknown)
  | none => return t

/-- The allowed ones among the fields of a type, in order. -/
def allowedFields (t : TypeDef) (verdict : Verdict) : Option (List String) :=
  t.fields?.map fun fields => (Fields.names fields).filter verdict.fields.contains

/-- Whether some roles may together perform an operation on all the given fields of a resource. -/
def query (scope : Scope) (operation : Operation) (resource : QName) (fields : List String)
    (principals : List QName) : Except AccessError Access := do
  let t ← scope.checkQuery operation resource fields principals
  let verdict := scope.verdict operation t (scope.expand principals)
  return ⟨verdict.allowed && fields.all verdict.fields.contains, allowedFields t verdict⟩

def reports (scope : Scope) (access : Access) : Bool := !access.allowed && scope.logsDenials

/-! ## Publication -/

def isPublished (kind : TypeKind) : Bool :=
  kind.isRecord || kind.isFunction || kind == .object || kind == .view

/-- The fields that an operation is published with: none if it has no fields or if it is allowed
on all of them. -/
def publishedFields (operation : Operation) (t : TypeDef) (verdict : Verdict) :
    Option (List String) :=
  if operation.hasFields && !t.fieldNames.all verdict.fields.contains then
    allowedFields t verdict
  else none

/-- The operations that some roles may perform on a type. -/
def publishedOperations (scope : Scope) (roles : NameSet) (t : TypeDef) :
    List (Operation × Option (List String)) :=
  t.kind.operations.filterMap fun operation =>
    let verdict := scope.verdict operation t roles
    if verdict.allowed then some (operation, publishedFields operation t verdict) else none

/-- What a role may do with some types; types that it may do nothing with are left out. -/
def published (scope : Scope) (types : List TypeDef) (role : QName) : List Publication :=
  let roles := scope.expand [role]
  (types.filter fun t => isPublished t.kind).filterMap fun t =>
    match scope.publishedOperations roles t with
    | [] => none
    | operations => some ⟨t, operations⟩

end Scope

end TypeCatalog
