import TypeCatalog.Field

/-!
# Structures

Documents, records, objects and elements have fields, containers for nested structures, and
uniques: sets of fields whose values together occur once.

* `Structure.addContainer` keeps container names apart from each other and from field names.
* `Structure.addUnique` keeps the field sets of uniques from lying within each other.
-/

namespace TypeCatalog

/-! ## Containers -/

/-- A named and bounded slot for nested structures. -/
structure Container where
  name : String
  target : QName
  min : Occurs
  max : Occurs
  comment : Comment := none
  deriving DecidableEq, Repr

/-- A container whose bounds leave room for something. -/
def Container.make (name : String) (target : QName) (min max : Occurs) :
    Except DefinitionError Container :=
  if max.count = 0 then .error (.zeroMaxOccurs name)
  else if max.count < min.count then .error (.minAboveMax name min max)
  else .ok { name := name, target := target, min := min, max := max }

/-! ## Uniques -/

/-- A set of fields whose values together occur once among the records of a type. -/
structure Unique where
  name : QName
  /-- Names of its fields, in order of declaration. -/
  fields : List String
  deriving DecidableEq, Repr

def allAmong (names others : List String) : Bool := names.all others.contains

/-- Whether the fields of one unique lie within those of another, in either direction. -/
def Unique.overlaps (unique : Unique) (fields : List String) : Bool :=
  allAmong fields unique.fields || allAmong unique.fields fields

/-! ## Structures -/

/-- Body of a document, record, object or element. -/
structure Structure where
  /-- Fields, system fields first. -/
  fields : Fields
  /-- Containers, in order of declaration. -/
  containers : List Container := []
  /-- Uniques, in order of declaration. -/
  uniques : List Unique := []
  singleton : Bool := false

namespace Structure

/-- A structure that has the system fields of its kind only. -/
def ofKind (kind : TypeKind) : Structure := { fields := .ofKind kind }

def container? (s : Structure) (name : String) : Option Container :=
  s.containers.find? fun c => c.name == name

def unique? (s : Structure) (name : QName) : Option Unique :=
  s.uniques.find? fun u => u.name == name

def addField (s : Structure) (field : Field) (owner : TypeKind) (config : Config) :
    Except DefinitionError Structure := do
  return { s with fields := ← s.fields.push field owner config }

/-- Appends a container to a structure of kind `owner`. The kind of the type it holds is given if
that type is known already. -/
def addContainer (s : Structure) (container : Container) (owner : TypeKind)
    (child : Option TypeKind) (config : Config) : Except DefinitionError Structure := do
  checkIdentifier config.maxIdentLen container.name
  if (s.container? container.name).isSome then throw (.containerExists container.name)
  if s.fields.has container.name then throw (.containerNamedLikeField container.name)
  if config.maxContainers ≤ s.containers.length then
    throw (.tooManyContainers config.maxContainers)
  match child with
  | some child =>
    if !owner.mayContain child then
      throw (.containerMisfit container.name owner ⟨child, container.target⟩)
  | none => pure ()
  return { s with containers := s.containers ++ [container] }

/-- Changes the comment of the first container with the given name. -/
def setContainerComment (name : String) (comment : Comment) :
    List Container → Except DefinitionError (List Container)
  | [] => .error (.containerNotFound name)
  | container :: rest =>
    if container.name = name then .ok ({ container with comment := comment } :: rest)
    else (setContainerComment name comment rest).map (container :: ·)

/-- Appends a unique over fields that the structure has. -/
def addUnique (s : Structure) (name : QName) (fields : List String) (config : Config) :
    Except DefinitionError Structure := do
  if fields.isEmpty then throw (.uniqueFieldsMissing name)
  if config.maxUniqueFields < fields.length then
    throw (.tooManyUniqueFields name config.maxUniqueFields)
  if config.maxUniques ≤ s.uniques.length then throw (.tooManyUniques config.maxUniques)
  if !decide fields.Nodup then throw (.repeatedUniqueField name)
  match fields.find? fun f => !s.fields.has f with
  | some missing => throw (.uniqueFieldNotFound missing name)
  | none => pure ()
  match s.uniques.find? fun u => u.overlaps fields with
  | some other => throw (.overlappingUnique other.name name)
  | none => pure ()
  return { s with uniques := s.uniques ++ [⟨name, fields⟩] }

end Structure

end TypeCatalog
