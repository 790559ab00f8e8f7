import TypeCatalog.Packages
import TypeCatalog.Rule
import TypeCatalog.TypeTable

/-!
# Drafts

A draft is a catalog that is still being defined: packages, types, uniques and access rules. Types
refer to each other by name only.

* `Draft.initial` holds the system package, the root workspace and the system data types.
* `Build` is the monad of changes to a draft. A change that fails leaves the draft as it was at
  the moment of the failure, so that no change is lost by construction.
* Names of types and uniques come from one name space (`Draft.isBound`).
-/

namespace TypeCatalog

/-- A catalog that is being defined. -/
structure Draft where
  config : Config
  packages : Packages
  types : TypeTable
  uniques : NameMap QName := ∅
  /-- Access rules, in order of declaration. -/
  rules : List Rule := []

/-- Changes of a draft, which may fail. -/
abbrev Build := EStateM DefinitionError Draft

/-- A check that comes before a change. -/
instance : MonadLift (Except DefinitionError) Build where
  monadLift
    | .ok a => pure a
    | .error error => throw error

namespace Draft

def sysData (kind : DataKind) : TypeDef where
  name := kind.sysName
  kind := .data
  workspace := .sysWorkspace
  body := .data { kind := kind }

/-- The root workspace, which declares itself and the system data types. -/
def root : TypeDef where
  name := .sysWorkspace
  kind := .workspace
  workspace := .sysWorkspace
  body := .workspace
    { locals := .ofList (.sysWorkspace :: DataKind.inhabitedKinds.map DataKind.sysName) }

def initial (config : Config) : Draft where
  config := config
  packages := .system
  types := .ofList ((root :: DataKind.inhabitedKinds.map sysData).map fun t => (t.name, t))

/-- Whether a type or a unique has the name. The wildcard's name is always taken. -/
def isBound (draft : Draft) (name : QName) : Bool :=
  name == .any || draft.types.contains name || draft.uniques.contains name

def findWorkspace (draft : Draft) (name : QName) : Except DefinitionError Workspace :=
  match draft.types[name]? with
  | some t =>
    match t.workspace? with
    | some ws => .ok ws
    | none => .error (.unexpectedType t.ref .workspace)
  | none => .error (.workspaceNotFound name)

def checkWorkspaces (draft : Draft) : List QName → Except DefinitionError Unit
  | [] => .ok ()
  | name :: rest => do
    let _ ← draft.findWorkspace name
    draft.checkWorkspaces rest

/-- The data type with the given name, as far as it is visible from a workspace. -/
def findDataType (draft : Draft) (ws name : QName) : Except DefinitionError TypeDef :=
  match draft.types.visible? ws name with
  | some t => if t.kind = .data then .ok t else .error (.unexpectedType t.ref .dataType)
  | none => .error (.dataTypeNotFound name)

def dataKindOf (t : TypeDef) : DataKind :=
  match t.data? with
  | some data => data.kind
  | none => .null

end Draft

namespace Build

def putType (t : TypeDef) : Build Unit :=
  modify fun draft => { draft with types := draft.types.insert t.name t }

def updateType (name : QName) (change : TypeDef → Except DefinitionError TypeDef) :
    Build Unit := do
  match (← get).types[name]? with
  | none => throw (.typeNotFound name)
  | some t =>
    let t ← change t
    modify fun draft => { draft with types := draft.types.insert name t }

def updateWorkspace (name : QName) (change : Workspace → Workspace) : Build Unit := do
  let ws ← (← get).findWorkspace name
  updateType name fun t => .ok { t with body := .workspace (change ws) }

def addType (t : TypeDef) : Build Unit := do
  let draft ← get
  t.name.check draft.config.maxIdentLen
  if draft.isBound t.name then throw (.typeExists t.name)
  match t.body with
  | .workspace ws => putType { t with body := .workspace (ws.addLocal t.name) }
  | _ =>
    updateWorkspace t.workspace fun ws => ws.addLocal t.name
    putType t

/-- Binds the name of a unique to the structure that declares it. -/
def bindUnique (name owner : QName) : Build Unit := do
  let draft ← get
  name.check draft.config.maxIdentLen
  if draft.isBound name then throw (.nameExists name)
  set { draft with uniques := draft.uniques.insert name owner }

/-! ## Packages and workspaces -/

def addPackage (pkg path : String) : Build Unit := do
  let draft ← get
  let packages ← draft.packages.add draft.config.maxIdentLen pkg path
  set { draft with packages }

/-- Accepts candidates for the ancestors of a workspace: they are workspaces that do not inherit
from it. Those accepted before are given in order; a candidate that comes up again is dropped. -/
def checkAncestors (draft : Draft) (ws : QName) (accepted : List QName) :
    List QName → Except DefinitionError (List QName)
  | [] => .ok accepted
  | ancestor :: rest => do
    let _ ← draft.findWorkspace ancestor
    if (draft.types.ancestry ancestor).contains ws then
      throw (.circularInheritance ws ancestor)
    checkAncestors draft ws
      (if accepted.contains ancestor then accepted else accepted ++ [ancestor]) rest

def setAncestors (ws : QName) (ancestors : List QName) : Build Unit := do
  if ancestors.isEmpty then throw (.ancestorsMissing ws)
  let draft ← get
  let _ ← draft.findWorkspace ws
  let accepted ← checkAncestors draft ws [] ancestors
  updateWorkspace ws fun body => { body with ancestors := accepted }

def useWorkspaces (ws : QName) (used : List QName) : Build Unit := do
  let draft ← get
  let _ ← draft.findWorkspace ws
  draft.checkWorkspaces used
  updateWorkspace ws fun body => used.foldl Workspace.addUsed body

/-- Describes a workspace by a configuration document that it declares. With an abstract
document the workspace becomes abstract. -/
def setDescriptor (ws descriptor : QName) : Build Unit := do
  let draft ← get
  let body ← draft.findWorkspace ws
  if !body.locals.contains descriptor then throw (.descriptorNotFound descriptor ws)
  let document := draft.types.resolve descriptor
  if document.kind ≠ .cDoc then throw (.descriptorMisfit document.ref)
  updateWorkspace ws fun body => { body with descriptor := some descriptor }
  if document.isAbstract then
    updateType ws fun t => .ok { t with isAbstract := true }

/-! ## Tags and rules -/

/-- Puts a tag on a type. The tag must be visible from the workspace that declares the type. -/
def addTag (name tag : QName) : Build Unit := do
  let draft ← get
  match draft.types[name]? with
  | none => throw (.typeNotFound name)
  | some t =>
    match draft.types.visible? t.workspace tag with
    | some found => if found.kind ≠ .tag then throw (.tagNotFound tag)
    | none => throw (.tagNotFound tag)
    updateType name fun t => .ok { t with tags := t.tags.insert tag }

/-- Appends an access rule. The role must be visible from the workspace, and the rule must fit
every type that it selects there. -/
def addRule (ws : QName) (policy : Policy) (operations : List Operation) (selector : Selector)
    (fields : List String) (principal : QName) (comment : Comment) : Build Unit := do
  let draft ← get
  let _ ← draft.findWorkspace ws
  let operations : OperationSet := .ofList operations
  Rule.checkShape policy operations fields
  match draft.types.visible? ws principal with
  | some found => if found.kind ≠ .role then throw (.roleNotFound principal)
  | none => throw (.roleNotFound principal)
  Rule.checkOnAll operations fields (selector.select (draft.types.visibleDefs ws))
  let rule : Rule := {
    position := draft.rules.length
    policy, operations, selector, fields, principal
    workspace := ws
    comment }
  set { draft with rules := draft.rules ++ [rule] }

/-- Appends an access rule for the default operations of what it selects. The first of the
selected types says which operations these are. -/
def addBlanketRule (ws : QName) (policy : Policy) (selector : Selector) (principal : QName)
    (comment : Comment) : Build Unit := do
  match selector.select ((← get).types.visibleDefs ws) with
  | [] => throw (.nothingSelected selector)
  | first :: _ =>
    if first.kind.defaultOperations.isEmpty then throw (.kindNotAResource first.kind)
    addRule ws policy first.kind.defaultOperations selector [] principal comment

end Build

end TypeCatalog
