import TypeCatalog.Access
import TypeCatalog.Draft.Validation
import TypeCatalog.TypeIndex

/-!
# Catalogs

A catalog is a draft that passed validation and does not change any more. What can be worked out
from it once and for all is worked out when it is frozen: the positions of the types in name order,
what each workspace sees and inherits from, which workspace a document describes and which types
containers hold.

* `Draft.build` validates a draft and freezes it.
* `Catalog` answers for all workspaces together, `WorkspaceView` for one of them.
* `Catalog.scope` and `WorkspaceView.scope` are what access queries look at.
-/

namespace TypeCatalog

/-- A valid catalog that does not change. -/
structure Catalog where
  config : Config
  packages : Packages
  types : TypeIndex
  uniques : NameMap QName
  /-- Positions of the types visible from each workspace, in name order. -/
  visible : NameMap (Array Nat)
  ancestries : NameMap NameSet
  described : NameMap QName
  /-- The containers of each structure by name, with the positions of the types that they hold. -/
  targets : NameMap (List (String × Option Nat))
  /-- Access rules, in order of declaration. -/
  rules : List Rule

namespace TypeTable

def workspaces (types : TypeTable) : List (QName × Workspace) :=
  types.toList.filterMap fun (name, t) => t.workspace?.map (name, ·)

/-- The workspace that each document describes; of several the last in name order. -/
def describedBy (types : TypeTable) : NameMap QName :=
  .ofList (types.workspaces.filterMap fun (name, ws) => ws.descriptor.map (·, name))

end TypeTable

namespace TypeIndex

/-- Containers by name, with the positions of the types that they hold. -/
def heldBy (index : TypeIndex) (containers : List Container) : List (String × Option Nat) :=
  containers.map fun container => (container.name, index.positions[container.target]?)

/-- The containers of all structures. -/
def held (index : TypeIndex) : List (QName × List (String × Option Nat)) :=
  index.defs.filterMap fun t => t.structure?.map fun s => (t.name, index.heldBy s.containers)

end TypeIndex

namespace Draft

def freeze (draft : Draft) : Catalog :=
  let types := TypeIndex.ofTable draft.types
  { config := draft.config
    packages := draft.packages
    types := types
    uniques := draft.uniques
    visible := .ofList (draft.types.workspaces.map fun (name, _) =>
      (name, types.positionsOf (draft.types.visibleNames name)))
    ancestries := .ofList (draft.types.workspaces.map fun (name, _) =>
      (name, draft.types.ancestry name))
    described := draft.types.describedBy
    targets := .ofList types.held
    rules := draft.rules }

/-- The catalog that a draft defines, or all that is wrong with the draft. -/
def build (draft : Draft) : Except Problems Catalog :=
  match draft.problems with
  | [] => .ok draft.freeze
  | problems => .error problems

end Draft

/-! ## Catalogs as a whole -/

/-- How types are looked for: by name alone, or by name and kind. -/
inductive Lookup where
  | type
  | kind (kind : TypeKind)
  | record
  | function
  deriving DecidableEq, Repr

def Lookup.accepts : Lookup → TypeKind → Bool
  | type, _ => true
  | kind expected, found => found == expected
  | record, found => found.isRecord && !found.isDoc
  | function, found => found.isFunction

namespace Catalog

/-- The type with the given name, if it is looked for. -/
def find? (catalog : Catalog) (lookup : Lookup) (name : QName) : Option TypeDef :=
  match catalog.types[name]? with
  | some t => if lookup.accepts t.kind then some t else none
  | none => none

/-- The type with the given name, the wildcard included, or the type that is not there. -/
def resolve (catalog : Catalog) (name : QName) : TypeDef := catalog.types.resolve name

def defs (catalog : Catalog) : List TypeDef := catalog.types.defs

def defsOfKind (catalog : Catalog) (kind : TypeKind) : List TypeDef :=
  catalog.defs.filter fun t => t.kind == kind

/-- The type that a container of a structure holds, or the type that is not there. -/
def containerTarget (catalog : Catalog) (owner : QName) (container : String) : TypeDef :=
  match (catalog.targets[owner]?).bind fun held => held.lookup container with
  | some (some position) => catalog.types.typeAt position
  | _ => .null

def uniqueOwner? (catalog : Catalog) (unique : QName) : Option TypeDef :=
  (catalog.uniques[unique]?).bind fun owner => catalog.types[owner]?

def scope (catalog : Catalog) : Scope where
  resolve := catalog.resolve
  roles := catalog.defsOfKind .role
  rules := catalog.rules
  logsDenials := catalog.config.logsDenials

end Catalog

/-! ## Single workspaces -/

/-- One workspace of a catalog. -/
structure WorkspaceView where
  catalog : Catalog
  type : TypeDef
  /-- The workspace itself. -/
  body : Workspace

namespace Catalog

/-- The view of a type, if it is a workspace. -/
def view? (catalog : Catalog) (t : TypeDef) : Option WorkspaceView :=
  t.workspace?.map fun body => ⟨catalog, t, body⟩

def workspace? (catalog : Catalog) (name : QName) : Option WorkspaceView :=
  (catalog.types[name]?).bind catalog.view?

def workspaces (catalog : Catalog) : List WorkspaceView := catalog.defs.filterMap catalog.view?

def workspaceDescribedBy? (catalog : Catalog) (document : QName) : Option WorkspaceView :=
  (catalog.described[document]?).bind catalog.workspace?

end Catalog

namespace WorkspaceView

def name (ws : WorkspaceView) : QName := ws.type.name

def ancestors (ws : WorkspaceView) : List QName := ws.body.ancestorsOf ws.name

def ancestry (ws : WorkspaceView) : NameSet := (ws.catalog.ancestries[ws.name]?).getD ∅

/-- Whether it is the other workspace or inherits from it. -/
def inherits (ws : WorkspaceView) (other : QName) : Bool := ws.ancestry.contains other

def descriptor? (ws : WorkspaceView) : Option TypeDef :=
  ws.body.descriptor.bind fun name => ws.catalog.types[name]?

/-- The types that the workspace declares, in name order. -/
def locals (ws : WorkspaceView) : List TypeDef :=
  ws.body.locals.toList.filterMap fun name => ws.catalog.types[name]?

def visible (ws : WorkspaceView) : Window where
  index := ws.catalog.types
  positions := (ws.catalog.visible[ws.name]?).getD #[]

/-- The types visible from the workspace, in name order. -/
def defs (ws : WorkspaceView) : List TypeDef := ws.visible.defs

/-- The visible type with the given name, the wildcard included, or the type that is not there. -/
def resolve (ws : WorkspaceView) (name : QName) : TypeDef := ws.visible.resolve name

/-- The rules that the workspace or one of its ancestors declares, in order. -/
def rules (ws : WorkspaceView) : List Rule :=
  ws.catalog.rules.filter fun rule => ws.ancestry.contains rule.workspace

def scope (ws : WorkspaceView) : Scope where
  resolve := ws.resolve
  roles := ws.defs.filter fun t => t.kind == .role
  rules := ws.rules
  logsDenials := ws.catalog.config.logsDenials

/-- What a role may do with the types visible from the workspace. -/
def published (ws : WorkspaceView) (role : QName) : List Publication :=
  ws.scope.published ws.defs role

end WorkspaceView

end TypeCatalog
