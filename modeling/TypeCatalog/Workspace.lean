import TypeCatalog.QName

/-!
# Workspaces

A workspace declares types. It inherits what its ancestors declare, may use what other workspaces
declare, and may have a document that describes it.

* `Workspace.ancestorsOf` gives every workspace but the root at least one ancestor.
-/

namespace TypeCatalog

/-- Body of a workspace. -/
structure Workspace where
  /-- Ancestors that were set, in order. -/
  ancestors : List QName := []
  /-- Workspaces that are used, in order. -/
  used : List QName := []
  descriptor : Option QName := none
  /-- Names of the types declared here, the workspace itself included. -/
  locals : NameSet := ∅

namespace Workspace

/-- Ancestors of the workspace with the given name: those that were set, or else the root. -/
def ancestorsOf (ws : Workspace) (name : QName) : List QName :=
  if !ws.ancestors.isEmpty then ws.ancestors
  else if name = .sysWorkspace then []
  else [.sysWorkspace]

def addLocal (ws : Workspace) (name : QName) : Workspace :=
  { ws with locals := ws.locals.insert name }

/-- Uses another workspace, unless it is used already. -/
def addUsed (ws : Workspace) (name : QName) : Workspace :=
  if ws.used.contains name then ws else { ws with used := ws.used ++ [name] }

end Workspace

end TypeCatalog
