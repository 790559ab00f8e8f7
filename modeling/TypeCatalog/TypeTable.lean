import TypeCatalog.Saturation
import TypeCatalog.TypeDef

/-!
# Tables of types and the graph of their workspaces

A table holds types by name. The workspaces in it form a graph: every workspace leads to its
ancestors. Names that stand for no workspace lead nowhere.

* `TypeTable.ancestry` is a workspace with all that can be reached from it.
* `TypeTable.visibleNames` lists what is declared along the ancestry of a workspace and along the
  ancestries of the workspaces that it uses; `TypeTable.sees` asks for one name.
* `TypeTable.effectiveConstraints` lays the constraints of a data type over those of its ancestors.
-/

namespace TypeCatalog

abbrev TypeTable := NameMap TypeDef

namespace TypeTable

def defs (types : TypeTable) : List TypeDef := types.values

/-- The type with the given name, the wildcard included, or the type that is not there. -/
def resolve (types : TypeTable) (name : QName) : TypeDef :=
  if name = .any then .any else (types[name]?).getD .null

/-! ## The graph of workspaces -/

def workspace? (types : TypeTable) (name : QName) : Option Workspace :=
  (types[name]?).bind TypeDef.workspace?

/-- The workspaces that a workspace inherits from directly. -/
def parents (types : TypeTable) (name : QName) : List QName :=
  match types.workspace? name with
  | some ws => ws.ancestorsOf name
  | none => []

/-- Number of edges between workspaces and their ancestors. -/
def edgeCount (types : TypeTable) : Nat :=
  (types.keys.flatMap types.parents).length

/-- The names that can be reached from some names by going to ancestors, themselves included. -/
def reachable (types : TypeTable) (start : NameSet) : NameSet :=
  saturate types.parents types.edgeCount start

def ancestry (types : TypeTable) (start : QName) : NameSet :=
  types.reachable ((∅ : NameSet).insert start)

def localNames (types : TypeTable) (name : QName) : List QName :=
  match types.workspace? name with
  | some ws => ws.locals.toList
  | none => []

/-- The names declared by a workspace or one of its ancestors. -/
def inheritedNames (types : TypeTable) (ws : QName) : NameSet :=
  .ofList ((types.ancestry ws).toList.flatMap types.localNames)

def usedBy (types : TypeTable) (ws : QName) : List QName :=
  match types.workspace? ws with
  | some body => body.used
  | none => []

/-- The names visible from a workspace. Workspaces in use contribute what they declare and
inherit, but not what they use in turn. -/
def visibleNames (types : TypeTable) (ws : QName) : NameSet :=
  (types.inheritedNames ws).insertMany
    ((types.usedBy ws).flatMap fun used => (types.inheritedNames used).toList)

def declaredIn (types : TypeTable) (workspaces : NameSet) (name : QName) : Bool :=
  workspaces.toList.any fun ws =>
    match types.workspace? ws with
    | some body => body.locals.contains name
    | none => false

def sees (types : TypeTable) (ws name : QName) : Bool :=
  types.declaredIn (types.ancestry ws) name
    || (types.usedBy ws).any fun used => types.declaredIn (types.ancestry used) name

/-- The type with the given name, if it is visible from a workspace; the wildcard always is. -/
def visible? (types : TypeTable) (ws name : QName) : Option TypeDef :=
  if name = .any then some .any
  else if types.sees ws name then types[name]? else none

/-- The types visible from a workspace, in name order. -/
def visibleDefs (types : TypeTable) (ws : QName) : List TypeDef :=
  (types.visibleNames ws).toList.filterMap fun name => types[name]?

/-! ## Derived data types -/

/-- The data types that a name derives from, beginning with the type of that name, as far as no
name comes up a second time; at most `limit` of them. -/
def derivation (types : TypeTable) : (limit : Nat) → (seen : List QName) → QName → List DataType
  | 0, _, _ => []
  | limit + 1, seen, name =>
    match (types[name]?).bind TypeDef.data? with
    | some data =>
      if seen.contains name then [] else data :: derivation types limit (name :: seen) data.ancestor
    | none => []

/-- The constraints of a data type together with those that it inherits. -/
def effectiveConstraints (types : TypeTable) (name : QName) : List Constraint :=
  (types.derivation types.size [] name).foldr
    (fun data inherited => Constraint.overlay inherited data.constraints) []

end TypeTable

end TypeCatalog
