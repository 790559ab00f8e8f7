import TypeCatalog.Extension
import TypeCatalog.Rate
import TypeCatalog.Structure
import TypeCatalog.View
import TypeCatalog.Workspace

/-!
# Types

A type has a name, a kind, the workspace that declares it and a body of a form that goes with its
kind.

* `TypeDef.null` stands for a type that is not there, `TypeDef.any` for the wildcard.
* `Selector.selects` says which types a selector selects.
-/

namespace TypeCatalog

/-- Body of a data type. -/
structure DataType where
  kind : DataKind
  /-- The data type that this one derives from; absent for system data types. -/
  ancestor : QName := .null
  /-- Constraints that this type declares, without inherited ones. -/
  constraints : List Constraint := []

/-- What is particular to types of a kind. -/
inductive Body where
  | null
  | any
  | data (d : DataType)
  | structured (s : Structure)
  | view (v : View)
  | function (f : Callable)
  | projector (p : Projector)
  | job (j : Job)
  | workspace (ws : Workspace)
  | role
  | tag (feature : String)
  | rate (r : Rate)
  | limit (l : Limit)

/-- A type of the catalog. -/
structure TypeDef where
  name : QName
  kind : TypeKind
  /-- The workspace that declares it; a workspace declares itself. -/
  workspace : QName
  comment : Comment := none
  isAbstract : Bool := false
  tags : NameSet := ∅
  body : Body

namespace TypeDef

def null : TypeDef where
  name := .null
  kind := .null
  workspace := .null
  body := .null

def any : TypeDef where
  name := .any
  kind := .any
  workspace := .sysWorkspace
  body := .any

instance : Inhabited TypeDef := ⟨null⟩

def isNull (t : TypeDef) : Bool := t.kind == .null

def ref (t : TypeDef) : TypeRef := ⟨t.kind, t.name⟩

def text (t : TypeDef) : String := t.ref.text

/-! ## Bodies -/

def data? (t : TypeDef) : Option DataType :=
  match t.body with
  | .data d => some d
  | _ => none

def structure? (t : TypeDef) : Option Structure :=
  match t.body with
  | .structured s => some s
  | _ => none

def view? (t : TypeDef) : Option View :=
  match t.body with
  | .view v => some v
  | _ => none

def workspace? (t : TypeDef) : Option Workspace :=
  match t.body with
  | .workspace ws => some ws
  | _ => none

def fields? (t : TypeDef) : Option Fields :=
  match t.body with
  | .structured s => some s.fields
  | .view v => some v.fields
  | _ => none

def field? (t : TypeDef) (name : String) : Option Field :=
  t.fields?.bind fun fields => fields.get? name

def hasField (t : TypeDef) (name : String) : Bool := (t.field? name).isSome

def fieldCount (t : TypeDef) : Nat :=
  match t.fields? with
  | some fields => fields.length
  | none => 0

def containers (t : TypeDef) : List Container :=
  match t.structure? with
  | some s => s.containers
  | none => []

def container? (t : TypeDef) (name : String) : Option Container :=
  t.structure?.bind fun s => s.container? name

def unique? (t : TypeDef) (name : QName) : Option Unique :=
  t.structure?.bind fun s => s.unique? name

/-- Whether a workspace holds at most one instance. -/
def isSingleton (t : TypeDef) : Bool :=
  match t.structure? with
  | some s => s.singleton
  | none => false

def storages? (t : TypeDef) : Option StorageUse :=
  match t.body with
  | .function f => some f.storages
  | .projector p => some p.storages
  | .job j => some j.storages
  | _ => none

end TypeDef

/-! ## Selection -/

mutual

def Selector.selects (t : TypeDef) : Selector → Bool
  | .names list => list.contains t.name
  | .kinds list => list.contains t.kind
  | .tags list => t.tags.toList.any list.contains
  | .workspace name => t.workspace == name && t.kind != .workspace
  | .and parts => Selector.allSelect t parts
  | .or parts => Selector.someSelects t parts
  | .not part => !part.selects t

def Selector.allSelect (t : TypeDef) : List Selector → Bool
  | [] => true
  | part :: rest => part.selects t && Selector.allSelect t rest

def Selector.someSelects (t : TypeDef) : List Selector → Bool
  | [] => false
  | part :: rest => part.selects t || Selector.someSelects t rest

end

/-- The types that a selector selects, in the same order. -/
def Selector.select (selector : Selector) (types : List TypeDef) : List TypeDef :=
  types.filter fun t => selector.selects t

end TypeCatalog
