import TypeCatalog.Comment
import TypeCatalog.Identifier

/-!
# Extensions

Commands, queries, projectors and jobs are run by an engine. They declare the storages that they
read and write, each with the types that they touch there.

* `Storages.add` adds a storage or extends it, and changes nothing when it refuses.
* `Trigger.availableFor` says what can happen to types of a kind.
-/

namespace TypeCatalog

/-! ## Engines and storages -/

/-- What runs an extension. -/
inductive Engine where
  /-- The host application itself. -/
  | builtIn
  | wasm
  deriving DecidableEq, Repr

namespace Engine

def text : Engine → String
  | builtIn => "BuiltIn"
  | wasm => "Wasm"

instance : Enumeration Engine where
  members := [builtIn, wasm]
  rank := Engine.ctorIdx
  text := text
  rank_injective a b h := by rw [← Engine.ofNat_ctorIdx a, ← Engine.ofNat_ctorIdx b, h]

end Engine

/-- What an extension does with one storage. -/
structure Storage where
  names : NameSet := ∅
  comment : Comment := none

abbrev Storages := NameMap Storage

namespace Storages

def checkNames (limit : Nat) : List QName → Except DefinitionError Unit
  | [] => .ok ()
  | name :: rest =>
    match name.check limit with
    | .ok _ => checkNames limit rest
    | .error error => .error error

def add (storages : Storages) (limit : Nat) (storage : QName) (names : List QName) :
    Except DefinitionError Storages := do
  storage.check limit
  checkNames limit names
  let known := (storages[storage]?).getD {}
  return storages.insert storage { known with names := known.names.insertMany names }

/-- Sets or clears the comment on a storage that was added. -/
def setComment (storages : Storages) (storage : QName) (comment : Comment) :
    Except DefinitionError Storages :=
  match storages[storage]? with
  | some known => .ok (storages.insert storage { known with comment := comment })
  | none => .error (.storageNotFound storage)

end Storages

/-- The side on which an extension uses a storage. -/
inductive StorageSide where
  | states
  | intents
  deriving DecidableEq, Repr

/-- The storages of an extension, on both sides. -/
structure StorageUse where
  states : Storages := ∅
  intents : Storages := ∅

namespace StorageUse

def get (use : StorageUse) : StorageSide → Storages
  | .states => use.states
  | .intents => use.intents

def set (use : StorageUse) (side : StorageSide) (storages : Storages) : StorageUse :=
  match side with
  | .states => { use with states := storages }
  | .intents => { use with intents := storages }

end StorageUse

/-! ## Bodies of extensions -/

/-- Body of a command or query. The types of parameters and results are given by name; the absent
name stands for none. -/
structure Callable where
  engine : Engine := .builtIn
  param : QName := .null
  unloggedParam : QName := .null
  result : QName := .null
  storages : StorageUse := {}

/-- What triggers a projector. -/
inductive Trigger where
  | insert
  | update
  | activate
  | deactivate
  | execute
  | executeWithParam
  deriving DecidableEq, Repr

namespace Trigger

def text : Trigger → String
  | insert => "Insert"
  | update => "Update"
  | activate => "Activate"
  | deactivate => "Deactivate"
  | execute => "Execute"
  | executeWithParam => "ExecuteWithParam"

instance : Enumeration Trigger where
  members := [insert, update, activate, deactivate, execute, executeWithParam]
  rank := Trigger.ctorIdx
  text := text
  rank_injective a b h := by rw [← Trigger.ofNat_ctorIdx a, ← Trigger.ofNat_ctorIdx b, h]

def availableFor (trigger : Trigger) (kind : TypeKind) : Bool :=
  match trigger with
  | insert | update => kind.isRecord && kind != .oDoc && kind != .oRecord
  | activate | deactivate => kind.isActivable
  | execute => kind == .command
  | executeWithParam => kind == .oDoc || kind == .object

end Trigger

/-- One reason for a projector to run. -/
structure ProjectorEvent where
  triggers : Std.ExtTreeSet Trigger
  selector : Selector
  comment : Comment := none

/-- Body of a projector. -/
structure Projector where
  engine : Engine := .builtIn
  sync : Bool := false
  wantsErrors : Bool := false
  events : List ProjectorEvent := []
  storages : StorageUse := {}

/-- Body of a scheduled job. -/
structure Job where
  engine : Engine := .builtIn
  schedule : String := ""
  storages : StorageUse := {}

end TypeCatalog
