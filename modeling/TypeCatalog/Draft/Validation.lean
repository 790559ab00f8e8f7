import TypeCatalog.Draft.Edit
import TypeCatalog.Problem
import TypeCatalog.Schedule

/-!
# Validation

Whatever an edit cannot check, because it depends on what comes later, is checked by validation:
one pass over all types in name order and then over all access rules. No check hides another.

* `Violation` lists what may be wrong, with its wording in `Violation.message`.
* `Draft.findings` collects the violations with their owners, and `Draft.problems` reports them.
-/

namespace TypeCatalog

/-! ## What may be wrong -/

/-- Which parameter or result of a function is meant. -/
inductive FunctionSlot where
  | param
  | unloggedParam
  | result
  deriving DecidableEq, Repr

namespace FunctionSlot

def text : FunctionSlot → String
  | param => "parameter"
  | unloggedParam => "unlogged parameter"
  | result => "result"

def accepts : FunctionSlot → TypeKind → Bool
  | param | unloggedParam => TypeKind.mayBeParam
  | result => TypeKind.mayBeResult

def of (f : Callable) : FunctionSlot → QName
  | param => f.param
  | unloggedParam => f.unloggedParam
  | result => f.result

end FunctionSlot

def StorageSide.text : StorageSide → String
  | states => "state"
  | intents => "intent"

/-- Something that is wrong with a type or rule. -/
inductive Violation where
  | targetNotFound (field : String) (target : QName)
  | targetMisfit (field : String) (found : TypeRef)
  | fieldConflict (field : String) (conflict : Constraint.Conflict)
  | containerNotFound (container : String) (target : QName)
  | containerMisfit (container : String) (owner : TypeKind) (found : TypeRef)
  | noPartitionKey
  | noClusteringColumns
  /-- A clustering column without fixed width is followed by another. -/
  | variableColumn (column : String)
  | slotNotFound (slot : FunctionSlot) (name : QName)
  | slotMisfit (slot : FunctionSlot) (found : TypeRef)
  | storedNotFound (side : StorageSide) (storage name : QName)
  | ancestorNotFound (ancestor : QName)
  | ancestorMisfit (kind : DataKind) (ancestor : TypeRef) (found : DataKind)
  | dataConflict (conflict : Constraint.Conflict)
  | descriptorNotFound (descriptor : QName)
  | descriptorMisfit (found : TypeRef)
  | descriptorAbstract (found : TypeRef)
  | badSchedule (schedule : String) (flaw : Schedule.Flaw)
  | jobIntents
  | noEvents
  | eventSelectsNothing (selector : Selector)
  | triggerMisfit (trigger : Trigger) (found : TypeRef)
  | rateNotFound (rate : QName)
  | rateMisfit (found : TypeRef)
  | limitSelectsNothing (selector : Selector)
  | limitMisfit (operation : Operation) (found : TypeRef)
  | ruleSelectsNothing (rule : Rule)
  | ruleMisfit (rule : Rule) (error : DefinitionError)

namespace Violation

def kind : Violation → ErrorKind
  | targetNotFound .. | containerNotFound .. | slotNotFound .. | storedNotFound ..
  | ancestorNotFound _ | descriptorNotFound _ | eventSelectsNothing _ | rateNotFound _
  | limitSelectsNothing _ | ruleSelectsNothing _ => .notFound
  | targetMisfit .. | containerMisfit .. | variableColumn _ | slotMisfit .. | ancestorMisfit ..
  | descriptorMisfit _ | triggerMisfit .. | rateMisfit _ | limitMisfit .. => .incompatible
  | fieldConflict .. | dataConflict _ | descriptorAbstract _ | badSchedule .. => .invalid
  | noPartitionKey | noClusteringColumns | noEvents => .empty
  | jobIntents => .unsupported
  | ruleMisfit _ error => error.kind

def ruleSubject (rule : Rule) : String :=
  "ACL rule #" ++ toString rule.position ++ " " ++ quoted rule.text ++ ": "

def message : Violation → String
  | targetNotFound field target =>
    "field " ++ quoted field ++ " reference type " ++ quoted target.text ++ " not found"
  | targetMisfit field found =>
    "field " ++ quoted field ++ " refers to " ++ found.text ++ ", record or document expected"
  | fieldConflict field conflict => "field " ++ quoted field ++ " constraints: " ++ conflict.text
  | containerNotFound container target =>
    "container " ++ quoted container ++ " type " ++ quoted target.text ++ " not found"
  | containerMisfit container owner found =>
    "container " ++ quoted container ++ ": " ++ owner.text ++ " can not contain " ++ found.text
  | noPartitionKey => "view partition key is empty"
  | noClusteringColumns => "view clustering columns are empty"
  | variableColumn column =>
    "variable width clustering column " ++ quoted column ++ " must be the last one"
  | slotNotFound slot name => slot.text ++ " type " ++ quoted name.text ++ " not found"
  | slotMisfit slot found => slot.text ++ " type " ++ found.text ++ " is not allowed"
  | storedNotFound side storage name =>
    side.text ++ " storage " ++ quoted storage.text ++ " type " ++ quoted name.text
      ++ " not found"
  | ancestorNotFound ancestor => "ancestor data type " ++ quoted ancestor.text ++ " not found"
  | ancestorMisfit kind ancestor found =>
    "data kind " ++ kind.text ++ " and ancestor " ++ ancestor.text ++ " of kind " ++ found.text
  | dataConflict conflict => "constraints: " ++ conflict.text
  | descriptorNotFound descriptor => "descriptor " ++ quoted descriptor.text ++ " not found"
  | descriptorMisfit found => "descriptor " ++ found.text ++ ", CDoc expected"
  | descriptorAbstract found =>
    "descriptor " ++ found.text ++ " is abstract, workspace is not"
  | badSchedule schedule flaw => "cron schedule " ++ quoted schedule ++ ": " ++ flaw.text
  | jobIntents => "job can not have intents"
  | noEvents => "projector has no events"
  | eventSelectsNothing selector => "event filter " ++ selector.text ++ " matches no type"
  | triggerMisfit trigger found =>
    "event " ++ trigger.text ++ " is not available for " ++ found.text
  | rateNotFound rate => "rate " ++ quoted rate.text ++ " not found"
  | rateMisfit found => "rate " ++ found.text ++ ", Rate expected"
  | limitSelectsNothing selector => "limit filter " ++ selector.text ++ " matches no type"
  | limitMisfit operation found =>
    "limited operation " ++ operation.text ++ " is not available for " ++ found.text
  | ruleSelectsNothing rule => ruleSubject rule ++ "filter matches no type"
  | ruleMisfit rule error => ruleSubject rule ++ error.message

end Violation

/-- A violation together with the type or workspace that it is reported for. -/
structure Finding where
  owner : QName
  violation : Violation

def Finding.problem (finding : Finding) : Problem :=
  ⟨finding.violation.kind, finding.owner, finding.violation.message⟩

/-! ## Checks of types -/

namespace TypeTable

/-- The type with the given name, the wildcard included, if it is there. -/
def resolve? (types : TypeTable) (name : QName) : Option TypeDef :=
  if name = .any then some .any else types[name]?

def checkTarget (types : TypeTable) (field : String) (target : QName) : List Violation :=
  match types.resolve? target with
  | none => [.targetNotFound field target]
  | some t => if t.kind.isRecord then [] else [.targetMisfit field t.ref]

def checkField (types : TypeTable) (field : Field) : List Violation :=
  field.targetList.flatMap (types.checkTarget field.name)
    ++ (Constraint.conflicts field.constraints).map (Violation.fieldConflict field.name)

/-- What is wrong with the fields of a type; system fields are in order. -/
def checkFields (types : TypeTable) (t : TypeDef) : List Violation :=
  match t.fields? with
  | some fields => (Fields.ofUser fields).flatMap types.checkField
  | none => []

/-- What is wrong with a container of a structure of kind `owner`. -/
def checkContainer (types : TypeTable) (owner : TypeKind) (container : Container) :
    List Violation :=
  match types.resolve? container.target with
  | none => [.containerNotFound container.name container.target]
  | some t =>
    if owner.mayContain t.kind then [] else [.containerMisfit container.name owner t.ref]

def isVariable (view : View) (column : String) : Bool :=
  match Fields.get? view.fields column with
  | some field => !field.isFixedWidth
  | none => false

def checkView (view : View) : List Violation :=
  (if view.partition.isEmpty then [.noPartitionKey] else [])
    ++ (if view.clustering.isEmpty then [.noClusteringColumns] else [])
    ++ (view.clustering.dropLast.filter (isVariable view)).map .variableColumn

/-- What is wrong with a parameter or the result of a function. -/
def checkSlot (types : TypeTable) (f : Callable) (slot : FunctionSlot) : List Violation :=
  let name := slot.of f
  if name.isNull || name == .any then []
  else match types.resolve? name with
    | none => [.slotNotFound slot name]
    | some t => if slot.accepts t.kind then [] else [.slotMisfit slot t.ref]

/-- What is wrong with the storages of an extension on one side. -/
def checkStorages (types : TypeTable) (storages : StorageUse) (side : StorageSide) :
    List Violation :=
  (storages.get side).toList.flatMap fun (storage, use) =>
    (use.names.toList.filter fun name => (types.resolve? name).isNone).map
      (Violation.storedNotFound side storage)

/-- What is wrong with the type that a data type derives from. -/
def checkAncestor (types : TypeTable) (data : DataType) : List Violation :=
  if data.ancestor.isNull then []
  else match (types.resolve? data.ancestor).bind fun t => t.data?.map (t, ·) with
    | none => [.ancestorNotFound data.ancestor]
    | some (t, parent) =>
      if parent.kind = data.kind then [] else [.ancestorMisfit data.kind t.ref parent.kind]

def checkDescriptor (types : TypeTable) (owner : TypeDef) (ws : Workspace) : List Violation :=
  match ws.descriptor with
  | none => []
  | some descriptor =>
    match types.resolve? descriptor with
    | none => [.descriptorNotFound descriptor]
    | some t =>
      if t.kind ≠ .cDoc then [.descriptorMisfit t.ref]
      else if t.isAbstract && !owner.isAbstract then [.descriptorAbstract t.ref]
      else []

def checkSchedule (schedule : String) : List Violation :=
  match Schedule.check schedule with
  | .ok _ => []
  | .error flaw => [.badSchedule schedule flaw]

/-- What is wrong with an event of a projector that a workspace declares. -/
def checkEvent (types : TypeTable) (ws : QName) (event : ProjectorEvent) : List Violation :=
  let selected := event.selector.select (types.visibleDefs ws)
  (if selected.isEmpty then [.eventSelectsNothing event.selector] else [])
    ++ selected.flatMap fun t =>
      (event.triggers.toList.filter fun trigger => !trigger.availableFor t.kind).map
        fun trigger => .triggerMisfit trigger t.ref

def checkRate (types : TypeTable) (rate : QName) : List Violation :=
  match types.resolve? rate with
  | none => [.rateNotFound rate]
  | some t => if t.kind = .rate then [] else [.rateMisfit t.ref]

/-- What is wrong with the types that a limit of a workspace selects. -/
def checkLimited (types : TypeTable) (ws : QName) (limit : Limit) : List Violation :=
  let selected := limit.selector.select (types.visibleDefs ws)
  (if selected.isEmpty then [.limitSelectsNothing limit.selector] else [])
    ++ selected.flatMap fun t =>
      (limit.operations.toList.filter fun op => !t.kind.operations.contains op).map
        fun op => .limitMisfit op t.ref

def checkBody (types : TypeTable) (t : TypeDef) : List Violation :=
  match t.body with
  | .null | .any | .role | .tag _ | .rate _ => []
  | .data data =>
    types.checkAncestor data
      ++ (Constraint.conflicts (types.effectiveConstraints t.name)).map .dataConflict
  | .structured s => s.containers.flatMap (types.checkContainer t.kind)
  | .view view => checkView view
  | .function f =>
    types.checkSlot f .param ++ types.checkSlot f .unloggedParam ++ types.checkSlot f .result
      ++ types.checkStorages f.storages .states ++ types.checkStorages f.storages .intents
  | .projector p =>
    (if p.events.isEmpty then [.noEvents] else [])
      ++ p.events.flatMap (types.checkEvent t.workspace)
      ++ types.checkStorages p.storages .states ++ types.checkStorages p.storages .intents
  | .job j =>
    checkSchedule j.schedule ++ types.checkStorages j.storages .states
      ++ (if j.storages.intents.isEmpty then [] else [.jobIntents])
  | .workspace ws => types.checkDescriptor t ws
  | .limit limit => types.checkRate limit.rate ++ types.checkLimited t.workspace limit

def checkType (types : TypeTable) (t : TypeDef) : List Violation :=
  types.checkFields t ++ types.checkBody t

/-! ## Checks of rules -/

/-- What is wrong between a rule and a type that it selects. -/
def checkRuleOn (rule : Rule) (t : TypeDef) : List Violation :=
  match Rule.checkOn rule.operations rule.fields t with
  | .ok _ => []
  | .error error => [.ruleMisfit rule error]

def checkRule (types : TypeTable) (rule : Rule) : List Violation :=
  let selected := rule.selector.select (types.visibleDefs rule.workspace)
  (if selected.isEmpty then [.ruleSelectsNothing rule] else [])
    ++ selected.flatMap (checkRuleOn rule)

end TypeTable

namespace Draft

/-- All that is wrong with a draft: type by type in name order, then rule by rule. -/
def findings (draft : Draft) : List Finding :=
  (draft.types.defs.flatMap fun t => (draft.types.checkType t).map (Finding.mk t.name))
    ++ draft.rules.flatMap fun rule =>
      (draft.types.checkRule rule).map (Finding.mk rule.workspace)

def problems (draft : Draft) : Problems := draft.findings.map Finding.problem

end Draft

end TypeCatalog
