import TypeCatalog.Draft

/-!
# Edits of a type

`TypeEdit` lists what can be done to a type once it is declared, and `TypeEdit.run` does it to the
type with a given name. What a type has depends on its kind; an edit of something that it does not
have is refused.

* `Build.addContainer` checks the type that a container holds only if that type is declared
  already; otherwise validation does.
* `Build.addUnique` appends the unique to the structure before it binds its name.
-/

namespace TypeCatalog

namespace Build

/-! ## Bodies -/

def updateStructure (name : QName)
    (change : TypeKind → Structure → Except DefinitionError Structure) : Build Unit :=
  updateType name fun t =>
    match t.body with
    | .structured s => do return { t with body := .structured (← change t.kind s) }
    | _ => .error (.unexpectedType t.ref .structured)

def updateView (name : QName) (change : View → Except DefinitionError View) : Build Unit :=
  updateType name fun t =>
    match t.body with
    | .view view => do return { t with body := .view (← change view) }
    | _ => .error (.viewExpected name)

def updateFunction (name : QName)
    (change : TypeKind → Callable → Except DefinitionError Callable) : Build Unit :=
  updateType name fun t =>
    match t.body with
    | .function f => do return { t with body := .function (← change t.kind f) }
    | _ => .error (.unexpectedType t.ref .function)

def updateProjector (name : QName) (change : Projector → Projector) : Build Unit :=
  updateType name fun t =>
    match t.body with
    | .projector p => .ok { t with body := .projector (change p) }
    | _ => .error (.unexpectedType t.ref .projector)

def updateJob (name : QName) (change : Job → Job) : Build Unit :=
  updateType name fun t =>
    match t.body with
    | .job j => .ok { t with body := .job (change j) }
    | _ => .error (.unexpectedType t.ref .job)

def setEngine (name : QName) (engine : Engine) : Build Unit :=
  updateType name fun t =>
    match t.body with
    | .function f => .ok { t with body := .function { f with engine := engine } }
    | .projector p => .ok { t with body := .projector { p with engine := engine } }
    | .job j => .ok { t with body := .job { j with engine := engine } }
    | _ => .error (.unexpectedType t.ref .extension)

def updateStorages (name : QName) (side : StorageSide)
    (change : Storages → Except DefinitionError Storages) : Build Unit :=
  updateType name fun t =>
    match t.body with
    | .function f => do
      let storages ← change (f.storages.get side)
      return { t with body := .function { f with storages := f.storages.set side storages } }
    | .projector p => do
      let storages ← change (p.storages.get side)
      return { t with body := .projector { p with storages := p.storages.set side storages } }
    | .job j => do
      let storages ← change (j.storages.get side)
      return { t with body := .job { j with storages := j.storages.set side storages } }
    | _ => .error (.unexpectedType t.ref .extension)

/-! ## Fields, containers and uniques -/

def pushField (name : QName) (field : Field) : Build Unit := do
  let config := (← get).config
  updateStructure name fun kind s => s.addField field kind config

/-- Appends a field of a named data type, which brings its effective constraints along. -/
def addDataField (name : QName) (fieldName : String) (data : QName) (required : Bool) :
    Build Unit := do
  let draft ← get
  let found ← draft.findDataType (draft.types.resolve name).workspace data
  let field := Field.ofData fieldName data (Draft.dataKindOf found) required
  let constraints := draft.types.effectiveConstraints data
  let field ← field.setConstraints draft.config.isPattern constraints
  pushField name field

def updateField (name : QName) (fieldName : String)
    (change : Field → Except DefinitionError Field) : Build Unit :=
  updateStructure name fun _ s => do
    return { s with fields := ← s.fields.update fieldName change }

def addContainer (name : QName) (container : String) (target : QName) (min max : Occurs) :
    Build Unit := do
  let draft ← get
  let container ← Container.make container target min max
  let child := (draft.types[target]?).map TypeDef.kind
  updateStructure name fun kind s => s.addContainer container kind child draft.config

/-- Appends a unique to a structure and binds its name. -/
def addUnique (name unique : QName) (fields : List String) : Build Unit := do
  let draft ← get
  if draft.isBound unique then throw (.nameExists unique)
  unique.check draft.config.maxIdentLen
  updateStructure name fun _ s => s.addUnique unique fields draft.config
  bindUnique unique name

def addViewField (name : QName) (part : ViewPart) (field : Field) : Build Unit := do
  let config := (← get).config
  updateView name fun view => view.addField part field config

def addEvent (name : QName) (triggers : List Trigger) (selector : Selector) (comment : Comment) :
    Build Unit := do
  if triggers.isEmpty then throw (.eventOperationsMissing name)
  updateProjector name fun p =>
    { p with events := p.events ++ [⟨.ofList triggers, selector, comment⟩] }

end Build

/-! ## Edits -/

/-- An edit of a type. -/
inductive TypeEdit where
  | setComment (comment : String)
  | setAbstract
  | addTag (tag : QName)
  | addField (name : String) (kind : DataKind) (required : Bool)
  | addDataField (name : String) (data : QName) (required : Bool)
  | addRefField (name : String) (required : Bool) (targets : List QName)
  | setFieldConstraints (field : String) (constraints : List Constraint)
  | setFieldVerification (field : String) (ways : List Verification)
  | setFieldComment (field : String) (comment : String)
  | addContainer (name : String) (target : QName) (min max : Occurs)
  | setContainerComment (container : String) (comment : String)
  | addUnique (name : QName) (fields : List String)
  | setSingleton
  | addPartitionField (name : String) (kind : DataKind)
  | addClusteringField (name : String) (kind : DataKind)
  | addValueField (name : String) (kind : DataKind) (required : Bool)
  | addValueRefField (name : String) (required : Bool) (targets : List QName)
  | setParam (param : QName)
  /-- Set the type of the parameter that is kept out of logs, for commands only. -/
  | setUnloggedParam (param : QName)
  | setResult (result : QName)
  | setEngine (engine : Engine)
  | addEvent (triggers : List Trigger) (selector : Selector) (comment : String)
  | setSync (sync : Bool)
  | setWantsErrors
  | setSchedule (schedule : String)
  | addStorage (side : StorageSide) (storage : QName) (names : List QName)
  | setStorageComment (side : StorageSide) (storage : QName) (comment : String)

namespace TypeEdit

def run (name : QName) : TypeEdit → Build Unit
  | setComment comment =>
    Build.updateType name fun t => .ok { t with comment := .ofText comment }
  | setAbstract => Build.updateType name fun t => .ok { t with isAbstract := true }
  | addTag tag => Build.addTag name tag
  | addField field kind required => Build.pushField name (.ofKind field kind required)
  | addDataField field data required => Build.addDataField name field data required
  | addRefField field required targets =>
    Build.pushField name (.reference field required targets)
  | setFieldConstraints field constraints => do
    let isPattern := (← get).config.isPattern
    Build.updateField name field fun f => f.setConstraints isPattern constraints
  | setFieldVerification field ways =>
    Build.updateField name field fun f => f.setVerifications ways
  | setFieldComment field comment =>
    Build.updateField name field fun f => .ok { f with comment := .ofText comment }
  | addContainer container target min max => Build.addContainer name container target min max
  | setContainerComment container comment =>
    Build.updateStructure name fun _ s => do
      let containers ← Structure.setContainerComment container (.ofText comment) s.containers
      return { s with containers }
  | addUnique unique fields => Build.addUnique name unique fields
  | setSingleton =>
    Build.updateStructure name fun kind s =>
      if kind.maySingleton then .ok { s with singleton := true }
      else .error (.singletonMisfit kind)
  | addPartitionField field kind => Build.addViewField name .partition (.ofKind field kind true)
  | addClusteringField field kind =>
    Build.addViewField name .clustering (.ofKind field kind false)
  | addValueField field kind required =>
    Build.addViewField name .value (.ofKind field kind required)
  | addValueRefField field required targets =>
    Build.addViewField name .value (.reference field required targets)
  | setParam param => Build.updateFunction name fun _ f => .ok { f with param := param }
  | setUnloggedParam param =>
    Build.updateFunction name fun kind f =>
      if kind = .command then .ok { f with unloggedParam := param }
      else .error (.unloggedParamMisfit kind)
  | setResult result => Build.updateFunction name fun _ f => .ok { f with result := result }
  | setEngine engine => Build.setEngine name engine
  | addEvent triggers selector comment =>
    Build.addEvent name triggers selector (.ofText comment)
  | setSync sync => Build.updateProjector name fun p => { p with sync := sync }
  | setWantsErrors => Build.updateProjector name fun p => { p with wantsErrors := true }
  | setSchedule schedule => Build.updateJob name fun j => { j with schedule := schedule }
  | addStorage side storage names => do
    let limit := (← get).config.maxIdentLen
    Build.updateStorages name side fun storages => storages.add limit storage names
  | setStorageComment side storage comment =>
    Build.updateStorages name side fun storages => storages.setComment storage (.ofText comment)

end TypeEdit

end TypeCatalog
