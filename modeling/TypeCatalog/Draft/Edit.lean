import TypeCatalog.Draft.TypeEdit

/-!
# Edits of a draft

Everything that can be done to a draft is an `Edit`, and `Edit.run` does it. A sequence of edits,
some of which may fail, leads from the initial draft to a draft that is ready to be validated.

* `Declaration` says what a new type is; `Build.declare` adds it to a workspace.
* `Draft.apply` runs an edit and returns the draft as the edit leaves it, with its outcome.
-/

namespace TypeCatalog

/-! ## Declarations -/

/-- What a new type is. -/
inductive Declaration where
  | structured (kind : TypeKind) (isStructure : kind.isStructure = true)
  | view
  | command
  | query
  | projector
  | job
  | role
  /-- A data type; with an absent ancestor it derives from the system data type of its kind. -/
  | data (kind : DataKind) (ancestor : QName) (constraints : List Constraint)
  | tag (feature : String)
  | rate (count : Nat) (period : Period) (scopes : List RateScope)
  | limit (operations : List Operation) (selector : Selector) (rate : QName)

namespace Build

/-- The body of a new data type, whose ancestor has the same kind of values. -/
def dataBody (draft : Draft) (ws : QName) (kind : DataKind) (ancestor : QName)
    (constraints : List Constraint) : Except DefinitionError Body := do
  let ancestor := if ancestor.isNull then kind.sysName else ancestor
  let parent ← draft.findDataType ws ancestor
  let parentKind := Draft.dataKindOf parent
  if parentKind ≠ kind then throw (.ancestorMisfit kind ancestor parentKind)
  match Constraint.checkAll draft.config.isPattern kind constraints with
  | .ok _ => return .data { kind, ancestor, constraints }
  | .error flaw => throw (.constraint flaw)

def bodyOf (draft : Draft) (ws : QName) :
    Declaration → Except DefinitionError (TypeKind × Body)
  | .structured kind _ => .ok (kind, .structured (.ofKind kind))
  | .view => .ok (.view, .view {})
  | .command => .ok (.command, .function {})
  | .query => .ok (.query, .function {})
  | .projector => .ok (.projector, .projector {})
  | .job => .ok (.job, .job {})
  | .role => .ok (.role, .role)
  | .data kind ancestor constraints => do
    return (.data, ← dataBody draft ws kind ancestor constraints)
  | .tag feature => .ok (.tag, .tag feature)
  | .rate count period scopes => do return (.rate, .rate (← Rate.make count period scopes))
  | .limit operations selector rate => do
    return (.limit, .limit (← Limit.make operations selector rate))

def declare (ws name : QName) (declaration : Declaration) : Build Unit := do
  let (kind, body) ← bodyOf (← get) ws declaration
  addType { name, kind, workspace := ws, body }

/-- Accepts types that a workspace declares, other than itself. -/
def checkDeclaredIn (draft : Draft) (ws name : QName) : Except DefinitionError Unit :=
  match draft.types[name]? with
  | some t => if t.workspace = ws ∧ name ≠ ws then .ok () else .error (.typeNotFound name)
  | none => .error (.typeNotFound name)

end Build

/-! ## Edits -/

/-- An edit of a workspace. -/
inductive WorkspaceEdit where
  | declare (name : QName) (declaration : Declaration)
  | amend (name : QName) (edit : TypeEdit)
  | setAncestors (ancestors : List QName)
  | useWorkspaces (used : List QName)
  | setDescriptor (descriptor : QName)
  | setAbstract
  | setComment (comment : String)
  | addRule (policy : Policy) (operations : List Operation) (selector : Selector)
      (fields : List String) (principal : QName) (comment : String)
  | addBlanketRule (policy : Policy) (selector : Selector) (principal : QName) (comment : String)

def WorkspaceEdit.run (ws : QName) : WorkspaceEdit → Build Unit
  | declare name declaration => Build.declare ws name declaration
  | amend name edit => do
    Build.checkDeclaredIn (← get) ws name
    edit.run name
  | setAncestors ancestors => Build.setAncestors ws ancestors
  | useWorkspaces used => Build.useWorkspaces ws used
  | setDescriptor descriptor => Build.setDescriptor ws descriptor
  | setAbstract => Build.updateType ws fun t => .ok { t with isAbstract := true }
  | setComment comment =>
    Build.updateType ws fun t => .ok { t with comment := .ofText comment }
  | addRule policy operations selector fields principal comment =>
    Build.addRule ws policy operations selector fields principal (.ofText comment)
  | addBlanketRule policy selector principal comment =>
    Build.addBlanketRule ws policy selector principal (.ofText comment)

/-- An edit of a draft. -/
inductive Edit where
  | addPackage (pkg path : String)
  | addWorkspace (name : QName)
  | openWorkspace (name : QName)
  | within (ws : QName) (edit : WorkspaceEdit)
  | setTypeComment (name : QName) (comment : String)

def Edit.run : Edit → Build Unit
  | addPackage pkg path => Build.addPackage pkg path
  | addWorkspace name =>
    Build.addType { name, kind := .workspace, workspace := name, body := .workspace {} }
  | openWorkspace name => do
    let _ ← (← get).findWorkspace name
    return ()
  | within ws edit => do
    let _ ← (← get).findWorkspace ws
    edit.run ws
  | setTypeComment name comment =>
    Build.updateType name fun t => .ok { t with comment := .ofText comment }

/-- The outcome of an edit and the draft as the edit leaves it. -/
def Draft.apply (draft : Draft) (edit : Edit) : Except DefinitionError Unit × Draft :=
  match edit.run draft with
  | .ok _ draft => (.ok (), draft)
  | .error error draft => (.error error, draft)

/-- The draft as several edits leave it, whether or not they succeed. -/
def Draft.applyAll (draft : Draft) (edits : List Edit) : Draft :=
  edits.foldl (fun draft edit => (draft.apply edit).2) draft

end TypeCatalog
