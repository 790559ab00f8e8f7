import TypeCatalog.Catalog
import TypeCatalog.Text.Document

/-!
# Descriptions of catalogs

A description lists the packages, the workspaces outside of the system package with the types that
they declare, and the access rules. What is empty, absent or not set is left out of it.

* `Catalog.description` is the list of what is described, `Catalog.describe` its document.
-/

namespace TypeCatalog

/-! ## What is described -/

/-- A workspace in a description. -/
structure WorkspaceDescription where
  workspace : WorkspaceView
  fullName : FullName
  /-- The types that it declares, in name order, without itself. -/
  types : List TypeDef

/-- What a description lists. -/
structure Description where
  packages : List (String × String)
  /-- Workspaces outside of the system package, in name order. -/
  workspaces : List WorkspaceDescription
  /-- Access rules, in order of declaration. -/
  rules : List Rule

def WorkspaceView.description (ws : WorkspaceView) : WorkspaceDescription where
  workspace := ws
  fullName := ws.catalog.packages.fullName ws.name
  types := ws.locals.filter fun t => t.name != ws.name

def Catalog.description (catalog : Catalog) : Description where
  packages := catalog.packages.toList
  workspaces :=
    (catalog.workspaces.filter fun ws => !ws.name.isSys).map WorkspaceView.description
  rules := catalog.rules

/-! ## Documents of the parts -/

open Document (entry entryIf recordOf tagged texts)

def QName.document (name : QName) : Document := .text name.text

def nameTexts (names : List QName) : Document := texts (names.map QName.text)

def Comment.entry (comment : Comment) : Option (String × Document) :=
  comment.map fun text => ("comment", .text text)

def QName.entry (key : String) (name : QName) : Option (String × Document) :=
  entryIf (!name.isNull) key name.document

def Constraint.document (c : Constraint) : Document :=
  tagged c.kind.text <| match c with
    | minLen length | maxLen length => .natural length
    | pattern expression => .text expression
    | minIncl bound | minExcl bound | maxIncl bound | maxExcl bound => .number bound
    | enum values => texts values

def Constraint.entry (constraints : List Constraint) : Option (String × Document) :=
  entryIf (!constraints.isEmpty) "constraints" (.list (constraints.map Constraint.document))

mutual

def Selector.document : Selector → Document
  | .names list => tagged "Names" (nameTexts list.toList)
  | .kinds list => tagged "Kinds" (Document.texts (list.toList.map TypeKind.text))
  | .tags list => tagged "Tags" (nameTexts list.toList)
  | .workspace name => tagged "Workspace" name.document
  | .and parts => tagged "And" (.list (Selector.documents parts))
  | .or parts => tagged "Or" (.list (Selector.documents parts))
  | .not part => tagged "Not" part.document

def Selector.documents : List Selector → List Document
  | [] => []
  | part :: rest => part.document :: Selector.documents rest

end

def Field.document (field : Field) : Document :=
  recordOf [
    entry "name" (.text field.name),
    entry "data" field.data.document,
    entry "data_kind" (.text field.kind.text),
    entry "required" (.bool field.required),
    entryIf (!field.verifications.isEmpty) "verify"
      (texts (field.verifications.toList.map Verification.text)),
    Constraint.entry field.constraints,
    entryIf field.isReference "refs" (nameTexts field.targetList),
    field.comment.entry]

def Fields.document (fields : Fields) : Document := .list (fields.map Field.document)

def Occurs.document (bound : Occurs) : Document :=
  if bound.isUnbounded then .text bound.text else .natural bound.count.toNat

def Container.document (container : Container) : Document :=
  recordOf [
    entry "name" (.text container.name),
    entry "target" container.target.document,
    entry "min_occurs" container.min.document,
    entry "max_occurs" container.max.document,
    container.comment.entry]

def Unique.document (unique : Unique) : Document :=
  recordOf [entry "name" unique.name.document, entry "fields" (texts unique.fields)]

def Structure.document (s : Structure) : Document :=
  recordOf [
    entry "fields" (Fields.document s.fields),
    entryIf (!s.containers.isEmpty) "containers" (.list (s.containers.map Container.document)),
    entryIf (!s.uniques.isEmpty) "uniques" (.list (s.uniques.map Unique.document)),
    entryIf s.singleton "singleton" (.bool true)]

def View.document (view : View) : Document :=
  recordOf [
    entry "fields" (Fields.document view.fields),
    entry "partition" (texts view.partition),
    entry "clustering" (texts view.clustering),
    entry "value" (texts view.value)]

def Storage.document (storage : Storage) : Document :=
  recordOf [entry "names" (nameTexts storage.names.toList), storage.comment.entry]

def Storages.entry (key : String) (storages : Storages) : Option (String × Document) :=
  entryIf (!storages.isEmpty) key
    (.record (storages.toList.map fun (name, storage) => (name.text, storage.document)))

def StorageUse.entries (use : StorageUse) : List (Option (String × Document)) :=
  [Storages.entry "states" use.states, Storages.entry "intents" use.intents]

def ProjectorEvent.document (event : ProjectorEvent) : Document :=
  recordOf [
    entry "ops" (texts (event.triggers.toList.map Trigger.text)),
    entry "filter" event.selector.document,
    event.comment.entry]

def Callable.document (f : Callable) : Document :=
  recordOf ([
    entry "engine" (.text f.engine.text),
    f.param.entry "param",
    f.unloggedParam.entry "unlogged_param",
    f.result.entry "result"] ++ f.storages.entries)

def Projector.document (p : Projector) : Document :=
  recordOf ([
    entry "engine" (.text p.engine.text),
    entry "sync" (.bool p.sync),
    entry "want_errors" (.bool p.wantsErrors),
    entry "events" (.list (p.events.map ProjectorEvent.document))] ++ p.storages.entries)

def Job.document (j : Job) : Document :=
  recordOf ([
    entry "engine" (.text j.engine.text),
    entry "cron" (.text j.schedule)] ++ j.storages.entries)

def DataType.document (data : DataType) : Document :=
  recordOf [
    entry "kind" (.text data.kind.text),
    data.ancestor.entry "ancestor",
    Constraint.entry data.constraints]

def Workspace.document (ws : Workspace) : Document :=
  recordOf [
    entryIf (!ws.ancestors.isEmpty) "ancestors" (nameTexts ws.ancestors),
    entryIf (!ws.used.isEmpty) "used" (nameTexts ws.used),
    ws.descriptor.map fun name => ("descriptor", name.document)]

def Rate.document (rate : Rate) : Document :=
  recordOf [
    entry "count" (.natural rate.count),
    entry "period" (recordOf [
      entry "secs" (.natural rate.period.seconds),
      entry "nanos" (.natural rate.period.nanoseconds)]),
    entry "scopes" (texts (rate.scopes.toList.map RateScope.text))]

def OperationSet.document (operations : OperationSet) : Document :=
  texts (operations.toList.map Operation.text)

def Limit.document (limit : Limit) : Document :=
  recordOf [
    entry "ops" (OperationSet.document limit.operations),
    entry "filter" limit.selector.document,
    entry "rate" limit.rate.document]

def Body.document : Body → Document
  | .null => .text "Null"
  | .any => .text "Any"
  | .role => .text "Role"
  | .data d => tagged "Data" d.document
  | .structured s => tagged "Structure" s.document
  | .view v => tagged "View" v.document
  | .function f => tagged "Function" f.document
  | .projector p => tagged "Projector" p.document
  | .job j => tagged "Job" j.document
  | .workspace ws => tagged "Workspace" ws.document
  | .tag feature => tagged "Tag" (recordOf [entry "feature" (.text feature)])
  | .rate r => tagged "Rate" r.document
  | .limit l => tagged "Limit" l.document

def TypeDef.document (t : TypeDef) : Document :=
  recordOf [
    entry "name" t.name.document,
    entry "kind" (.text t.kind.text),
    entry "workspace" t.workspace.document,
    t.comment.entry,
    entryIf t.isAbstract "abstract" (.bool true),
    entryIf (!t.tags.isEmpty) "tags" (nameTexts t.tags.toList),
    entry "body" t.body.document]

def Rule.document (rule : Rule) : Document :=
  recordOf [
    entry "position" (.natural rule.position),
    entry "policy" (.text rule.policy.text),
    entry "ops" (OperationSet.document rule.operations),
    entry "filter" rule.selector.document,
    entryIf (!rule.fields.isEmpty) "fields" (texts rule.fields),
    entry "principal" rule.principal.document,
    entry "workspace" rule.workspace.document,
    rule.comment.entry]

/-! ## Documents of descriptions -/

def WorkspaceDescription.document (d : WorkspaceDescription) : Document :=
  let ws := d.workspace
  recordOf [
    entry "name" ws.name.document,
    entry "full_name" (.text d.fullName.text),
    entryIf ws.type.isAbstract "abstract" (.bool true),
    entry "ancestors" (nameTexts ws.ancestors),
    entryIf (!ws.body.used.isEmpty) "used" (nameTexts ws.body.used),
    ws.descriptor?.map fun t => ("descriptor", t.name.document),
    entry "types" (.list (d.types.map TypeDef.document))]

def Description.document (d : Description) : Document :=
  recordOf [
    entry "packages" (.record (d.packages.map fun (pkg, path) => (pkg, .text path))),
    entry "workspaces" (.list (d.workspaces.map WorkspaceDescription.document)),
    entry "acl" (.list (d.rules.map Rule.document))]

def Catalog.describe (catalog : Catalog) : Document := catalog.description.document

def Catalog.json (catalog : Catalog) : String := catalog.describe.pretty

end TypeCatalog
