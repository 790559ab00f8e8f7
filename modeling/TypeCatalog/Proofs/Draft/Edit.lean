import TypeCatalog.Proofs.Checks
import TypeCatalog.Proofs.Draft.Step

/-!
# Edits take steps

`Edit.run_yields` walks every edit from its first check to its change: an edit fails and leaves
the draft alone, or it leaves it alone in success, or it takes one `Draft.Step`.

The drafts that edits lead to are `Draft.Reachable`; `Draft.Reachable.invariant` reduces a
property of all of them to the initial draft and to single steps.
-/

namespace TypeCatalog

open Draft

variable {draft : Draft} {name ws : QName} {t : TypeDef}

namespace Draft

theorem findWorkspace_eq_ok_iff {home : Workspace} :
    draft.findWorkspace ws = .ok home ↔
      ∃ owner, draft.types[ws]? = some owner ∧ owner.body = .workspace home := by
  unfold findWorkspace
  cases found : draft.types[ws]? with
  | none => simp
  | some owner =>
      cases body : owner.body <;> simp [TypeDef.workspace?, body]

/-- Changing a type that is there frees no name and takes none. -/
theorem isBound_withType (found : draft.types[name]? = some t) (changed : TypeDef)
    (other : QName) : (draft.withType name changed).isBound other = draft.isBound other := by
  have kept : (draft.withType name changed).types.contains other = draft.types.contains other := by
    rw [Std.ExtTreeMap.contains_eq_isSome_getElem?, Std.ExtTreeMap.contains_eq_isSome_getElem?,
      withType_getElem?]
    by_cases same : name = other
    · rw [if_pos same, ← same, found]
      rfl
    · rw [if_neg same]
  unfold isBound
  rw [kept, withType_uniques]

end Draft

namespace Build

/-! ## Changes of single types -/

section Types

variable {post : Unit → Draft → Prop}

theorem updateType_run {change : TypeDef → Except DefinitionError TypeDef} {changed : TypeDef}
    (found : draft.types[name]? = some t) (made : change t = .ok changed) :
    updateType name change draft = .ok () (draft.withType name changed) := by
  unfold updateType
  rw [run_get, found]
  exact run_check made

/-- A change of whatever type has the name, if there is one. -/
theorem updateFound_yields {change : TypeDef → Except DefinitionError TypeDef}
    (holds : ∀ t changed, draft.types[name]? = some t → change t = .ok changed →
      post () (draft.withType name changed)) :
    Yields (updateType name change) draft post := by
  unfold updateType
  refine yields_get ?_
  cases found : draft.types[name]? with
  | none => exact yields_throw
  | some t =>
      refine yields_check fun changed made => ?_
      exact yields_modify (holds t changed found made)

theorem updateType_yields {change : TypeDef → Except DefinitionError TypeDef}
    (found : draft.types[name]? = some t)
    (holds : ∀ changed, change t = .ok changed → post () (draft.withType name changed)) :
    Yields (updateType name change) draft post := by
  refine updateFound_yields fun t' changed found' made => ?_
  rw [found] at found'
  cases found'
  exact holds changed made

theorem updateWorkspace_yields {change : Workspace → Workspace}
    (holds : ∀ owner home, draft.types[ws]? = some owner → owner.body = .workspace home →
      post () (draft.withType ws { owner with body := .workspace (change home) })) :
    Yields (updateWorkspace ws change) draft post := by
  unfold updateWorkspace
  refine yields_get ?_
  refine yields_check fun home isWorkspace => ?_
  obtain ⟨owner, found, body⟩ := findWorkspace_eq_ok_iff.mp isWorkspace
  refine updateType_yields found fun changed made => ?_
  cases made
  exact holds owner home found body

/-! ### Types of one form

The next lemmas are about the functions that change the body of a type of one form and refuse
all other types.  What is left of such a change is the body before, the body after, and the check
that led from one to the other. -/

theorem updateStructure_yields
    {change : TypeKind → Structure → Except DefinitionError Structure}
    (found : draft.types[name]? = some t)
    (holds : ∀ s changed, t.body = .structured s → change t.kind s = .ok changed →
      post () (draft.withType name { t with body := .structured changed })) :
    Yields (updateStructure name change) draft post := by
  unfold updateStructure
  refine updateType_yields found fun changed made => ?_
  cases body : t.body <;> simp only [body, reduceCtorEq] at made
  obtain ⟨s, passed, made⟩ := Check.bind_eq_ok_iff.mp made
  cases made
  exact holds _ s body passed

theorem updateView_yields {change : View → Except DefinitionError View}
    (found : draft.types[name]? = some t)
    (holds : ∀ v changed, t.body = .view v → change v = .ok changed →
      post () (draft.withType name { t with body := .view changed })) :
    Yields (updateView name change) draft post := by
  unfold updateView
  refine updateType_yields found fun changed made => ?_
  cases body : t.body <;> simp only [body, reduceCtorEq] at made
  obtain ⟨v, passed, made⟩ := Check.bind_eq_ok_iff.mp made
  cases made
  exact holds _ v body passed

theorem updateFunction_yields
    {change : TypeKind → Callable → Except DefinitionError Callable}
    (found : draft.types[name]? = some t)
    (holds : ∀ f changed, t.body = .function f →
      post () (draft.withType name { t with body := .function changed })) :
    Yields (updateFunction name change) draft post := by
  unfold updateFunction
  refine updateType_yields found fun changed made => ?_
  cases body : t.body <;> simp only [body, reduceCtorEq] at made
  obtain ⟨f, passed, made⟩ := Check.bind_eq_ok_iff.mp made
  cases made
  exact holds _ f body

theorem updateProjector_yields {change : Projector → Projector}
    (found : draft.types[name]? = some t)
    (holds : ∀ p changed, t.body = .projector p →
      post () (draft.withType name { t with body := .projector changed })) :
    Yields (updateProjector name change) draft post := by
  unfold updateProjector
  refine updateType_yields found fun changed made => ?_
  cases body : t.body <;> simp only [body, reduceCtorEq] at made
  cases made
  exact holds _ _ body

theorem updateJob_yields {change : Job → Job} (found : draft.types[name]? = some t)
    (holds : ∀ j changed, t.body = .job j →
      post () (draft.withType name { t with body := .job changed })) :
    Yields (updateJob name change) draft post := by
  unfold updateJob
  refine updateType_yields found fun changed made => ?_
  cases body : t.body <;> simp only [body, reduceCtorEq] at made
  cases made
  exact holds _ _ body

end Types

/-! ## Edits of types

What an edit makes of a type is said with all that it found out on the way, and with the type as the
edit leaves it. -/

section TypeEdits

variable {post : Unit → Draft → Prop} (found : draft.types[name]? = some t)
include found

theorem pushField_yields {field : Field}
    (holds : ∀ s changed, t.body = .structured s →
      s.addField field t.kind draft.config = .ok changed →
      post () (draft.withType name { t with body := .structured changed })) :
    Yields (pushField name field) draft post := by
  unfold pushField
  refine yields_get ?_
  exact updateStructure_yields found holds

theorem addDataField_yields {fieldName : String} {data : QName} {required : Bool}
    (holds : ∀ dataType field s changed,
      draft.findDataType (draft.types.resolve name).workspace data = .ok dataType →
      (Field.ofData fieldName data (dataKindOf dataType) required).setConstraints
        draft.config.isPattern (draft.types.effectiveConstraints data) = .ok field →
      t.body = .structured s → s.addField field t.kind draft.config = .ok changed →
      post () (draft.withType name { t with body := .structured changed })) :
    Yields (addDataField name fieldName data required) draft post := by
  unfold addDataField
  refine yields_get ?_
  refine yields_check fun dataType visible => ?_
  refine yields_check fun field constrained => ?_
  exact pushField_yields found fun s changed => holds dataType field s changed visible constrained

theorem updateField_yields {fieldName : String}
    {change : Field → Except DefinitionError Field}
    (holds : ∀ s fields, t.body = .structured s →
      Fields.update fieldName change s.fields = .ok fields →
      post () (draft.withType name { t with body := .structured { s with fields } })) :
    Yields (updateField name fieldName change) draft post := by
  unfold updateField
  refine updateStructure_yields found fun s changed body made => ?_
  obtain ⟨fields, updated, made⟩ := Check.bind_eq_ok_iff.mp made
  cases made
  exact holds s fields body updated

theorem addContainer_yields {container : String} {target : QName} {min max : Occurs}
    (holds : ∀ made s changed, Container.make container target min max = .ok made →
      t.body = .structured s →
      s.addContainer made t.kind ((draft.types[target]?).map TypeDef.kind) draft.config =
        .ok changed →
      post () (draft.withType name { t with body := .structured changed })) :
    Yields (addContainer name container target min max) draft post := by
  unfold addContainer
  refine yields_get ?_
  refine yields_check fun made bounded => ?_
  exact updateStructure_yields found fun s changed => holds made s changed bounded

theorem addViewField_yields {part : ViewPart} {field : Field}
    (holds : ∀ v changed, t.body = .view v → v.addField part field draft.config = .ok changed →
      post () (draft.withType name { t with body := .view changed })) :
    Yields (addViewField name part field) draft post := by
  unfold addViewField
  refine yields_get ?_
  exact updateView_yields found holds

theorem addTag_yields {tag : QName}
    (holds : ∀ tagType, draft.types.visible? t.workspace tag = some tagType →
      tagType.kind = .tag → post () (draft.withType name { t with tags := t.tags.insert tag })) :
    Yields (addTag name tag) draft post := by
  unfold addTag
  refine yields_get ?_
  rw [found]
  cases visible : draft.types.visible? t.workspace tag with
  | none => simp only [visible]; exact yields_throw
  | some tagType =>
      simp only [visible]
      refine yields_unless fun isTag => ?_
      refine updateType_yields found fun changed made => ?_
      cases made
      exact holds tagType visible (Decidable.not_not.mp isTag)

theorem addEvent_yields {triggers : List Trigger} {selector : Selector} {comment : Comment}
    (holds : ∀ p changed, t.body = .projector p →
      post () (draft.withType name { t with body := .projector changed })) :
    Yields (addEvent name triggers selector comment) draft post := by
  unfold addEvent
  refine yields_unless fun _ => ?_
  exact updateProjector_yields found holds

/-! ### What functions, projectors and jobs share -/

variable
  (function : ∀ f changed, t.body = .function f →
    post () (draft.withType name { t with body := .function changed }))
  (projector : ∀ p changed, t.body = .projector p →
    post () (draft.withType name { t with body := .projector changed }))
  (job : ∀ j changed, t.body = .job j →
    post () (draft.withType name { t with body := .job changed }))
include function projector job

theorem setEngine_yields {engine : Engine} : Yields (setEngine name engine) draft post := by
  unfold setEngine
  refine updateType_yields found fun changed made => ?_
  cases body : t.body <;> simp only [body, reduceCtorEq] at made
  · cases made
    exact function _ _ body
  · cases made
    exact projector _ _ body
  · cases made
    exact job _ _ body

theorem updateStorages_yields {side : StorageSide}
    {change : Storages → Except DefinitionError Storages} :
    Yields (updateStorages name side change) draft post := by
  unfold updateStorages
  refine updateType_yields found fun changed made => ?_
  cases body : t.body <;> simp only [body, reduceCtorEq] at made
  all_goals
    obtain ⟨storages, -, made⟩ := Check.bind_eq_ok_iff.mp made
    cases made
  · exact function _ _ body
  · exact projector _ _ body
  · exact job _ _ body

end TypeEdits

/-! ## Edits that change a draft twice -/

theorem bindUnique_run {unique owner : QName}
    (valid : unique.check draft.config.maxIdentLen = .ok ())
    (free : draft.isBound unique = false) :
    bindUnique unique owner draft =
      .ok () { draft with uniques := draft.uniques.insert unique owner } := by
  unfold bindUnique
  rw [run_get, run_check valid, if_neg (by simp [free])]
  rfl

/-- Binding the name of a unique cannot fail any more once the structure has the unique. -/
theorem addUnique_yields {unique : QName} {fields : List String} {post : Unit → Draft → Prop}
    (found : draft.types[name]? = some t)
    (holds : ∀ s changed, t.body = .structured s →
      unique.check draft.config.maxIdentLen = .ok () → draft.isBound unique = false →
      s.addUnique unique fields draft.config = .ok changed →
      post () { draft.withType name { t with body := .structured changed } with
        uniques := draft.uniques.insert unique name }) :
    Yields (addUnique name unique fields) draft post := by
  unfold addUnique
  refine yields_get ?_
  refine yields_unless fun free => ?_
  refine yields_check fun _ valid => ?_
  rw [Bool.not_eq_true] at free
  have structured : Yields
      (updateStructure name fun _ s => s.addUnique unique fields draft.config) draft
      fun _ changed => ∃ s s', t.body = .structured s ∧
        s.addUnique unique fields draft.config = .ok s' ∧
        changed = draft.withType name { t with body := .structured s' } :=
    updateStructure_yields found fun s s' body added => ⟨s, s', body, added, rfl⟩
  refine yields_bind structured ?_
  intro _ changed became
  obtain ⟨s, s', body, added, rfl⟩ := became
  refine ⟨(), _, bindUnique_run valid ?_, holds s s' body valid free added⟩
  rw [isBound_withType found]
  exact free

theorem exists_data_of_dataBody {kind : DataKind} {ancestor : QName}
    {constraints : List Constraint} {body : Body}
    (made : dataBody draft ws kind ancestor constraints = .ok body) : ∃ d, body = .data d := by
  unfold dataBody at made
  obtain ⟨_, _, made⟩ := Check.bind_eq_ok_iff.mp made
  obtain ⟨_, made⟩ := Check.unless_eq_ok_iff.mp made
  split at made
  next =>
    cases made
    exact ⟨_, rfl⟩
  next => cases made

/-- The bodies that new types start with. -/
inductive NewBody : TypeKind → Body → Prop
  | structured {kind : TypeKind} : kind.isStructure = true →
    NewBody kind (.structured (.ofKind kind))
  | view : NewBody .view (.view {})
  | function {kind : TypeKind} : kind.isFunction = true → NewBody kind (.function {})
  | projector : NewBody .projector (.projector {})
  | job : NewBody .job (.job {})
  | role : NewBody .role .role
  | data (d : DataType) : NewBody .data (.data d)
  | tag (feature : String) : NewBody .tag (.tag feature)
  | rate (r : Rate) : NewBody .rate (.rate r)
  | limit (l : Limit) : NewBody .limit (.limit l)

theorem newBody_of_bodyOf {declaration : Declaration} {kind : TypeKind} {body : Body}
    (made : bodyOf draft ws declaration = .ok (kind, body)) : NewBody kind body := by
  cases declaration with
  | structured kind isStructure =>
      cases made
      exact .structured isStructure
  | view =>
      cases made
      exact .view
  | command | query =>
      cases made
      exact .function rfl
  | projector =>
      cases made
      exact .projector
  | job =>
      cases made
      exact .job
  | role =>
      cases made
      exact .role
  | data dataKind ancestor constraints =>
      obtain ⟨body, dataMade, made⟩ := Check.bind_eq_ok_iff.mp made
      obtain ⟨_, rfl⟩ := exists_data_of_dataBody dataMade
      cases made
      exact .data _
  | tag feature =>
      cases made
      exact .tag _
  | rate count period scopes =>
      obtain ⟨_, _, made⟩ := Check.bind_eq_ok_iff.mp made
      cases made
      exact .rate _
  | limit operations selector rate =>
      obtain ⟨_, _, made⟩ := Check.bind_eq_ok_iff.mp made
      cases made
      exact .limit _

/-- Only workspaces have the body of one, and none is declared in another. -/
theorem bodyOf_ne_workspace {declaration : Declaration} {kind : TypeKind} {home : Workspace} :
    bodyOf draft ws declaration ≠ .ok (kind, .workspace home) := by
  intro made
  cases newBody_of_bodyOf made

theorem declare_yields {declaration : Declaration} {post : Unit → Draft → Prop}
    (holds : ∀ kind body owner home, name.check draft.config.maxIdentLen = .ok () →
      draft.isBound name = false → bodyOf draft ws declaration = .ok (kind, body) →
      draft.types[ws]? = some owner → owner.body = .workspace home →
      post () ((draft.withType ws { owner with
        body := .workspace (home.addLocal name) }).withType name
          { name, kind, workspace := ws, body })) :
    Yields (declare ws name declaration) draft post := by
  unfold declare
  refine yields_get ?_
  refine yields_check fun ⟨kind, body⟩ made => ?_
  unfold addType
  refine yields_get ?_
  refine yields_check fun _ valid => ?_
  refine yields_unless fun free => ?_
  rw [Bool.not_eq_true] at free
  have walk : Yields (do
      updateWorkspace ws fun home => home.addLocal name
      putType { name, kind, workspace := ws, body })
      draft post := by
    have listed : Yields (updateWorkspace ws fun home => home.addLocal name) draft
        fun _ changed => ∃ owner home, draft.types[ws]? = some owner ∧
          owner.body = .workspace home ∧
          changed = draft.withType ws { owner with body := .workspace (home.addLocal name) } :=
      updateWorkspace_yields fun owner home found isWorkspace =>
        ⟨owner, home, found, isWorkspace, rfl⟩
    refine yields_bind listed ?_
    intro _ changed became
    obtain ⟨owner, home, found, isWorkspace, rfl⟩ := became
    exact ⟨(), _, rfl, holds kind body owner home valid free made found isWorkspace⟩
  cases body with
  | workspace home => exact absurd made bodyOf_ne_workspace
  | _ => exact walk

/-- Marking the workspace abstract cannot fail any more once it has the descriptor. -/
theorem setDescriptor_yields {descriptor : QName} {post : Unit → Draft → Prop}
    (holds : ∀ owner home, draft.types[ws]? = some owner → owner.body = .workspace home →
      home.locals.contains descriptor = true → (draft.types.resolve descriptor).kind = .cDoc →
      post () (draft.withType ws { owner with
        isAbstract := owner.isAbstract || (draft.types.resolve descriptor).isAbstract
        body := .workspace { home with descriptor := some descriptor } })) :
    Yields (setDescriptor ws descriptor) draft post := by
  unfold setDescriptor
  refine yields_get ?_
  refine yields_check fun home isWorkspace => ?_
  refine yields_unless fun isLocal => ?_
  refine yields_unless fun isDocument => ?_
  obtain ⟨owner, found, body⟩ := findWorkspace_eq_ok_iff.mp isWorkspace
  have described := holds owner home found body (by simpa using isLocal)
    (Decidable.not_not.mp isDocument)
  have first : Yields
      (updateWorkspace ws fun home => { home with descriptor := some descriptor }) draft
      fun _ changed => changed = draft.withType ws { owner with
        body := .workspace { home with descriptor := some descriptor } } := by
    refine updateWorkspace_yields fun owner' home' found' body' => ?_
    rw [found] at found'
    cases found'
    rw [body] at body'
    cases body'
    rfl
  refine yields_bind first ?_
  intro _ changed same
  subst same
  cases isAbstract : (draft.types.resolve descriptor).isAbstract with
  | false =>
      rw [isAbstract, Bool.or_false] at described
      exact ⟨(), _, rfl, described⟩
  | true =>
      rw [isAbstract, Bool.or_true] at described
      refine ⟨(), _, updateType_run (withType_getElem?_self ..) rfl, ?_⟩
      rw [withType_withType]
      exact described

end Build

/-! ## Every edit -/

open Build

/-- An edit of a type changes the type only, unless it adds a unique. -/
theorem TypeEdit.run_yields {post : Unit → Draft → Prop} (found : draft.types[name]? = some t)
    (amend : ∀ changed, TypeStep draft name t changed → post () (draft.withType name changed))
    (bind : ∀ unique fields s changed, t.body = .structured s →
      unique.check draft.config.maxIdentLen = .ok () → draft.isBound unique = false →
      s.addUnique unique fields draft.config = .ok changed →
      post () { draft.withType name { t with body := .structured changed } with
        uniques := draft.uniques.insert unique name })
    (edit : TypeEdit) : Yields (edit.run name) draft post := by
  have function f changed (body : t.body = .function f) :=
    amend { t with body := .function changed } (.function _ body)
  have projector p changed (body : t.body = .projector p) :=
    amend { t with body := .projector changed } (.projector _ body)
  have job j changed (body : t.body = .job j) :=
    amend { t with body := .job changed } (.job _ body)
  cases edit <;> unfold TypeEdit.run
  case setComment comment =>
      refine updateType_yields found fun changed made => ?_
      cases made
      exact amend _ (.comment _)
  case setAbstract =>
      refine updateType_yields found fun changed made => ?_
      cases made
      exact amend _ .setAbstract
  case addTag tag => exact addTag_yields found fun _ visible isTag => amend _ (.tag visible isTag)
  case addField field kind required =>
      exact pushField_yields found fun _ _ body added =>
        amend _ (.structured body (.pushField (.kind field kind required) added))
  case addDataField field data required =>
      exact addDataField_yields found fun _ _ _ _ visible constrained body added =>
        amend _ (.structured body (.pushField (.data visible constrained) added))
  case addRefField field required targets =>
      exact pushField_yields found fun _ _ body added =>
        amend _ (.structured body (.pushField (.reference field required targets) added))
  case setFieldConstraints field constraints =>
      refine yields_get ?_
      exact updateField_yields found fun _ _ body updated =>
        amend _ (.structured body (.updateField (fun _ _ made => .constraints made) updated))
  case setFieldVerification field ways =>
      exact updateField_yields found fun _ _ body updated =>
        amend _ (.structured body (.updateField (fun _ _ made => .verifications made) updated))
  case setFieldComment field comment =>
      refine updateField_yields found fun _ _ body updated =>
        amend _ (.structured body (.updateField (fun _ _ made => ?_) updated))
      cases made
      exact .comment _
  case addContainer container target min max =>
      exact addContainer_yields found fun _ _ _ bounded body added =>
        amend _ (.structured body (.addContainer bounded added))
  case setContainerComment container comment =>
      refine updateStructure_yields found fun s changed body made => ?_
      obtain ⟨containers, updated, made⟩ := Check.bind_eq_ok_iff.mp made
      cases made
      exact amend _ (.structured body (.commentContainer updated))
  case addUnique unique fields => exact addUnique_yields found (bind unique fields)
  case setSingleton =>
      refine updateStructure_yields found fun s changed body made => ?_
      split at made
      next allowed =>
        cases made
        exact amend _ (.structured body (.setSingleton allowed))
      next => cases made
  case addPartitionField field kind =>
      exact addViewField_yields found fun _ _ body added =>
        amend _ (.view body (.kind field kind true) added)
  case addClusteringField field kind =>
      exact addViewField_yields found fun _ _ body added =>
        amend _ (.view body (.kind field kind false) added)
  case addValueField field kind required =>
      exact addViewField_yields found fun _ _ body added =>
        amend _ (.view body (.kind field kind required) added)
  case addValueRefField field required targets =>
      exact addViewField_yields found fun _ _ body added =>
        amend _ (.view body (.reference field required targets) added)
  case setParam param => exact updateFunction_yields found function
  case setUnloggedParam param => exact updateFunction_yields found function
  case setResult result => exact updateFunction_yields found function
  case setEngine engine => exact setEngine_yields found function projector job
  case addEvent triggers selector comment => exact addEvent_yields found projector
  case setSync sync => exact updateProjector_yields found projector
  case setWantsErrors => exact updateProjector_yields found projector
  case setSchedule schedule => exact updateJob_yields found job
  case addStorage side storage names =>
      refine yields_get ?_
      exact updateStorages_yields found function projector job
  case setStorageComment side storage comment =>
      exact updateStorages_yields found function projector job

namespace Build

/-- What declares a rule appends it to the list and leaves everything else alone. -/
theorem addRule_appends {policy : Policy} {operations : List Operation} {selector : Selector}
    {fields : List String} {principal : QName} {comment : Comment} {post : Unit → Draft → Prop}
    (holds : ∀ rule : Rule, rule = {
          position := draft.rules.length
          policy, operations := .ofList operations, selector, fields, principal
          workspace := ws
          comment } →
      WorkspaceStep ws draft { draft with rules := draft.rules ++ [rule] } →
      post () { draft with rules := draft.rules ++ [rule] }) :
    Yields (addRule ws policy operations selector fields principal comment) draft post := by
  unfold addRule
  refine yields_get ?_
  refine yields_check fun home isWorkspace => ?_
  refine yields_check fun _ shaped => ?_
  cases visible : draft.types.visible? ws principal with
  | none => exact yields_throw
  | some role =>
      refine yields_unless fun isRole => ?_
      refine yields_check fun _ fits => ?_
      exact yields_set (holds _ rfl (.addRule comment isWorkspace shaped visible
        (Decidable.not_not.mp isRole) fits))

theorem addRule_yields {policy : Policy} {operations : List Operation} {selector : Selector}
    {fields : List String} {principal : QName} {comment : Comment} {post : Unit → Draft → Prop}
    (holds : ∀ rules, WorkspaceStep ws draft { draft with rules } → post () { draft with rules }) :
    Yields (addRule ws policy operations selector fields principal comment) draft post :=
  addRule_appends fun _ _ step => holds _ step

/-- A rule about all fields, for the default operations of the first type that it selects. -/
structure Blanket (draft : Draft) (ws : QName) (policy : Policy) (selector : Selector)
    (principal : QName) (first : TypeDef) (rule : Rule) : Prop where
  isFirst : (selector.select (draft.types.visibleDefs ws)).head? = some first
  isResource : first.kind.defaultOperations ≠ []
  workspace : rule.workspace = ws
  policy : rule.policy = policy
  operations : rule.operations = .ofList first.kind.defaultOperations
  selector : rule.selector = selector
  whole : rule.fields = []
  principal : rule.principal = principal

theorem addBlanketRule_appends {policy : Policy} {selector : Selector} {principal : QName}
    {comment : Comment} {post : Unit → Draft → Prop}
    (holds : ∀ (first : TypeDef) (rule : Rule),
      Blanket draft ws policy selector principal first rule →
      WorkspaceStep ws draft { draft with rules := draft.rules ++ [rule] } →
      post () { draft with rules := draft.rules ++ [rule] }) :
    Yields (addBlanketRule ws policy selector principal comment) draft post := by
  unfold addBlanketRule
  refine yields_get ?_
  cases selected : selector.select (draft.types.visibleDefs ws) with
  | nil => exact yields_throw
  | cons first rest =>
      refine yields_unless fun isResource => ?_
      rw [List.isEmpty_iff] at isResource
      refine addRule_appends fun rule made => holds first rule ?_
      subst made
      exact ⟨by rw [selected]; rfl, isResource, rfl, rfl, rfl, rfl, rfl, rfl⟩

theorem addBlanketRule_yields {policy : Policy} {selector : Selector} {principal : QName}
    {comment : Comment} {post : Unit → Draft → Prop}
    (holds : ∀ rules, WorkspaceStep ws draft { draft with rules } → post () { draft with rules }) :
    Yields (addBlanketRule ws policy selector principal comment) draft post :=
  addBlanketRule_appends fun _ _ _ step => holds _ step

theorem setAncestors_yields {ancestors : List QName} {post : Unit → Draft → Prop}
    (holds : ∀ owner home accepted, draft.types[ws]? = some owner →
      owner.body = .workspace home → ancestors ≠ [] →
      checkAncestors draft ws [] ancestors = .ok accepted →
      post () (draft.withType ws { owner with
        body := .workspace { home with ancestors := accepted } })) :
    Yields (setAncestors ws ancestors) draft post := by
  unfold setAncestors
  refine yields_unless fun nonempty => ?_
  refine yields_get ?_
  refine yields_check fun _ _ => ?_
  refine yields_check fun accepted checked => ?_
  refine updateWorkspace_yields fun owner home found body => ?_
  exact holds owner home accepted found body (by simpa using nonempty) checked

theorem useWorkspaces_yields {used : List QName} {post : Unit → Draft → Prop}
    (holds : ∀ owner home, draft.types[ws]? = some owner → owner.body = .workspace home →
      draft.checkWorkspaces used = .ok () →
      post () (draft.withType ws { owner with
        body := .workspace (used.foldl Workspace.addUsed home) })) :
    Yields (useWorkspaces ws used) draft post := by
  unfold useWorkspaces
  refine yields_get ?_
  refine yields_check fun _ _ => ?_
  refine yields_check fun _ checked => ?_
  exact updateWorkspace_yields fun owner home found body => holds owner home found body checked

/-- Only types that the workspace declares are amended. -/
theorem amend_yields {edit : TypeEdit} {post : Unit → Draft → Prop}
    (holds : ∀ t, draft.types[name]? = some t → t.workspace = ws → name ≠ ws →
      Yields (edit.run name) draft post) :
    Yields ((WorkspaceEdit.amend name edit).run ws) draft post := by
  refine yields_get ?_
  refine yields_check fun _ declared => ?_
  unfold checkDeclaredIn at declared
  cases found : draft.types[name]? with
  | none =>
      rw [found] at declared
      cases declared
  | some t =>
      simp only [found] at declared
      split at declared
      next home => exact holds t found home.1 home.2
      next => cases declared

end Build

theorem WorkspaceEdit.run_yields {home : Workspace} (opened : draft.findWorkspace ws = .ok home)
    (edit : WorkspaceEdit) :
    Yields (edit.run ws) draft fun _ after => WorkspaceStep ws draft after := by
  obtain ⟨owner, found, body⟩ := findWorkspace_eq_ok_iff.mp opened
  cases edit with
  | declare name declaration =>
      exact declare_yields fun _ _ _ _ valid free made found body =>
        .declare valid free made found body
  | amend name edit =>
      refine amend_yields fun t foundType declared other => ?_
      exact edit.run_yields foundType (fun _ step => .amend foundType declared other step)
        fun _ _ _ _ isStructure valid free added =>
          .addUnique foundType declared other isStructure valid free added
  | setAncestors ancestors =>
      exact setAncestors_yields fun _ _ _ found body nonempty checked =>
        .setAncestors found body nonempty checked
  | useWorkspaces used =>
      exact useWorkspaces_yields fun _ _ found body checked => .useWorkspaces found body checked
  | setDescriptor descriptor =>
      exact setDescriptor_yields fun _ _ found body isLocal isDocument =>
        .setDescriptor found body isLocal isDocument
  | setAbstract =>
      refine updateType_yields found fun changed made => ?_
      cases made
      exact .setAbstract found
  | setComment comment =>
      refine updateType_yields found fun changed made => ?_
      cases made
      exact .comment _ found
  | addRule policy operations selector fields principal comment =>
      exact addRule_yields fun _ step => step
  | addBlanketRule policy selector principal comment =>
      exact addBlanketRule_yields fun _ step => step

/-- What an edit may leave in success: the draft as it was, the draft with one more package, with
one more workspace or with another comment, or what an edit of a workspace leaves. -/
theorem Edit.run_yields_of {holds : Draft → Prop} (edit : Edit) (same : holds draft)
    (package : ∀ {pkg path packages},
      draft.packages.add draft.config.maxIdentLen pkg path = .ok packages →
      holds { draft with packages })
    (workspace : ∀ {name}, edit = .addWorkspace name →
      name.check draft.config.maxIdentLen = .ok () → draft.isBound name = false →
      holds (draft.withType name
        { name, kind := .workspace, workspace := name, body := .workspace (.addLocal {} name) }))
    (within : ∀ {ws home change}, edit = .within ws change → draft.findWorkspace ws = .ok home →
      Yields (change.run ws) draft fun _ after => holds after)
    (comment : ∀ {name comment t}, edit = .setTypeComment name comment →
      draft.types[name]? = some t →
      holds (draft.withType name { t with comment := .ofText comment })) :
    Yields edit.run draft fun _ after => holds after := by
  cases edit with
  | addPackage pkg path =>
      refine yields_get ?_
      refine yields_check fun packages added => ?_
      exact yields_set (package added)
  | addWorkspace name =>
      refine yields_get ?_
      refine yields_check fun _ valid => ?_
      refine yields_unless fun free => ?_
      rw [Bool.not_eq_true] at free
      exact yields_modify (workspace rfl valid free)
  | openWorkspace name =>
      refine yields_get ?_
      refine yields_check fun _ _ => ?_
      exact yields_pure same
  | within ws change =>
      refine yields_get ?_
      refine yields_check fun home opened => ?_
      exact within rfl opened
  | setTypeComment name text =>
      refine updateFound_yields fun t changed found made => ?_
      cases made
      exact comment rfl found

/-- An edit fails and leaves the draft alone, or it succeeds and leaves the draft alone or takes
one step. -/
theorem Edit.run_yields (edit : Edit) :
    Yields edit.run draft fun _ after => after = draft ∨ Step draft after :=
  edit.run_yields_of (.inl rfl) (fun added => .inr (.bindPackage added))
    (fun _ valid free => .inr (.addWorkspace valid free))
    (fun _ opened => (WorkspaceEdit.run_yields opened _).mono
      fun _ _ step => .inr (.within opened step))
    fun _ found => .inr (.comment _ found)

/-! ## Reachable drafts -/

namespace Draft

theorem applyAll_append (draft : Draft) (early late : List Edit) :
    draft.applyAll (early ++ late) = (draft.applyAll early).applyAll late :=
  List.foldl_append

theorem applyAll_concat (draft : Draft) (edits : List Edit) (edit : Edit) :
    draft.applyAll (edits ++ [edit]) = ((draft.applyAll edits).apply edit).2 :=
  applyAll_append ..

/-- What holds of a draft and of what an edit leaves in success holds of what the edit leaves. -/
theorem apply_of_yields {draft : Draft} {edit : Edit} {holds : Draft → Prop}
    (yields : Build.Yields edit.run draft fun _ after => holds after) (before : holds draft) :
    holds (draft.apply edit).2 := by
  unfold Build.Yields at yields
  unfold apply
  cases run : edit.run draft with
  | ok _ after =>
      rw [run] at yields
      exact yields
  | error _ after =>
      rw [run] at yields
      rw [yields]
      exact before

/-- What holds of what an edit leaves in success holds if it succeeds. -/
theorem of_apply_eq_ok {draft : Draft} {edit : Edit} {holds : Draft → Prop}
    (yields : Build.Yields edit.run draft fun _ after => holds after)
    (passed : (draft.apply edit).1 = .ok ()) : holds (draft.apply edit).2 := by
  unfold Build.Yields at yields
  unfold apply at passed ⊢
  cases run : edit.run draft with
  | ok _ after =>
      rw [run] at yields
      exact yields
  | error _ after =>
      rw [run] at passed
      cases passed

/-- Whatever an edit answers, it leaves the draft alone or takes one step. -/
theorem apply_eq_or_step (draft : Draft) (edit : Edit) :
    (draft.apply edit).2 = draft ∨ Step draft (draft.apply edit).2 :=
  apply_of_yields edit.run_yields (.inl rfl)

/-- An edit that is refused leaves the draft alone. -/
theorem apply_eq_of_refused {draft : Draft} {edit : Edit}
    (refused : (draft.apply edit).1 ≠ .ok ()) : (draft.apply edit).2 = draft := by
  have yields : Build.Yields edit.run draft _ := edit.run_yields
  unfold Build.Yields at yields
  unfold apply at refused ⊢
  cases run : edit.run draft with
  | ok _ after =>
      rw [run] at refused
      exact absurd rfl refused
  | error _ after =>
      rw [run] at yields
      exact yields

/-- The drafts that edits lead to, whether or not they succeed. -/
inductive Reachable : Draft → Prop
  | initial (config : Config) : Reachable (Draft.initial config)
  | apply {draft : Draft} (edit : Edit) : Reachable draft → Reachable (draft.apply edit).2

theorem Reachable.applyAll {draft : Draft} (reached : Reachable draft) (edits : List Edit) :
    Reachable (draft.applyAll edits) := by
  unfold Draft.applyAll
  induction edits generalizing draft with
  | nil => exact reached
  | cons edit rest ih => exact ih (.apply edit reached)

/-- What holds of every initial draft and is kept by every step holds of every reachable draft. -/
theorem Reachable.invariant {holds : Draft → Prop}
    (initial : ∀ config, holds (Draft.initial config))
    (step : ∀ before after, holds before → Step before after → holds after)
    {draft : Draft} (reached : Reachable draft) : holds draft := by
  induction reached with
  | initial config => exact initial config
  | @apply before edit _ ih =>
      rcases apply_eq_or_step before edit with same | changed
      · rw [same]
        exact ih
      · exact step _ _ ih changed

end Draft

end TypeCatalog
