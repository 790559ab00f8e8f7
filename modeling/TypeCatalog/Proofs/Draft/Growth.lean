import Mathlib.Data.List.Infix
import TypeCatalog.Proofs.Draft.Members
import TypeCatalog.Proofs.Draft.Fields
import TypeCatalog.Proofs.Packages

/-!
# Drafts grow

Checks are made once, when something is declared, and are relied on for good.  They may be, since
nothing that they looked at is ever taken away or bound anew: edits append to lists, add names, and
change only what no check looks at.

* `Body.Extends`: what is kept of the body of a type, form by form.  Fields and containers are
  compared as they were declared (`Field.declared`, `Container.declared`), without what may be set
  later on.
* `Draft.Extends`: what is kept of a draft; it is reflexive and transitive, and every step keeps
  it (`Draft.Step.extends`).
* `Draft.apply_extends`: every edit keeps it, whatever the edit answers.
-/

namespace TypeCatalog

/-! ## Fields and containers as declared -/

/-- The field without what may be set after its declaration. -/
def Field.declared (field : Field) : Field :=
  { field with verifications := ∅, constraints := [], comment := none }

/-- The container without what may be set after its declaration. -/
def Container.declared (container : Container) : Container := { container with comment := none }

theorem Draft.FieldStep.declared_eq {isPattern : String → Bool} {field changed : Field}
    (step : FieldStep isPattern field changed) : changed.declared = field.declared := by
  cases step with
  | constraints made => rw [(Field.setConstraints_eq_ok_iff.mp made).2]; rfl
  | verifications made => rw [(Field.setVerifications_eq_ok_iff.mp made).2]; rfl
  | comment _ => rfl

/-- The later fields begin with the earlier ones. -/
def Fields.Extends (fields later : Fields) : Prop :=
  fields.map Field.declared <+: later.map Field.declared

theorem Draft.FieldsStep.extends {draft : Draft} {name : QName} {kind : TypeKind}
    {fields later : Fields} (step : FieldsStep draft name kind fields later) :
    fields.Extends later := by
  unfold Fields.Extends
  cases step with
  | kept => exact List.prefix_rfl
  | pushed _ made =>
      rw [Fields.push_eq made, List.map_append]
      exact List.prefix_append _ _
  | updated step made =>
      rw [Fields.map_update (fun f changed became => (step f changed became).declared_eq) made]

/-! ## Bodies -/

/-- What a structure keeps when it is changed. -/
structure Structure.Extends (s later : Structure) : Prop where
  fields : s.fields.Extends later.fields
  containers : s.containers.map Container.declared <+: later.containers.map Container.declared
  uniques : s.uniques <+: later.uniques

/-- What a view keeps when it is changed. -/
structure View.Extends (v later : View) : Prop where
  fields : v.fields.Extends later.fields
  partition : v.partition <+: later.partition
  clustering : v.clustering <+: later.clustering
  value : v.value <+: later.value

/-- What is kept of a body: structures and views append to their lists, a body that runs or that
declares types keeps its form, and the others are never changed. -/
def Body.Extends (body after : Body) : Prop :=
  match body with
  | .structured s => ∃ later, after = .structured later ∧ s.Extends later
  | .view v => ∃ later, after = .view later ∧ v.Extends later
  | .function _ => ∃ later, after = .function later
  | .projector _ => ∃ later, after = .projector later
  | .job _ => ∃ later, after = .job later
  | .workspace _ => ∃ later, after = .workspace later
  | .data d => after = .data d
  | .tag feature => after = .tag feature
  | .rate r => after = .rate r
  | .limit l => after = .limit l
  | .role => after = .role
  | .null => after = .null
  | .any => after = .any

theorem Fields.Extends.refl (fields : Fields) : fields.Extends fields := List.prefix_rfl

theorem Structure.Extends.refl (s : Structure) : s.Extends s :=
  ⟨.refl _, List.prefix_rfl, List.prefix_rfl⟩

theorem Structure.Extends.trans {s middle later : Structure} (first : s.Extends middle)
    (second : middle.Extends later) : s.Extends later where
  fields := List.IsPrefix.trans first.fields second.fields
  containers := first.containers.trans second.containers
  uniques := first.uniques.trans second.uniques

theorem View.Extends.refl (v : View) : v.Extends v :=
  ⟨.refl _, List.prefix_rfl, List.prefix_rfl, List.prefix_rfl⟩

theorem View.Extends.trans {v middle later : View} (first : v.Extends middle)
    (second : middle.Extends later) : v.Extends later where
  fields := List.IsPrefix.trans first.fields second.fields
  partition := first.partition.trans second.partition
  clustering := first.clustering.trans second.clustering
  value := first.value.trans second.value

theorem Body.Extends.refl (body : Body) : body.Extends body := by
  cases body with
  | structured s => exact ⟨s, rfl, .refl s⟩
  | view v => exact ⟨v, rfl, .refl v⟩
  | function later | projector later | job later | workspace later => exact ⟨later, rfl⟩
  | _ => rfl

theorem Body.Extends.trans {body middle after : Body} (first : body.Extends middle)
    (second : middle.Extends after) : body.Extends after := by
  cases body with
  | structured s =>
      obtain ⟨s₁, rfl, first⟩ := first
      obtain ⟨s₂, rfl, second⟩ := second
      exact ⟨s₂, rfl, first.trans second⟩
  | view v =>
      obtain ⟨v₁, rfl, first⟩ := first
      obtain ⟨v₂, rfl, second⟩ := second
      exact ⟨v₂, rfl, first.trans second⟩
  | function _ | projector _ | job _ | workspace _ =>
      obtain ⟨_, rfl⟩ := first
      exact second
  | _ =>
      cases first
      exact second

/-- What a type keeps when it is changed. -/
structure TypeDef.Extends (t changed : TypeDef) : Prop where
  name : changed.name = t.name
  kind : changed.kind = t.kind
  workspace : changed.workspace = t.workspace
  body : t.body.Extends changed.body

theorem TypeDef.Extends.refl (t : TypeDef) : t.Extends t := ⟨rfl, rfl, rfl, .refl _⟩

theorem TypeDef.Extends.trans {t middle later : TypeDef} (first : t.Extends middle)
    (second : middle.Extends later) : t.Extends later where
  name := second.name.trans first.name
  kind := second.kind.trans first.kind
  workspace := second.workspace.trans first.workspace
  body := first.body.trans second.body

/-! ## Drafts -/

/-- What a table of types keeps. -/
def TypeTable.Extends (types after : TypeTable) : Prop :=
  ∀ (name : QName) (t : TypeDef), types[name]? = some t →
    ∃ later, after[name]? = some later ∧ t.Extends later

/-- What a draft keeps: its types as far as they were declared, its rules, and what names are bound
to. -/
structure Draft.Extends (draft after : Draft) : Prop where
  types : draft.types.Extends after.types
  rules : draft.rules <+: after.rules
  paths : ∀ {pkg path : String}, draft.packages.path? pkg = some path →
    after.packages.path? pkg = some path
  names : ∀ {pkg path : String}, draft.packages.name? path = some pkg →
    after.packages.name? path = some pkg
  uniques : ∀ {unique owner : QName}, draft.uniques[unique]? = some owner →
    after.uniques[unique]? = some owner

theorem TypeTable.Extends.refl (types : TypeTable) : types.Extends types :=
  fun _ t found => ⟨t, found, .refl t⟩

theorem TypeTable.Extends.trans {types middle after : TypeTable} (first : types.Extends middle)
    (second : middle.Extends after) : types.Extends after := by
  intro name t found
  obtain ⟨t₁, found₁, extends₁⟩ := first name t found
  obtain ⟨t₂, found₂, extends₂⟩ := second name t₁ found₁
  exact ⟨t₂, found₂, extends₁.trans extends₂⟩

namespace Draft

variable {draft middle after : Draft} {name ws : QName} {t changed : TypeDef}

theorem Extends.refl (draft : Draft) : draft.Extends draft :=
  ⟨.refl _, List.prefix_rfl, id, id, id⟩

theorem Extends.trans (first : draft.Extends middle) (second : middle.Extends after) :
    draft.Extends after where
  types := first.types.trans second.types
  rules := first.rules.trans second.rules
  paths bound := second.paths (first.paths bound)
  names bound := second.names (first.names bound)
  uniques bound := second.uniques (first.uniques bound)

/-- Where only types change, only types have to be looked at. -/
theorem Extends.of_types {types : TypeTable} (kept : draft.types.Extends types) :
    draft.Extends { draft with types } :=
  ⟨kept, List.prefix_rfl, id, id, id⟩

theorem extends_withType (found : draft.types[name]? = some t) (extended : t.Extends changed) :
    draft.Extends (draft.withType name changed) := by
  refine .of_types fun other u foundOther => ?_
  rw [getElem?_insert]
  split
  next same =>
    rw [← same, found] at foundOther
    cases foundOther
    exact ⟨changed, rfl, extended⟩
  next => exact ⟨u, foundOther, .refl u⟩

theorem extends_withType_of_free (free : draft.types[name]? = none) (t : TypeDef) :
    draft.Extends (draft.withType name t) :=
  .of_types fun _ u found => ⟨u, getElem?_insert_of_free free found, .refl u⟩

theorem extends_insertUnique {unique : QName} (free : draft.uniques[unique]? = none)
    (owner : QName) : draft.Extends { draft with uniques := draft.uniques.insert unique owner } :=
  ⟨.refl _, List.prefix_rfl, id, id, getElem?_insert_of_free free⟩

/-! ## Steps -/

/-- A name or a path that is bound is not bound again to anything else. -/
theorem extends_bindPackage {limit : Nat} {pkg path : String} {packages : Packages}
    (added : draft.packages.add limit pkg path = .ok packages) :
    draft.Extends { draft with packages } := by
  have kept := Packages.keeps_of_add added
  exact ⟨.refl _, List.prefix_rfl, kept.paths _ _, kept.names _ _, id⟩

theorem StructureStep.extends {kind : TypeKind} {s later : Structure}
    (step : StructureStep draft name kind s later) : s.Extends later := by
  refine ⟨step.fields.extends, ?_, ?_⟩
  · cases step with
    | pushField _ added =>
        rw [Structure.addField_eq added]
    | addContainer _ added =>
        rw [Structure.addContainer_eq added, List.map_append]
        exact List.prefix_append _ _
    | commentContainer made =>
        rw [Structure.map_setContainerComment (fun _ => rfl) made]
    | updateField _ _ | setSingleton _ => exact List.prefix_rfl
  · rw [step.uniques_eq]

theorem extends_addUnique {s later : Structure} {unique : QName} {fields : List String}
    {config : Config} (added : s.addUnique unique fields config = .ok later) :
    s.Extends later := by
  rw [Structure.addUnique_eq added]
  exact ⟨.refl _, List.prefix_rfl, List.prefix_append _ _⟩

theorem extends_addField {v later : View} {part : ViewPart} {field : Field} {config : Config}
    (added : v.addField part field config = .ok later) : v.Extends later := by
  obtain ⟨_, pushed, names⟩ := View.of_addField added
  have extended (p : ViewPart) : v.namesIn p <+: later.namesIn p := by
    rw [names p]
    exact List.prefix_append _ _
  refine ⟨?_, extended .partition, extended .clustering, extended .value⟩
  unfold Fields.Extends
  rw [Fields.push_eq pushed, List.map_append]
  exact List.prefix_append _ _

theorem extends_of_body {before body : Body} (has : t.body = before)
    (extended : before.Extends body) : t.Extends { t with body } :=
  ⟨rfl, rfl, rfl, by rw [has]; exact extended⟩

theorem TypeStep.extends (step : TypeStep draft name t changed) : t.Extends changed := by
  cases step with
  | comment _ | setAbstract | tag _ _ => exact ⟨rfl, rfl, rfl, .refl _⟩
  | structured body step => exact extends_of_body body ⟨_, rfl, step.extends⟩
  | view body _ added => exact extends_of_body body ⟨_, rfl, extends_addField added⟩
  | function later body | projector later body | job later body =>
      exact extends_of_body body ⟨later, rfl⟩

theorem WorkspaceStep.extends (step : WorkspaceStep ws draft after) : draft.Extends after := by
  cases step with
  | @declare name _ _ _ owner home _ free _ found isWorkspace =>
      have listed := extends_withType found (extends_of_body isWorkspace ⟨home.addLocal name, rfl⟩)
      refine listed.trans (extends_withType_of_free ?_ _)
      exact (getElem?_eq_none_of_isBound ((isBound_withType found _ name).trans free)).2
  | amend found _ _ step => exact extends_withType found step.extends
  | addUnique found _ _ isStructure _ free added =>
      have changed := extends_withType found
        (extends_of_body isStructure ⟨_, rfl, extends_addUnique added⟩)
      refine changed.trans (extends_insertUnique ?_ _)
      exact uniques_eq_none_of_isBound ((isBound_withType found _ _).trans free)
  | setAncestors found isWorkspace _ _ | useWorkspaces found isWorkspace _ =>
      exact extends_withType found (extends_of_body isWorkspace ⟨_, rfl⟩)
  | setDescriptor found isWorkspace _ _ =>
      refine extends_withType found ⟨rfl, rfl, rfl, ?_⟩
      rw [isWorkspace]
      exact ⟨_, rfl⟩
  | setAbstract found | comment _ found =>
      exact extends_withType found ⟨rfl, rfl, rfl, .refl _⟩
  | addRule _ _ _ _ _ _ => exact ⟨.refl _, List.prefix_append _ _, id, id, id⟩

/-- Every step keeps what was declared. -/
theorem Step.extends (step : Step draft after) : draft.Extends after := by
  cases step with
  | bindPackage added => exact extends_bindPackage added
  | addWorkspace _ free =>
      exact extends_withType_of_free (getElem?_eq_none_of_isBound free).2 _
  | within _ step => exact step.extends
  | comment _ found => exact extends_withType found ⟨rfl, rfl, rfl, .refl _⟩

/-! ## Edits and runs -/

theorem Extends.of_eq_or_step (outcome : after = draft ∨ Step draft after) :
    draft.Extends after := by
  rcases outcome with rfl | step
  · exact .refl _
  · exact step.extends

/-- A draft only grows: whatever an edit answers, every type that was there is there with its name,
kind and workspace; its fields, containers and uniques begin with those that it had; bodies of data
types, tags, rates and limits are the same; the rules begin with those that were there; and packages
and uniques are bound as they were. -/
theorem apply_extends (draft : Draft) (edit : Edit) : draft.Extends (draft.apply edit).2 :=
  .of_eq_or_step (draft.apply_eq_or_step edit)

/-- What was declared at some moment is there after all later edits. -/
theorem extends_applyAll (draft : Draft) (edits : List Edit) :
    draft.Extends (draft.applyAll edits) := by
  unfold Draft.applyAll
  induction edits generalizing draft with
  | nil => exact .refl draft
  | cons edit rest ih => exact (Extends.of_eq_or_step (draft.apply_eq_or_step edit)).trans (ih _)

end Draft

end TypeCatalog
