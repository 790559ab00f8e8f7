import TypeCatalog.Proofs.Draft.Fields

/-!
# Fields that no edit touches

Of all edits only those that set the constraints of a field change them, and no edit changes the
data type of a field.  All others add to types, change parts of a type that are no fields, or change
what else there is to a field.

* `Fields.Keeps`, `TypeDef.Keeps`, `Draft.Keeps`: a field has its data type and its constraints
  still.
* `Edit.run_keeps`: all edits but those that set the constraints of the field keep them.
* `Draft.keeps_applyAll`: so do runs of edits in which none of these is accepted.
-/

namespace TypeCatalog

/-! ## Fields -/

namespace Fields

variable {fields middle later : Fields} {name target : String}
  {change : Field → Except DefinitionError Field}

/-- If there is a field with the given name, there is one later that has the same data type and the
same constraints. -/
def Keeps (name : String) (fields later : Fields) : Prop :=
  ∀ field, fields.get? name = some field → ∃ changed, later.get? name = some changed ∧
    changed.data = field.data ∧ changed.constraints = field.constraints

theorem Keeps.refl (name : String) (fields : Fields) : fields.Keeps name fields :=
  fun field found => ⟨field, found, rfl, rfl⟩

theorem Keeps.trans (first : fields.Keeps name middle) (second : middle.Keeps name later) :
    fields.Keeps name later := by
  intro field found
  obtain ⟨between, foundBetween, data₁, constraints₁⟩ := first field found
  obtain ⟨changed, foundLater, data₂, constraints₂⟩ := second between foundBetween
  exact ⟨changed, foundLater, data₂.trans data₁, constraints₂.trans constraints₁⟩

theorem keeps_append (name : String) (fields added : Fields) :
    fields.Keeps name (fields ++ added) := by
  intro field found
  refine ⟨field, ?_, rfl, rfl⟩
  unfold get? at found ⊢
  rw [List.find?_append, found, Option.some_or]

/-- A change of one field is felt by that field only. -/
theorem keeps_update (made : update target change fields = .ok later)
    (names : ∀ f changed, change f = .ok changed → changed.name = f.name)
    (data : ∀ f changed, change f = .ok changed → changed.data = f.data)
    (constraints : target = name → ∀ f changed, change f = .ok changed →
      changed.constraints = f.constraints) : fields.Keeps name later := by
  induction fields generalizing later with
  | nil => cases made
  | cons first rest ih =>
      unfold update at made
      split at made
      next isTarget =>
        obtain ⟨changed, became, rfl⟩ := Check.map_eq_ok_iff.mp made
        intro field found
        rw [get?_cons] at found ⊢
        rw [names first changed became]
        by_cases isNamed : first.name = name
        · rw [if_pos isNamed] at found ⊢
          cases found
          exact ⟨changed, rfl, data _ _ became,
            constraints (isTarget.symm.trans isNamed) _ _ became⟩
        · rw [if_neg isNamed] at found ⊢
          exact ⟨field, found, rfl, rfl⟩
      next =>
        obtain ⟨others, madeLater, rfl⟩ := Check.map_eq_ok_iff.mp made
        intro field found
        rw [get?_cons] at found ⊢
        by_cases isNamed : first.name = name
        · rw [if_pos isNamed] at found ⊢
          exact ⟨field, found, rfl, rfl⟩
        · rw [if_neg isNamed] at found ⊢
          exact ih madeLater field found

end Fields

/-! ## Types -/

namespace TypeDef

variable {t changed later : TypeDef} {field : String}

/-- If the type has fields, it has fields later that keep the given one. -/
def Keeps (field : String) (t changed : TypeDef) : Prop :=
  ∀ fields, t.fields? = some fields → ∃ later, changed.fields? = some later ∧
    fields.Keeps field later

namespace Keeps

theorem trans (first : t.Keeps field changed) (second : changed.Keeps field later) :
    t.Keeps field later := by
  intro fields has
  obtain ⟨between, hasBetween, keeps⟩ := first fields has
  obtain ⟨last, hasLater, keepsLater⟩ := second between hasBetween
  exact ⟨last, hasLater, keeps.trans keepsLater⟩

theorem of_body_eq (same : changed.body = t.body) : t.Keeps field changed := by
  intro fields has
  rw [fields?_eq] at has
  exact ⟨fields, by rw [fields?_eq, same, has], .refl field fields⟩

theorem of_structured {s s' : Structure} (body : t.body = .structured s)
    (keeps : s.fields.Keeps field s'.fields) :
    t.Keeps field { t with body := .structured s' } := by
  intro fields has
  rw [fields?_eq, body] at has
  cases has
  exact ⟨s'.fields, rfl, keeps⟩

theorem of_view {v v' : View} (body : t.body = .view v) (keeps : v.fields.Keeps field v'.fields) :
    t.Keeps field { t with body := .view v' } := by
  intro fields has
  rw [fields?_eq, body] at has
  cases has
  exact ⟨v'.fields, rfl, keeps⟩

theorem of_bare (bare : t.body.fields? = none) : t.Keeps field changed := by
  intro fields has
  rw [fields?_eq, bare] at has
  cases has

end Keeps

end TypeDef

/-! ## Drafts -/

namespace Draft

variable {draft middle after : Draft} {owner name ws : QName} {field : String}
  {t changed : TypeDef}

/-- The type of the given name is there still, and keeps the given field. -/
def Keeps (owner : QName) (field : String) (draft after : Draft) : Prop :=
  ∀ t, draft.types[owner]? = some t → ∃ changed, after.types[owner]? = some changed ∧
    t.Keeps field changed

namespace Keeps

theorem of_types_eq (same : after.types = draft.types) : Keeps owner field draft after :=
  fun t found => ⟨t, by rw [same, found], .of_body_eq rfl⟩

theorem trans (first : Keeps owner field draft middle) (second : Keeps owner field middle after) :
    Keeps owner field draft after := by
  intro t found
  obtain ⟨between, foundBetween, keeps⟩ := first t found
  obtain ⟨changed, foundAfter, keepsAfter⟩ := second between foundBetween
  exact ⟨changed, foundAfter, keeps.trans keepsAfter⟩

/-- Only the type that is put into the table has to be looked at. -/
theorem withType (found : draft.types[name]? = some t)
    (keeps : name = owner → t.Keeps field changed) :
    Keeps owner field draft (draft.withType name changed) := by
  intro u foundOwner
  rw [withType_getElem?]
  by_cases same : name = owner
  · rw [if_pos same]
    rw [← same, found] at foundOwner
    cases foundOwner
    exact ⟨changed, rfl, keeps same⟩
  · rw [if_neg same]
    exact ⟨u, foundOwner, .of_body_eq rfl⟩

theorem withType_of_free (free : draft.isBound name = false) (t : TypeDef) :
    Keeps owner field draft (draft.withType name t) := by
  intro u foundOwner
  have apart : name ≠ owner := by
    intro same
    rw [← same, (getElem?_eq_none_of_isBound free).2] at foundOwner
    cases foundOwner
  exact ⟨u, by rw [withType_getElem?_of_ne apart, foundOwner], .of_body_eq rfl⟩

theorem withStructure {s s' : Structure} (found : draft.types[name]? = some t)
    (body : t.body = .structured s) (keeps : name = owner → s.fields.Keeps field s'.fields) :
    Keeps owner field draft (draft.withType name { t with body := .structured s' }) :=
  .withType found fun isOwner => .of_structured body (keeps isOwner)

/-- There is nothing to keep in a type without fields. -/
theorem withBare (found : draft.types[name]? = some t) (bare : t.body.fields? = none) :
    Keeps owner field draft (draft.withType name changed) :=
  .withType found fun _ => .of_bare bare

end Keeps

end Draft

/-! ## Edits -/

open Build Draft

variable {draft : Draft} {owner name ws : QName} {field : String} {t : TypeDef}

/-- Of the edits of a type only those that set the constraints of a field change them. -/
theorem TypeEdit.run_keeps (found : draft.types[name]? = some t) {edit : TypeEdit}
    (untouched : name = owner → ∀ list, edit ≠ .setFieldConstraints field list) :
    Yields (edit.run name) draft fun _ after => Keeps owner field draft after := by
  have appended s s' new (body : t.body = .structured s)
      (added : s.addField new t.kind draft.config = .ok s') :
      Keeps owner field draft (draft.withType name { t with body := .structured s' }) := by
    refine .withStructure found body fun _ => ?_
    rw [Structure.addField_eq added]
    exact Fields.keeps_append field s.fields [new]
  have appendedToView v v' part new (body : t.body = .view v)
      (added : v.addField part new draft.config = .ok v') :
      Keeps owner field draft (draft.withType name { t with body := .view v' }) := by
    refine .withType found fun _ => .of_view body ?_
    rw [View.fields_addField added]
    exact Fields.keeps_append field v.fields [new]
  have function f changed (body : t.body = .function f) :
      Keeps owner field draft (draft.withType name { t with body := .function changed }) :=
    .withBare found (body ▸ rfl)
  have projector p changed (body : t.body = .projector p) :
      Keeps owner field draft (draft.withType name { t with body := .projector changed }) :=
    .withBare found (body ▸ rfl)
  have job j changed (body : t.body = .job j) :
      Keeps owner field draft (draft.withType name { t with body := .job changed }) :=
    .withBare found (body ▸ rfl)
  cases edit <;> unfold TypeEdit.run
  case setComment _ | setAbstract =>
      refine updateType_yields found fun changed made => ?_
      cases made
      exact .withType found fun _ => .of_body_eq rfl
  case addTag tag =>
      exact addTag_yields found fun _ _ _ => .withType found fun _ => .of_body_eq rfl
  case addField _ _ _ | addRefField _ _ _ =>
      exact pushField_yields found fun s s' => appended s s' _
  case addDataField _ _ _ =>
      exact addDataField_yields found fun _ new s s' _ _ => appended s s' new
  case setFieldConstraints target list =>
      refine updateField_yields found fun s fields body made => ?_
      refine .withStructure found body fun isOwner => ?_
      refine Fields.keeps_update made (fun f changed became => ?_) (fun f changed became => ?_)
        fun same => absurd (same ▸ rfl) (untouched isOwner list)
      all_goals rw [(Field.setConstraints_eq_ok_iff.mp became).2]
  case setFieldVerification target ways =>
      refine updateField_yields found fun s fields body made => ?_
      refine .withStructure found body fun _ => ?_
      refine Fields.keeps_update made (fun f changed became => ?_) (fun f changed became => ?_)
        fun _ f changed became => ?_
      all_goals rw [(Field.setVerifications_eq_ok_iff.mp became).2]
  case setFieldComment target comment =>
      refine updateField_yields found fun s fields body made => ?_
      refine .withStructure found body fun _ => ?_
      refine Fields.keeps_update made (fun f changed became => ?_) (fun f changed became => ?_)
        fun _ f changed became => ?_
      all_goals
        cases became
        rfl
  case addContainer container target min max =>
      refine addContainer_yields found fun _ s s' _ body added => ?_
      rw [Structure.addContainer_eq added]
      exact .withStructure found body fun _ => .refl field s.fields
  case setContainerComment container comment =>
      refine updateStructure_yields found fun s s' body made => ?_
      obtain ⟨containers, _, made⟩ := Check.bind_eq_ok_iff.mp made
      cases made
      exact .withStructure found body fun _ => .refl field s.fields
  case addUnique unique fields =>
      refine addUnique_yields found fun s s' body _ _ added => ?_
      rw [Structure.addUnique_eq added]
      exact Keeps.withStructure found body fun _ => .refl field s.fields
  case setSingleton =>
      refine updateStructure_yields found fun s s' body made => ?_
      split at made
      next =>
        cases made
        exact .withStructure found body fun _ => .refl field s.fields
      next => cases made
  case addPartitionField _ _ | addClusteringField _ _ | addValueField _ _ _ |
      addValueRefField _ _ _ =>
      exact addViewField_yields found fun v v' => appendedToView v v' _ _
  case setParam _ | setUnloggedParam _ | setResult _ =>
      exact updateFunction_yields found function
  case setEngine engine => exact setEngine_yields found function projector job
  case addEvent triggers selector comment => exact addEvent_yields found projector
  case setSync _ | setWantsErrors => exact updateProjector_yields found projector
  case setSchedule schedule => exact updateJob_yields found job
  case addStorage side storage names =>
      refine yields_get ?_
      exact updateStorages_yields found function projector job
  case setStorageComment side storage comment =>
      exact updateStorages_yields found function projector job

theorem WorkspaceEdit.run_keeps {home : Workspace} (opened : draft.findWorkspace ws = .ok home)
    {edit : WorkspaceEdit}
    (untouched : ∀ list, edit ≠ .amend owner (.setFieldConstraints field list)) :
    Yields (edit.run ws) draft fun _ after => Keeps owner field draft after := by
  obtain ⟨home', found, body⟩ := findWorkspace_eq_ok_iff.mp opened
  cases edit with
  | declare name declaration =>
      refine declare_yields fun _ _ _ _ _ free _ found body => ?_
      exact (Keeps.withBare found (body ▸ rfl)).trans
        (.withType_of_free ((isBound_withType found _ name).trans free) _)
  | amend name edit =>
      refine amend_yields fun t foundType _ _ => edit.run_keeps foundType fun isOwner list => ?_
      rintro rfl
      exact untouched list (isOwner ▸ rfl)
  | setAncestors ancestors =>
      exact setAncestors_yields fun _ _ _ found body _ _ => .withBare found (body ▸ rfl)
  | useWorkspaces used =>
      exact useWorkspaces_yields fun _ _ found body _ => .withBare found (body ▸ rfl)
  | setDescriptor descriptor =>
      exact setDescriptor_yields fun _ _ found body _ _ => .withBare found (body ▸ rfl)
  | setAbstract | setComment _ =>
      refine updateType_yields found fun changed made => ?_
      exact .withBare found (body ▸ rfl)
  | addRule _ _ _ _ _ _ => exact addRule_yields fun _ _ => .of_types_eq rfl
  | addBlanketRule _ _ _ _ => exact addBlanketRule_yields fun _ _ => .of_types_eq rfl

/-- Of all edits only those that set the constraints of a field change them. -/
theorem Edit.run_keeps {edit : Edit}
    (untouched : ∀ ws list, edit ≠ .within ws (.amend owner (.setFieldConstraints field list))) :
    Yields edit.run draft fun _ after => Keeps owner field draft after := by
  refine edit.run_yields_of (.of_types_eq rfl) (fun _ => .of_types_eq rfl)
    (fun _ _ free => .withType_of_free free _) (fun isWithin opened => ?_)
    fun _ found => .withType found fun _ => .of_body_eq rfl
  refine WorkspaceEdit.run_keeps opened fun list same => ?_
  exact untouched _ list (same ▸ isWithin)

/-! ## Runs -/

namespace Draft

/-- In the run from the draft on, no edit sets the constraints of the field: those that would do so
are refused. -/
def Untouched (owner : QName) (field : String) : Draft → List Edit → Prop
  | _, [] => True
  | draft, edit :: rest =>
    (∀ ws list, edit = .within ws (.amend owner (.setFieldConstraints field list)) →
      (draft.apply edit).1 ≠ .ok ()) ∧
    Untouched owner field (draft.apply edit).2 rest

theorem keeps_apply {edit : Edit}
    (untouched : ∀ ws list, edit = .within ws (.amend owner (.setFieldConstraints field list)) →
      (draft.apply edit).1 ≠ .ok ()) : Keeps owner field draft (draft.apply edit).2 := by
  -- An edit that would set the constraints is refused, and a refused edit changes nothing.
  by_cases accepted : (draft.apply edit).1 = .ok ()
  · refine of_apply_eq_ok (edit.run_keeps fun ws list same => ?_) accepted
    exact untouched ws list same accepted
  · rw [apply_eq_of_refused accepted]
    exact .of_types_eq rfl

/-- A field keeps its data type and its constraints through every run that does not touch it. -/
theorem keeps_applyAll {edits : List Edit} (untouched : Untouched owner field draft edits) :
    Keeps owner field draft (draft.applyAll edits) := by
  unfold applyAll
  induction edits generalizing draft with
  | nil => exact .of_types_eq rfl
  | cons edit rest ih => exact (keeps_apply untouched.1).trans (ih untouched.2)

end Draft

end TypeCatalog
