import TypeCatalog.Proofs.Draft.Bodies

/-!
# Fields of types

A type starts with the system fields of its kind.  Edits append fields to these and change fields
that are there; they take none away and rename none.

* `Draft.FieldsStep`: what a step makes of the fields of one type.
* `Draft.BodyStep.fields`: every step leaves the fields of a type alone or makes one such change.
* `Draft.Reachable.fields_invariant`: the induction over the fields of all types.
-/

namespace TypeCatalog

/-! ## Changes of single fields -/

namespace Field

variable {field changed : Field} {isPattern : String → Bool}

theorem setConstraints_eq_ok_iff {list : List Constraint} :
    field.setConstraints isPattern list = .ok changed ↔
      Constraint.checkAll isPattern field.kind list = .ok () ∧
        changed = { field with constraints := list } := by
  unfold setConstraints
  cases Constraint.checkAll isPattern field.kind list with
  | ok _ => simp [eq_comm]
  | error flaw => simp

theorem setVerifications_eq_ok_iff {ways : List Verification} :
    field.setVerifications ways = .ok changed ↔
      field.kind = .string ∧ changed = { field with verifications := .ofList ways } := by
  unfold setVerifications
  split
  next isString => simp [isString, eq_comm]
  next notString => simp [notString]

end Field

namespace Draft.FieldStep

variable {field changed : Field} {isPattern : String → Bool}

theorem name_eq (step : FieldStep isPattern field changed) : changed.name = field.name := by
  cases step with
  | constraints made => rw [(Field.setConstraints_eq_ok_iff.mp made).2]
  | verifications made => rw [(Field.setVerifications_eq_ok_iff.mp made).2]
  | comment _ => rfl

theorem kind_eq (step : FieldStep isPattern field changed) : changed.kind = field.kind := by
  cases step with
  | constraints made => rw [(Field.setConstraints_eq_ok_iff.mp made).2]
  | verifications made => rw [(Field.setVerifications_eq_ok_iff.mp made).2]
  | comment _ => rfl

end Draft.FieldStep

/-! ## Changes of lists of fields -/

namespace Fields

variable {fields : Fields} {name : String} {change : Field → Except DefinitionError Field}

theorem get?_cons (first : Field) (rest : Fields) (name : String) :
    get? (first :: rest) name = if first.name = name then some first else rest.get? name := by
  unfold get?
  by_cases same : first.name = name
  · rw [if_pos same]
    exact List.find?_cons_of_pos (beq_iff_eq.mpr same)
  · rw [if_neg same]
    exact List.find?_cons_of_neg fun isNamed => same (beq_iff_eq.mp isNamed)

/-- What is updated keeps its place. -/
theorem mem_update {updated : Fields} (made : update name change fields = .ok updated)
    {later : Field} (listed : later ∈ updated) :
    later ∈ fields ∨ ∃ field ∈ fields, change field = .ok later := by
  induction fields generalizing updated with
  | nil => cases made
  | cons field rest ih =>
      unfold update at made
      split at made
      next =>
        obtain ⟨changed, became, rfl⟩ := Check.map_eq_ok_iff.mp made
        rcases List.mem_cons.mp listed with rfl | old
        · exact .inr ⟨field, List.mem_cons_self, became⟩
        · exact .inl (List.mem_cons_of_mem _ old)
      next =>
        obtain ⟨others, madeLater, rfl⟩ := Check.map_eq_ok_iff.mp made
        rcases List.mem_cons.mp listed with rfl | among
        · exact .inl List.mem_cons_self
        · rcases ih madeLater among with old | ⟨field, old, became⟩
          · exact .inl (List.mem_cons_of_mem _ old)
          · exact .inr ⟨field, List.mem_cons_of_mem _ old, became⟩

theorem names_update {updated : Fields} (keeps : ∀ f changed, change f = .ok changed →
      changed.name = f.name) (made : update name change fields = .ok updated) :
    updated.names = fields.names :=
  map_update keeps made

end Fields

/-- The fields of a type, as its body has them. -/
def Body.fields? : Body → Option Fields
  | .structured s => some s.fields
  | .view v => some v.fields
  | _ => none

theorem TypeDef.fields?_eq (t : TypeDef) : t.fields? = t.body.fields? := by
  unfold TypeDef.fields?
  cases t.body <;> rfl

namespace Draft

variable {draft after : Draft} {name ws : QName} {t changed : TypeDef}

/-! ## Steps and fields -/

/-- What a step makes of the fields of the type with the given name and kind. -/
inductive FieldsStep (draft : Draft) (name : QName) (kind : TypeKind) (fields : Fields) :
    Fields → Prop
  | kept : FieldsStep draft name kind fields fields
  | pushed {field : Field} {pushed : Fields} : FieldSource draft name field →
    fields.push field kind draft.config = .ok pushed → FieldsStep draft name kind fields pushed
  | updated {field : String} {change : Field → Except DefinitionError Field} {updated : Fields} :
    (∀ f changed, change f = .ok changed → FieldStep draft.config.isPattern f changed) →
    Fields.update field change fields = .ok updated → FieldsStep draft name kind fields updated

/-- Fields keep their names, whatever is made of them. -/
theorem FieldsStep.names_subset {kind : TypeKind} {fields later : Fields}
    (step : FieldsStep draft name kind fields later) : fields.names ⊆ later.names := by
  intro field listed
  cases step with
  | kept => exact listed
  | pushed _ made =>
      obtain ⟨_, _, _, _, rfl⟩ := Fields.push_eq_ok_iff.mp made
      unfold Fields.names at listed ⊢
      rw [List.map_append]
      exact List.mem_append_left _ listed
  | updated step made =>
      rw [Fields.names_update (fun f changed became => (step f changed became).name_eq) made]
      exact listed

/-- What holds of all fields holds of all fields after a step, if it holds of those that may be new
and is kept by those that may be changed. -/
theorem FieldsStep.forall_mem {kind : TypeKind} {fields later : Fields} {holds : Field → Prop}
    (step : FieldsStep draft name kind fields later)
    (new : ∀ field, FieldSource draft name field →
      IsIdentifier draft.config.maxIdentLen field.name → kind.mayHold field.kind = true →
      holds field)
    (kept : ∀ field changed, FieldStep draft.config.isPattern field changed → holds field →
      holds changed)
    (before : ∀ field ∈ fields, holds field) : ∀ field ∈ later, holds field := by
  intro field listed
  cases step with
  | kept => exact before field listed
  | pushed source made =>
      obtain ⟨valid, _, _, held, rfl⟩ := Fields.push_eq_ok_iff.mp made
      rcases List.mem_append.mp listed with old | isNew
      · exact before field old
      · cases List.mem_singleton.mp isNew
        exact new _ source valid held
  | updated step made =>
      rcases Fields.mem_update made listed with old | ⟨former, old, became⟩
      · exact before field old
      · exact kept former field (step former field became) (before former old)

theorem StructureStep.fields {kind : TypeKind} {s s' : Structure}
    (step : StructureStep draft name kind s s') :
    FieldsStep draft name kind s.fields s'.fields := by
  cases step with
  | pushField source added =>
      obtain ⟨pushed, made, added⟩ := Check.bind_eq_ok_iff.mp added
      cases added
      exact .pushed source made
  | updateField step made => exact .updated step made
  | addContainer _ added =>
      rw [Structure.addContainer_eq added]
      exact .kept
  | commentContainer _ | setSingleton _ => exact .kept

/-- A body that has fields after a step had fields before it. -/
theorem BodyStep.fields {kind : TypeKind} {body changed : Body} (fits : body.Fits kind)
    (step : BodyStep draft name kind body changed) {later : Fields}
    (has : changed.fields? = some later) :
    ∃ fields, body.fields? = some fields ∧ FieldsStep draft name kind fields later := by
  cases step with
  | kept => exact ⟨later, has, .kept⟩
  | structured step =>
      cases has
      exact ⟨_, rfl, step.fields⟩
  | unique added =>
      cases has
      refine ⟨_, rfl, ?_⟩
      rw [Structure.addUnique_eq added]
      exact .kept
  | view source added =>
      cases has
      refine ⟨_, rfl, ?_⟩
      rw [fits.1]
      exact .pushed source (View.of_addField added).2.1
  | function _ _ | projector _ _ | job _ _ | workspace _ _ => cases has

/-- The fields of a new type are the system fields of its kind. -/
theorem fields_of_newBody {kind : TypeKind} {body : Body} (new : Build.NewBody kind body)
    {later : Fields} (has : body.fields? = some later) : later = .ofKind kind := by
  cases new with
  | structured _ | view =>
      cases has
      rfl
  | _ => cases has

theorem hasFields_of_newBody {kind : TypeKind} {body : Body} (new : Build.NewBody kind body)
    {later : Fields} (has : body.fields? = some later) : kind.hasFields = true := by
  cases new with
  | structured isStructure => exact Bool.or_eq_true_iff.mpr (.inl isStructure)
  | view => rfl
  | _ => cases has

/-! ## The induction over fields -/

/-- What is said of kinds and lists of fields holds of all types of the draft. -/
def FieldsHold (holds : TypeKind → Fields → Prop) (draft : Draft) : Prop :=
  ∀ (name : QName) (t : TypeDef) (fields : Fields), draft.types[name]? = some t →
    t.fields? = some fields → holds t.kind fields

/-- What holds of the system fields of every kind, is kept by every step that fields take and stays
so in later drafts holds of the fields of all types of all reachable drafts. -/
theorem Reachable.fields_invariant {motive : Draft → TypeKind → Fields → Prop}
    (system : ∀ draft (kind : TypeKind), Reachable draft → kind.hasFields = true →
      motive draft kind (.ofKind kind))
    (changed : ∀ draft name kind fields later, Reachable draft →
      FieldsStep draft name kind fields later → motive draft kind fields → motive draft kind later)
    (kept : ∀ before after kind fields, Step before after → motive before kind fields →
      motive after kind fields)
    (reached : Reachable draft) : FieldsHold (motive draft) draft := by
  have bodies := reached.body_invariant
    (motive := fun draft kind body =>
      ∀ fields, body.fields? = some fields → motive draft kind fields)
    (fun _ _ _ has => by cases has)
    (fun draft kind body reached new fields has => by
      rw [fields_of_newBody new has]
      exact system draft kind reached (hasFields_of_newBody new has))
    (fun draft name kind body later reached fits step held fields has => by
      obtain ⟨former, had, taken⟩ := step.fields fits has
      exact changed draft name kind former fields reached taken (held former had))
    (fun before after kind body step held fields has =>
      kept before after kind fields step (held fields has))
  intro name t fields found has
  rw [TypeDef.fields?_eq] at has
  exact bodies name t found fields has

end Draft

end TypeCatalog
