import TypeCatalog.Proofs.Draft.Fields
import TypeCatalog.Proofs.Draft.Mirror
import TypeCatalog.Proofs.Draft.Validation

/-!
# Constraints of fields

An edit may set the constraints of any field of a type, its system fields included, as long as each
constraint by itself applies to the kind of the field.  Whether the constraints contradict each
other is for validation to find out, which leaves the system fields out.

* `Field.Admitted`: what edits make sure of.  Constraints apply to the kind of the field, and a
  system field is one of those that types of the kind start with.
* `Constraint.eq_nil_of_bare`, `Constraint.conflicts_of_string`: what contradictions the kinds of
  system fields leave room for.
* `Catalog.Built.conflicts_only_in_container`: in a built catalog only the system field that names
  a container may have constraints that contradict each other.
* `Catalog.not_forall_conflicts_eq_nil`: there is a catalog in which it has.
-/

namespace TypeCatalog

/-! ## Constraints that apply to a kind -/

namespace Constraint

variable {isPattern : String → Bool} {kind : DataKind} {list : List Constraint}

theorem checkAll_eq_ok_iff :
    checkAll isPattern kind list = .ok () ↔ ∀ c ∈ list, c.check kind isPattern = .ok () := by
  induction list with
  | nil => simp [checkAll]
  | cons c rest ih =>
      rw [List.forall_mem_cons, ← ih, checkAll]
      cases c.check kind isPattern with
      | ok _ => simp
      | error flaw => simp

theorem appliesTo_of_check {c : Constraint} (checked : c.check kind isPattern = .ok ()) :
    c.kind.appliesTo kind = true := by
  unfold check at checked
  split at checked
  next => cases checked
  next applies => simpa using applies

theorem appliesTo_of_checkAll (passed : checkAll isPattern kind list = .ok ()) :
    ∀ c ∈ list, c.kind.appliesTo kind = true :=
  fun c listed => appliesTo_of_check (checkAll_eq_ok_iff.mp passed c listed)

theorem eq_nil_of_bare (bare : ∀ c : ConstraintKind, c.appliesTo kind = false)
    (applies : ∀ c ∈ list, c.kind.appliesTo kind = true) : list = [] := by
  refine List.eq_nil_iff_forall_not_mem.mpr fun c listed => ?_
  have fits := applies c listed
  rw [bare] at fits
  cases fits

/-- Texts have no bounds, and so no contradictions but those of lengths. -/
theorem conflicts_of_string (applies : ∀ c ∈ list, c.kind.appliesTo .string = true) :
    conflicts list = lengthConflict list := by
  have unbounded : list.findSome? lowerBound? = none := by
    refine List.findSome?_eq_none_iff.mpr fun c listed => ?_
    have fits := applies c listed
    cases c with
    | minIncl _ | minExcl _ => cases fits
    | _ => rfl
  have without : ∀ kind : ConstraintKind, kind.appliesTo .string = false →
      hasKind list kind = false := by
    intro kind misfit
    refine List.any_eq_false.mpr fun c listed isKind => ?_
    rw [← beq_iff_eq.mp isKind, applies c listed] at misfit
    cases misfit
  unfold conflicts boundConflict
  rw [unbounded, without .minIncl rfl, without .maxIncl rfl]
  simp

theorem lengthConflict_eq (list : List Constraint) : lengthConflict list = [] ∨
    ∃ min max, max < min ∧ lengthConflict list = [.lengths min max] := by
  unfold lengthConflict
  split
  next min max _ _ =>
    split
    next above => exact .inr ⟨min, max, above, rfl⟩
    next => exact .inl rfl
  next => exact .inl rfl

end Constraint

/-- Of the system fields only the name of the container is a text, and no constraints apply to the
others. -/
theorem SystemField.eq_container_or_bare {known : SystemField} {owner : TypeKind}
    (listed : known ∈ owner.systemFields) :
    known = container ∨ ∀ c : ConstraintKind, c.appliesTo known.kind = false := by
  have among : ∀ field ∈ owner.systemFields,
      field ∈ [typeName, id, parentID, container, isActive] := by
    cases owner <;> decide
  have isOne := among known listed
  simp only [List.mem_cons, List.not_mem_nil, or_false] at isOne
  rcases isOne with rfl | rfl | rfl | rfl | rfl
  case inr.inr.inr.inl => exact .inl rfl
  all_goals
    refine .inr fun c => ?_
    cases c <;> rfl

/-! ## Fields that are admitted -/

namespace Field

variable {field changed : Field} {owner : TypeKind}

/-- What edits make sure of about a field of a type of kind `owner`. -/
structure Admitted (owner : TypeKind) (field : Field) : Prop where
  constraints : ∀ c ∈ field.constraints, c.kind.appliesTo field.kind = true
  system : field.isSystem = true →
    ∃ known ∈ owner.systemFields, field.name = known.name ∧ field.kind = known.kind

theorem admitted_ofSystem {known : SystemField} (listed : known ∈ owner.systemFields) :
    (ofSystem known).Admitted owner :=
  ⟨nofun, fun _ => ⟨known, listed, rfl, rfl⟩⟩

theorem appliesTo_of_source {draft : Draft} {name : QName}
    (source : Draft.FieldSource draft name field) :
    ∀ c ∈ field.constraints, c.kind.appliesTo field.kind = true := by
  cases source with
  | kind _ _ _ | reference _ _ _ => exact nofun
  | data _ constrained =>
      obtain ⟨passed, rfl⟩ := setConstraints_eq_ok_iff.mp constrained
      exact Constraint.appliesTo_of_checkAll passed

theorem Admitted.step {isPattern : String → Bool} (admitted : field.Admitted owner)
    (step : Draft.FieldStep isPattern field changed) : changed.Admitted owner := by
  refine ⟨?_, fun isSystem => ?_⟩
  · cases step with
    | constraints made =>
        obtain ⟨passed, rfl⟩ := setConstraints_eq_ok_iff.mp made
        exact Constraint.appliesTo_of_checkAll passed
    | verifications made =>
        obtain ⟨_, rfl⟩ := setVerifications_eq_ok_iff.mp made
        exact admitted.constraints
    | comment _ => exact admitted.constraints
  · rw [step.name_eq, step.kind_eq]
    refine admitted.system ?_
    unfold Field.isSystem at isSystem ⊢
    rw [← step.name_eq]
    exact isSystem

/-- What contradictions the constraints of a system field may have. -/
theorem Admitted.conflicts (admitted : field.Admitted owner) (isSystem : field.isSystem = true) :
    Constraint.conflicts field.constraints = [] ∨
      field.name = SystemField.container.name ∧ SystemField.container ∈ owner.systemFields ∧
        ∃ min max, max < min ∧
          Constraint.conflicts field.constraints = [.lengths min max] := by
  obtain ⟨known, listed, named, kind⟩ := admitted.system isSystem
  have applies := admitted.constraints
  rw [kind] at applies
  rcases SystemField.eq_container_or_bare listed with rfl | bare
  · rw [Constraint.conflicts_of_string applies]
    rcases Constraint.lengthConflict_eq field.constraints with none | some
    · exact .inl none
    · exact .inr ⟨named, listed, some⟩
  · rw [Constraint.eq_nil_of_bare bare applies]
    exact .inl rfl

end Field

namespace Draft

variable {draft : Draft} {name : QName} {t : TypeDef}

theorem FieldsStep.admitted {kind : TypeKind} {fields later : Fields}
    (step : FieldsStep draft name kind fields later)
    (admitted : ∀ field ∈ fields, field.Admitted kind) :
    ∀ field ∈ later, field.Admitted kind := by
  refine step.forall_mem (fun field source valid _ => ?_)
    (fun _ _ step admitted => admitted.step step) admitted
  refine ⟨Field.appliesTo_of_source source, fun isSystem => ?_⟩
  rw [Field.isSystem_eq_false_of_isIdentifier valid] at isSystem
  cases isSystem

/-- The fields of every type of a reachable draft are admitted. -/
theorem Reachable.admitted (reached : Reachable draft) :
    FieldsHold (fun kind fields => ∀ field ∈ fields, field.Admitted kind) draft := by
  refine reached.fields_invariant
    (motive := fun _ kind fields => ∀ field ∈ fields, field.Admitted kind)
    (fun _ kind _ _ field listed => ?_)
    (fun _ _ _ _ _ _ step admitted => step.admitted admitted) (fun _ _ _ _ _ admitted => admitted)
  obtain ⟨known, isKnown, rfl⟩ := List.mem_map.mp listed
  exact Field.admitted_ofSystem isKnown

end Draft

/-! ## Built catalogs -/

/-- Contradictions among the constraints of fields are found before a catalog is built, but for
those of the system field that names a container. -/
theorem Catalog.Built.conflicts_only_in_container {catalog : Catalog} (built : catalog.Built)
    {t : TypeDef} (listed : t ∈ catalog.defs) {fields : Fields} (has : t.fields? = some fields)
    {field : Field} (isField : field ∈ fields) :
    Constraint.conflicts field.constraints = [] ∨
      field.name = SystemField.container.name ∧ SystemField.container ∈ t.kind.systemFields ∧
        ∃ min max, max < min ∧
          Constraint.conflicts field.constraints = [.lengths min max] := by
  have found := built.mem_catalog_iff.mp listed
  obtain ⟨draft, reached, clean, rfl⟩ := built.exists_draft
  rw [reached.getElem?_freeze] at found
  cases isSystem : field.isSystem with
  | true => exact (reached.admitted _ t fields found has field isField).conflicts isSystem
  | false =>
      -- Validation looks at all fields that are not system fields.
      have valid := (Draft.findings_eq_nil_iff.mp clean).types _ t found
      have isUser : field ∈ Fields.ofUser fields := by
        unfold Fields.ofUser
        rw [List.mem_filter, isSystem]
        exact ⟨isField, rfl⟩
      exact .inl (valid.fields fields has field isUser).constraints

namespace Library

/-- The chapters of books come to be in containers the names of which have ten letters at least and
five at most. -/
def containerNames : Edit :=
  .within (name "base") (.amend (name "chapter")
    (.setFieldConstraints "sys.Container" [.minLen 10, .maxLen 5]))

def draftWithContainerNames : Draft := (draftWithChapters.apply containerNames).2

theorem built_draftWithContainerNames : draftWithContainerNames.freeze.Built := by
  have clean : draftWithContainerNames.findings = [] := List.isEmpty_iff.mp (by decide +kernel)
  exact ⟨draftWithContainerNames, .apply containerNames reachable_draftWithChapters,
    Draft.build_eq_ok_iff.mpr ⟨clean, rfl⟩⟩

/-- Validation says nothing about these names, though there are none. -/
theorem exists_conflict : ∃ t ∈ draftWithContainerNames.freeze.defs, ∃ fields,
    t.fields? = some fields ∧ ∃ field ∈ fields, Constraint.conflicts field.constraints ≠ [] := by
  have fields : (draftWithContainerNames.freeze.types[name "chapter"]?).map (fun t =>
      (t.name, t.fields?.map fun fields =>
        fields.any fun field => !(Constraint.conflicts field.constraints).isEmpty)) =
      some (name "chapter", some true) := by decide +kernel
  obtain ⟨t, found, same⟩ := Option.map_eq_some_iff.mp fields
  obtain ⟨named, some⟩ := Prod.mk.inj same
  obtain ⟨fields, has, some⟩ := Option.map_eq_some_iff.mp some
  obtain ⟨field, isField, conflict⟩ := List.any_eq_true.mp some
  refine ⟨t, ?_, fields, has, field, isField, ?_⟩
  · rw [built_draftWithContainerNames.mem_catalog_iff, named]
    exact found
  · intro none
    rw [none] at conflict
    cases conflict

end Library

namespace Catalog

/-- The names that contradict each other are those of containers. -/
theorem Built.conflicts_only_in_container_chapter :
    ∃ t ∈ Library.draftWithContainerNames.freeze.defs, ∃ fields, t.fields? = some fields ∧
      ∃ field ∈ fields, field.name = "sys.Container" ∧
        ∃ min max, max < min ∧ Constraint.conflicts field.constraints = [.lengths min max] := by
  obtain ⟨t, listed, fields, has, field, isField, conflict⟩ := Library.exists_conflict
  have only := Built.conflicts_only_in_container Library.built_draftWithContainerNames listed has
    isField
  obtain ⟨named, _, lengths⟩ := only.resolve_left conflict
  exact ⟨t, listed, fields, has, field, isField, named, lengths⟩

/-- It is not so that in every built catalog the constraints of all fields agree. -/
theorem not_forall_conflicts_eq_nil :
    ¬ ∀ catalog : Catalog, catalog.Built → ∀ t ∈ catalog.defs, ∀ fields,
      t.fields? = some fields → ∀ field ∈ fields,
        Constraint.conflicts field.constraints = [] := by
  intro agree
  obtain ⟨t, listed, fields, has, field, isField, conflict⟩ := Library.exists_conflict
  exact conflict (agree _ Library.built_draftWithContainerNames t listed fields has field isField)

end Catalog

end TypeCatalog
