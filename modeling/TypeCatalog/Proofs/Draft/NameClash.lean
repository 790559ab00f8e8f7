import TypeCatalog.Proofs.Draft.Fields
import TypeCatalog.Proofs.Draft.Mirror

/-!
# Fields and containers of one name

The fields and the containers of a structure are kept apart by name when a container is added, which
looks at both lists.  A field that is added is compared with the other fields only, so that it may
come to have the name of a container.

* `Draft.not_forall_names_differ`: there is a reachable draft with such a structure.
* `Structure.Advances`: what every step keeps; a container never comes under the name of a field.
* `Draft.clash_iff_field_after_container`: after any edits, a name is shared exactly if some edit
  has added a field under the name of a container that was there.
-/

namespace TypeCatalog

namespace Structure

variable {s changed later : Structure} {kind : TypeKind} {name : String}

def HasField (s : Structure) (name : String) : Prop := name ∈ s.fields.names

def HasContainer (s : Structure) (name : String) : Prop := name ∈ s.containers.map Container.name

/-! ## Steps of one structure -/

/-- What a structure keeps when it is changed.  No container is added under the name of a field. -/
structure Advances (s changed : Structure) : Prop where
  fields : ∀ {name : String}, s.HasField name → changed.HasField name
  containers : ∀ {name : String}, s.HasContainer name → changed.HasContainer name
  guarded : ∀ {name : String}, changed.HasField name → changed.HasContainer name →
    s.HasContainer name

theorem Advances.of_containers_eq (fields : ∀ {name : String}, s.HasField name →
      changed.HasField name) (same : changed.containers.map Container.name =
      s.containers.map Container.name) : s.Advances changed := by
  have names {name : String} : changed.HasContainer name ↔ s.HasContainer name := by
    unfold HasContainer
    rw [same]
  exact ⟨fields, names.mpr, fun _ has => names.mp has⟩

theorem advances_addContainer {container : Container} {child : Option TypeKind} {config : Config}
    (added : s.addContainer container kind child config = .ok changed) : s.Advances changed := by
  obtain ⟨_, _, free, _, _, rfl⟩ := addContainer_eq_ok_iff.mp added
  have fields {name : String} : Structure.HasField
      { s with containers := s.containers ++ [container] } name ↔ s.HasField name := Iff.rfl
  have containers {name : String} : Structure.HasContainer
      { s with containers := s.containers ++ [container] } name ↔
        s.HasContainer name ∨ name = container.name := by
    unfold HasContainer
    rw [List.map_append, List.mem_append, List.map_singleton, List.mem_singleton]
  refine ⟨fields.mpr, fun has => containers.mpr (.inl has), fun {name} hasField has => ?_⟩
  rcases containers.mp has with old | rfl
  · exact old
  · exact absurd (fields.mp hasField) free

theorem advances_addUnique {unique : QName} {fields : List String} {config : Config}
    (added : s.addUnique unique fields config = .ok changed) : s.Advances changed := by
  rw [addUnique_eq added]
  exact .of_containers_eq id rfl

end Structure

namespace Draft

variable {draft after : Draft} {owner : QName} {name : String} {s changed : Structure}

theorem StructureStep.advances {kind : TypeKind} (step : StructureStep draft owner kind s changed) :
    s.Advances changed := by
  have fields : ∀ {name : String}, s.HasField name → changed.HasField name :=
    fun listed => step.fields.names_subset listed
  cases step with
  | pushField _ added =>
      refine .of_containers_eq fields ?_
      rw [Structure.addField_eq added]
  | addContainer _ added => exact Structure.advances_addContainer added
  | commentContainer updated =>
      exact .of_containers_eq fields (Structure.map_name_setContainerComment updated)
  | updateField _ _ | setSingleton _ => exact .of_containers_eq fields rfl

/-! ## Steps of a draft -/

/-- What may be found under a name after a step where something or nothing was found before. -/
inductive Follows : Option Structure → Option Structure → Prop
  | missing : Follows none none
  | created (kind : TypeKind) : Follows none (some (.ofKind kind))
  | advanced {s later : Structure} : s.Advances later → Follows (some s) (some later)

theorem Follows.refl (found : Option Structure) : Follows found found := by
  cases found with
  | none => exact .missing
  | some s => exact .advanced (.of_containers_eq id rfl)

theorem Follows.exists_advances {found : Option Structure} (follows : Follows (some s) found) :
    ∃ later, found = some later ∧ s.Advances later := by
  cases follows with
  | advanced advances => exact ⟨_, rfl, advances⟩

/-- Only the structure that changes has to be looked at. -/
theorem Follows.update {structures : QName → Option Structure} {name : QName}
    {found : Option Structure} (follows : Follows (structures name) found) (owner : QName) :
    Follows (structures owner) (Function.update structures name found owner) := by
  rw [Function.update_apply]
  split
  next same =>
    rw [same]
    exact follows
  next => exact .refl _

theorem MemberStep.follows (step : MemberStep draft after) (owner : QName) :
    Follows (draft.types.structure? owner) (after.types.structure? owner) := by
  cases step with
  | kept same _ =>
      rw [same]
      exact .refl _
  | created kind fresh becomes _ =>
      rw [becomes]
      refine .update ?_ owner
      rw [fresh]
      exact .created kind
  | amended isStructure step becomes _ =>
      rw [becomes]
      refine .update ?_ owner
      rw [isStructure]
      exact .advanced step.advances
  | bound isStructure _ added becomes _ =>
      rw [becomes]
      refine .update ?_ owner
      rw [isStructure]
      exact .advanced (Structure.advances_addUnique added)

theorem apply_follows (draft : Draft) (edit : Edit) (owner : QName) :
    Follows (draft.types.structure? owner) ((draft.apply edit).2.types.structure? owner) := by
  rcases draft.apply_eq_or_step edit with same | step
  · rw [same]
    exact .refl _
  · exact step.members.follows owner

theorem exists_advances_apply (edit : Edit) (found : draft.types.structure? owner = some s) :
    ∃ later, (draft.apply edit).2.types.structure? owner = some later ∧ s.Advances later := by
  have follows := draft.apply_follows edit owner
  rw [found] at follows
  exact follows.exists_advances

/-- The structure with the given name has a field of the given name. -/
def HasField (draft : Draft) (owner : QName) (name : String) : Prop :=
  ∃ s, draft.types.structure? owner = some s ∧ s.HasField name

/-- The structure with the given name has a container of the given name. -/
def HasContainer (draft : Draft) (owner : QName) (name : String) : Prop :=
  ∃ s, draft.types.structure? owner = some s ∧ s.HasContainer name

/-- The name is shared by a field and a container of the structure. -/
def Clash (draft : Draft) (owner : QName) (name : String) : Prop :=
  draft.HasField owner name ∧ draft.HasContainer owner name

theorem HasField.apply (edit : Edit) (has : draft.HasField owner name) :
    (draft.apply edit).2.HasField owner name := by
  obtain ⟨s, found, has⟩ := has
  obtain ⟨later, became, advances⟩ := exists_advances_apply edit found
  exact ⟨later, became, advances.fields has⟩

theorem HasContainer.apply (edit : Edit) (has : draft.HasContainer owner name) :
    (draft.apply edit).2.HasContainer owner name := by
  obtain ⟨s, found, has⟩ := has
  obtain ⟨later, became, advances⟩ := exists_advances_apply edit found
  exact ⟨later, became, advances.containers has⟩

/-- Where a name is shared after an edit, the container was there before it. -/
theorem Clash.hasContainer {edit : Edit} (clash : (draft.apply edit).2.Clash owner name) :
    draft.HasContainer owner name := by
  obtain ⟨⟨later, became, hasField⟩, ⟨_, same, hasContainer⟩⟩ := clash
  rw [became, Option.some_inj] at same
  subst same
  have follows := draft.apply_follows edit owner
  rw [became] at follows
  unfold HasContainer
  cases found : draft.types.structure? owner with
  | none =>
      rw [found] at follows
      cases follows
      exact absurd hasContainer List.not_mem_nil
  | some s =>
      rw [found] at follows
      cases follows with
      | advanced advances => exact ⟨s, rfl, advances.guarded hasField hasContainer⟩

/-- A name comes to be shared by an edit that adds a field where there is a container. -/
theorem clash_apply_iff {edit : Edit} : (draft.apply edit).2.Clash owner name ↔
    draft.Clash owner name ∨ draft.HasContainer owner name ∧ ¬ draft.HasField owner name ∧
      (draft.apply edit).2.HasField owner name := by
  constructor
  · intro clash
    have there := clash.hasContainer
    by_cases had : draft.HasField owner name
    · exact .inl ⟨had, there⟩
    · exact .inr ⟨there, had, clash.1⟩
  · intro holds
    rcases holds with ⟨field, container⟩ | ⟨container, _, field⟩
    · exact ⟨field.apply edit, container.apply edit⟩
    · exact ⟨field, container.apply edit⟩

/-! ## Runs -/

/-- The edit adds a field to the structure under the name of a container that it has. -/
def AddsFieldOverContainer (draft : Draft) (edit : Edit) (owner : QName) (name : String) : Prop :=
  draft.HasContainer owner name ∧ ¬ draft.HasField owner name ∧
    (draft.apply edit).2.HasField owner name

theorem clash_applyAll_iff (edits : List Edit) : (draft.applyAll edits).Clash owner name ↔
    draft.Clash owner name ∨ ∃ early edit late, edits = early ++ edit :: late ∧
      (draft.applyAll early).AddsFieldOverContainer edit owner name := by
  induction edits generalizing draft with
  | nil =>
      refine (or_iff_left fun holds => ?_).symm
      obtain ⟨early, edit, late, split, _⟩ := holds
      cases early <;> cases split
  | cons first rest ih =>
      have later : (draft.applyAll (first :: rest)) = (draft.apply first).2.applyAll rest := rfl
      rw [later, ih, clash_apply_iff, or_assoc]
      refine or_congr_right ?_
      constructor
      · intro holds
        rcases holds with added | ⟨early, edit, late, rfl, added⟩
        · exact ⟨[], first, rest, rfl, added⟩
        · exact ⟨first :: early, edit, late, rfl, added⟩
      · intro holds
        obtain ⟨early, edit, late, split, added⟩ := holds
        cases early with
        | nil =>
            cases split
            exact .inl added
        | cons _ early =>
            cases split
            exact .inr ⟨early, edit, late, rfl, added⟩

/-- After any edits, whether or not they succeed, a field and a container of a structure share a
name exactly if the field was added when the container was there.  Containers are never added under
the name of a field. -/
theorem clash_iff_field_after_container (config : Config) (edits : List Edit) (owner : QName)
    (name : String) : ((initial config).applyAll edits).Clash owner name ↔
      ∃ early edit late, edits = early ++ edit :: late ∧
        ((initial config).applyAll early).AddsFieldOverContainer edit owner name := by
  rw [clash_applyAll_iff]
  refine or_iff_right fun clash => ?_
  obtain ⟨⟨s, isStructure, _⟩, _⟩ := clash
  rw [structure?_initial] at isStructure
  cases isStructure

end Draft

/-- Books come to have a field with the name of their container of chapters. -/
def Library.chapterCount : Edit :=
  .within (Library.name "base") (.amend (Library.name "book") (.addField "chapters" .int32 false))

/-- It is not so that fields and containers have different names in all reachable drafts: the edit
that adds a field under the name of a container is accepted. -/
theorem Draft.not_forall_names_differ :
    ¬ ∀ draft : Draft, draft.Reachable → ∀ (owner : QName) (s : Structure),
      draft.types.structure? owner = some s → ∀ name : String,
        ¬ (s.HasField name ∧ s.HasContainer name) := by
  intro differ
  have reached : (Library.draftWithChapters.apply Library.chapterCount).2.Reachable :=
    .apply Library.chapterCount Library.reachable_draftWithChapters
  have names : ((Library.draftWithChapters.apply Library.chapterCount).2.types.structure?
      (Library.name "book")).map (fun s => (s.fields.names, s.containers.map Container.name)) =
      some (["sys.QName", "sys.ID", "sys.IsActive", "title", "price", "chapters"],
        ["chapters"]) := by decide +kernel
  obtain ⟨s, isStructure, same⟩ := Option.map_eq_some_iff.mp names
  obtain ⟨fields, containers⟩ := Prod.mk.inj same
  refine differ _ reached (Library.name "book") s isStructure "chapters" ⟨?_, ?_⟩
  · unfold Structure.HasField
    rw [fields]
    decide
  · unfold Structure.HasContainer
    rw [containers]
    decide

end TypeCatalog
