import TypeCatalog.Proofs.Identifier
import TypeCatalog.Proofs.Rule

/-!
# Additions to structures and views

Fields, containers and the fields of views are appended after a row of checks.  What follows says of
each addition what it asks for and what it comes to, so that nothing else has to look at the checks.

* `Fields.push_eq_ok_iff`: what is asked of a field.
* `Structure.addContainer_eq_ok_iff`, `Container.make_eq_ok_iff`: what is asked of a container.
* `View.namesIn`, `View.checkPart_eq_ok_iff`, `View.of_addField`: what is asked of a field of a view
  and which list has its name afterwards.
-/

namespace TypeCatalog

variable {config : Config} {field : Field} {owner : TypeKind}

/-! ## Fields -/

/-- The names of system fields have a dot, which no identifier has. -/
theorem Field.isSystem_eq_false_of_isIdentifier {limit : Nat}
    (isIdentifier : IsIdentifier limit field.name) : field.isSystem = false := by
  refine Bool.eq_false_iff.mpr fun isSystem => isIdentifier.dot_not_mem ?_
  have begins := List.isPrefixOf_iff_prefix.mp isSystem
  exact begins.subset (by decide)

namespace Fields

variable {fields pushed : Fields}

/-- A field is appended if its name is an identifier that no other field has, if there is room for
it, and if types of the kind may have fields of its kind. -/
theorem push_eq_ok_iff :
    fields.push field owner config = .ok pushed ↔
      IsIdentifier config.maxIdentLen field.name ∧ field.name ∉ fields.names ∧
        fields.length < config.maxFields ∧ owner.mayHold field.kind = true ∧
        pushed = fields ++ [field] := by
  unfold push
  rw [Check.bind_eq_ok_iff, ← checkIdentifier_eq_ok_iff]
  constructor
  · intro holds
    obtain ⟨_, valid, pushed⟩ := holds
    obtain ⟨fresh, pushed⟩ := Check.unless_eq_ok_iff.mp pushed
    obtain ⟨room, pushed⟩ := Check.unless_eq_ok_iff.mp pushed
    obtain ⟨allowed, pushed⟩ := Check.unless_eq_ok_iff.mp pushed
    cases pushed
    rw [has_iff_mem_names] at fresh
    exact ⟨valid, fresh, Nat.not_le.mp room, by simpa using allowed, rfl⟩
  · intro holds
    obtain ⟨valid, fresh, room, allowed, rfl⟩ := holds
    rw [← has_iff_mem_names] at fresh
    refine ⟨(), valid, ?_⟩
    dsimp only
    rw [if_neg fresh, if_neg (Nat.not_le.mpr room), if_neg (by simp [allowed])]
    rfl

theorem push_eq (added : fields.push field owner config = .ok pushed) :
    pushed = fields ++ [field] :=
  (push_eq_ok_iff.mp added).2.2.2.2

end Fields

/-! ## Containers -/

theorem Container.make_eq_ok_iff {name : String} {target : QName} {min max : Occurs}
    {made : Container} : make name target min max = .ok made ↔
      0 < max.count ∧ min.count ≤ max.count ∧ made = { name, target, min, max } := by
  unfold make
  split
  next none => simp [none]
  next some =>
    split
    next above => simp [UInt16.not_le.mpr above]
    next within =>
      have positive : 0 < max.count := UInt16.pos_iff_ne_zero.mpr some
      simp [positive, UInt16.not_lt.mp within, eq_comm]

namespace Structure

variable {s changed : Structure}

theorem addField_eq (added : s.addField field owner config = .ok changed) :
    changed = { s with fields := s.fields ++ [field] } := by
  unfold addField at added
  obtain ⟨fields, pushed, added⟩ := Check.bind_eq_ok_iff.mp added
  cases added
  rw [Fields.push_eq pushed]

/-- A container is appended if its name is an identifier that no container and no field has, if
there is room for it, and if types of the kind may hold what it is for, as far as that is known. -/
theorem addContainer_eq_ok_iff {container : Container} {child : Option TypeKind} :
    s.addContainer container owner child config = .ok changed ↔
      IsIdentifier config.maxIdentLen container.name ∧
        container.name ∉ s.containers.map Container.name ∧ container.name ∉ s.fields.names ∧
        s.containers.length < config.maxContainers ∧
        (∀ kind, child = some kind → owner.mayContain kind = true) ∧
        changed = { s with containers := s.containers ++ [container] } := by
  have taken : (s.container? container.name).isSome = true ↔
      container.name ∈ s.containers.map Container.name := by
    unfold container?
    simp
  unfold addContainer
  rw [Check.bind_eq_ok_iff, ← checkIdentifier_eq_ok_iff, ← taken, ← Fields.has_iff_mem_names]
  constructor
  · intro holds
    obtain ⟨_, valid, added⟩ := holds
    obtain ⟨fresh, added⟩ := Check.unless_eq_ok_iff.mp added
    obtain ⟨free, added⟩ := Check.unless_eq_ok_iff.mp added
    obtain ⟨room, added⟩ := Check.unless_eq_ok_iff.mp added
    refine ⟨valid, fresh, free, Nat.not_le.mp room, ?_⟩
    cases child with
    | none =>
        cases added
        exact ⟨nofun, rfl⟩
    | some kind =>
        obtain ⟨allowed, added⟩ := Check.unless_eq_ok_iff.mp added
        cases added
        refine ⟨fun _ known => ?_, rfl⟩
        cases known
        simpa using allowed
  · intro holds
    obtain ⟨valid, fresh, free, room, allowed, rfl⟩ := holds
    refine ⟨(), valid, ?_⟩
    refine Check.unless_eq_ok_iff.mpr ⟨fresh, ?_⟩
    refine Check.unless_eq_ok_iff.mpr ⟨free, ?_⟩
    refine Check.unless_eq_ok_iff.mpr ⟨Nat.not_le.mpr room, ?_⟩
    cases child with
    | none => rfl
    | some kind => exact Check.unless_eq_ok_iff.mpr ⟨by simp [allowed kind rfl], rfl⟩

theorem addContainer_eq {container : Container} {child : Option TypeKind}
    (added : s.addContainer container owner child config = .ok changed) :
    changed = { s with containers := s.containers ++ [container] } :=
  (addContainer_eq_ok_iff.mp added).2.2.2.2.2

end Structure

/-! ## Views -/

namespace View

variable {v changed : View} {part : ViewPart}

/-- The names of the fields in a part of the view. -/
def namesIn (v : View) : ViewPart → List String
  | .partition => v.partition
  | .clustering => v.clustering
  | .value => v.value

theorem checkPart_eq_ok_iff : checkPart part field = .ok () ↔
    (part = .partition → field.isFixedWidth = true) ∧
      (part ≠ .value → field.kind ≠ .record ∧ field.kind ≠ .event) := by
  unfold checkPart
  split
  next refused =>
    obtain ⟨isPartition, wide⟩ := refused
    refine iff_of_false (fun accepted => by cases accepted) fun holds => ?_
    rw [holds.1 isPartition] at wide
    cases wide
  next narrow =>
    have fixed : part = .partition → field.isFixedWidth = true := fun isPartition => by
      simpa using not_and.mp narrow isPartition
    split
    next refused =>
      obtain ⟨isKey, whole⟩ := refused
      refine iff_of_false (fun accepted => by cases accepted) fun holds => ?_
      obtain ⟨notRecord, notEvent⟩ := holds.2 isKey
      exact whole.elim notRecord notEvent
    next split => exact iff_of_true rfl ⟨fixed, fun isKey => not_or.mp (not_and.mp split isKey)⟩

/-- A field that is accepted is appended to the fields, and its name to the names in its part. -/
theorem of_addField (added : v.addField part field config = .ok changed) :
    checkPart part field = .ok () ∧ v.fields.push field .view config = .ok changed.fields ∧
      ∀ p, changed.namesIn p = v.namesIn p ++ if p = part then [field.name] else [] := by
  unfold addField at added
  obtain ⟨_, checked, added⟩ := Check.bind_eq_ok_iff.mp added
  obtain ⟨pushed, made, added⟩ := Check.bind_eq_ok_iff.mp added
  cases part <;> cases added
  all_goals
    refine ⟨checked, made, fun p => ?_⟩
    cases p <;> simp [namesIn]

theorem fields_addField (added : v.addField part field config = .ok changed) :
    changed.fields = v.fields ++ [field] :=
  Fields.push_eq (of_addField added).2.1

end View

end TypeCatalog
