import TypeCatalog.Proofs.Draft.Growth
import TypeCatalog.Proofs.Draft.Mirror

/-!
# The layout of structures and views

Every type with fields begins with the system fields of its kind, as the table of kinds lists them.
What edits add comes after these, under other names and within the limits of the catalog, so that
the kind of a type tells which system fields it has.

* `Fields.LaidOut`: what holds of the fields of a type.
* `Structure.LaidOut`: what holds of the containers of a structure, and which may be singletons.
* `Draft.Reachable.laid_out`: all types of a reachable draft are like that; a type has the field
  that switches it on and off if it can be switched, and an identity if it is a document or a
  record.
-/

namespace TypeCatalog

/-! ## Fields -/

/-- The field as the table of system fields would list it. -/
def Field.outline (field : Field) : SystemField := ⟨field.name, field.kind, field.required⟩

theorem Draft.FieldStep.outline_eq {isPattern : String → Bool} {field changed : Field}
    (step : FieldStep isPattern field changed) : changed.outline = field.outline := by
  have same : changed.declared.outline = field.declared.outline :=
    congrArg Field.outline step.declared_eq
  exact same

namespace Fields

/-- The fields begin with the system fields of the kind, in the order of the table; the others have
identifiers for names; no two names are the same; and there is a limit, unless the system fields
alone are more than it allows. -/
structure LaidOut (config : Config) (kind : TypeKind) (fields : Fields) : Prop where
  begins : ∃ system own : Fields, fields = system ++ own ∧
    system.map Field.outline = kind.systemFields ∧
    ∀ field ∈ own, IsIdentifier config.maxIdentLen field.name
  distinct : fields.names.Nodup
  bounded : fields.length ≤ max config.maxFields kind.systemFields.length

variable {config : Config} {kind : TypeKind} {fields later : Fields} {name : String}

/-- Where no two fields have the same name, a field is found under its own. -/
theorem get?_eq_some_of_mem (distinct : fields.names.Nodup) {field : Field}
    (listed : field ∈ fields) : fields.get? field.name = some field := by
  induction fields with
  | nil => cases listed
  | cons first rest ih =>
      obtain ⟨fresh, distinct⟩ := List.nodup_cons.mp distinct
      rw [get?_cons]
      rcases List.mem_cons.mp listed with rfl | among
      · rw [if_pos rfl]
      · have apart : first.name ≠ field.name := fun same =>
          fresh (same ▸ List.mem_map_of_mem among)
        rw [if_neg apart]
        exact ih distinct among

theorem map_outline_ofKind (kind : TypeKind) :
    (ofKind kind).map Field.outline = kind.systemFields := by
  unfold ofKind
  rw [List.map_map]
  exact List.map_id _

theorem laidOut_ofKind (config : Config) (kind : TypeKind) : (ofKind kind).LaidOut config kind where
  begins := ⟨ofKind kind, [], (List.append_nil _).symm, map_outline_ofKind kind, nofun⟩
  distinct := by cases kind <;> decide
  bounded := by
    rw [← map_outline_ofKind kind, List.length_map]
    exact Nat.le_max_right _ _

theorem LaidOut.push (laid : fields.LaidOut config kind) {field : Field} {owner : TypeKind}
    (pushed : fields.push field owner config = .ok later) : later.LaidOut config kind := by
  obtain ⟨valid, fresh, room, _, rfl⟩ := push_eq_ok_iff.mp pushed
  obtain ⟨system, own, rfl, table, named⟩ := laid.begins
  refine ⟨⟨system, own ++ [field], List.append_assoc .., table, ?_⟩, ?_, ?_⟩
  · intro other listed
    rcases List.mem_append.mp listed with old | new
    · exact named other old
    · rw [List.mem_singleton.mp new]
      exact valid
  · have distinct := laid.distinct
    unfold names at distinct fresh ⊢
    rw [List.map_append, List.map_singleton]
    exact List.nodup_append.mpr ⟨distinct, by simp, fun other listed last isLast =>
      (List.mem_singleton.mp isLast) ▸ fun same => fresh (same ▸ listed)⟩
  · rw [List.length_append]
    exact Nat.le_trans room (Nat.le_max_left _ _)

/-- The layout does not depend on what is not in the outlines of fields. -/
theorem LaidOut.of_map_outline_eq (laid : fields.LaidOut config kind)
    (same : later.map Field.outline = fields.map Field.outline) : later.LaidOut config kind := by
  have sameNames : later.names = fields.names := by
    have listed := congrArg (List.map SystemField.name) same
    rwa [List.map_map, List.map_map] at listed
  have sameLength : later.length = fields.length := by
    simpa using congrArg List.length same
  refine ⟨?_, sameNames ▸ laid.distinct, sameLength ▸ laid.bounded⟩
  obtain ⟨system, own, rfl, table, named⟩ := laid.begins
  rw [List.map_append] at same
  obtain ⟨system', own', rfl, sameSystem, sameOwn⟩ := List.map_eq_append_iff.mp same
  refine ⟨system', own', rfl, sameSystem.trans table, fun field listed => ?_⟩
  have outlined : field.outline ∈ own.map Field.outline := sameOwn ▸ List.mem_map_of_mem listed
  obtain ⟨former, among, outline⟩ := List.mem_map.mp outlined
  have sameName : former.name = field.name := congrArg SystemField.name outline
  exact sameName ▸ named former among

/-- Which system fields there are is told by the kind alone, since their names have a dot. -/
theorem LaidOut.mem_names_iff (laid : fields.LaidOut config kind) (dotted : '.' ∈ name.toList) :
    name ∈ fields.names ↔ name ∈ kind.systemFields.map SystemField.name := by
  obtain ⟨system, own, rfl, table, named⟩ := laid.begins
  have ofSystem : system.map Field.name = kind.systemFields.map SystemField.name := by
    rw [← table, List.map_map]
    rfl
  unfold names
  rw [List.map_append, List.mem_append, ofSystem]
  refine or_iff_left fun listed => ?_
  obtain ⟨field, isOwn, rfl⟩ := List.mem_map.mp listed
  exact (named field isOwn).dot_not_mem dotted

end Fields

/-! ## Containers -/

/-- The container has an identifier for its name and room for something. -/
structure Container.LaidOut (limit : Nat) (container : Container) : Prop where
  named : IsIdentifier limit container.name
  positive : 0 < container.max.count
  ordered : container.min.count ≤ container.max.count

namespace Structure

/-- The containers of the structure are laid out, they differ in their names, and there are no more
than the limit allows; and only some documents are singletons. -/
structure LaidOut (config : Config) (kind : TypeKind) (s : Structure) : Prop where
  containers : ∀ container ∈ s.containers, container.LaidOut config.maxIdentLen
  distinct : (s.containers.map Container.name).Nodup
  bounded : s.containers.length ≤ config.maxContainers
  singleton : s.singleton = true → kind = .cDoc ∨ kind = .wDoc

variable {config : Config} {kind : TypeKind} {s changed : Structure}

theorem laidOut_ofKind (config : Config) (kind : TypeKind) : (ofKind kind).LaidOut config kind where
  containers := nofun
  distinct := List.nodup_nil
  bounded := Nat.zero_le _
  singleton := nofun

/-- The layout does not depend on fields, uniques and comments. -/
theorem LaidOut.of_declared_eq (laid : s.LaidOut config kind)
    (same : changed.containers.map Container.declared = s.containers.map Container.declared)
    (singleton : changed.singleton = s.singleton) : changed.LaidOut config kind where
  containers container listed := by
    have declared : container.declared ∈ s.containers.map Container.declared :=
      same ▸ List.mem_map_of_mem listed
    obtain ⟨former, among, alike⟩ := List.mem_map.mp declared
    have made := laid.containers former among
    have name : former.declared.name = container.declared.name := congrArg _ alike
    have min : former.declared.min = container.declared.min := congrArg _ alike
    have max : former.declared.max = container.declared.max := congrArg _ alike
    unfold Container.declared at name min max
    exact ⟨name ▸ made.named, max ▸ made.positive, min ▸ max ▸ made.ordered⟩
  distinct := by
    have names := congrArg (List.map Container.name) same
    rw [List.map_map, List.map_map] at names
    exact (show changed.containers.map Container.name = s.containers.map Container.name from
      names) ▸ laid.distinct
  bounded := by
    have counted : changed.containers.length = s.containers.length := by
      simpa using congrArg List.length same
    exact counted ▸ laid.bounded
  singleton := singleton ▸ laid.singleton

theorem LaidOut.addContainer (laid : s.LaidOut config kind) {name : String} {target : QName}
    {min max : Occurs} {container : Container} {owner : TypeKind} {child : Option TypeKind}
    (made : Container.make name target min max = .ok container)
    (added : s.addContainer container owner child config = .ok changed) :
    changed.LaidOut config kind := by
  have differ := (show s.ContainersDiffer from laid.distinct).addContainer added
  obtain ⟨positive, ordered, rfl⟩ := Container.make_eq_ok_iff.mp made
  obtain ⟨valid, _, _, room, _, rfl⟩ := addContainer_eq_ok_iff.mp added
  refine ⟨fun container listed => ?_, differ, ?_, laid.singleton⟩
  · rcases List.mem_append.mp listed with old | new
    · exact laid.containers container old
    · rw [List.mem_singleton.mp new]
      exact ⟨valid, positive, ordered⟩
  · rw [List.length_append]
    exact room

end Structure

namespace Draft

variable {draft : Draft} {name : QName} {t : TypeDef} {kind : TypeKind}

/-! ## Steps -/

theorem FieldsStep.laidOut {fields later : Fields} (step : FieldsStep draft name kind fields later)
    (laid : fields.LaidOut draft.config kind) : later.LaidOut draft.config kind := by
  cases step with
  | kept => exact laid
  | pushed _ made => exact laid.push made
  | updated step made =>
      exact laid.of_map_outline_eq
        (Fields.map_update (fun f changed became => (step f changed became).outline_eq) made)

theorem StructureStep.laidOut {s changed : Structure}
    (step : StructureStep draft name kind s changed) (laid : s.LaidOut draft.config kind) :
    changed.LaidOut draft.config kind := by
  cases step with
  | pushField _ added =>
      rw [Structure.addField_eq added]
      exact laid.of_declared_eq rfl rfl
  | updateField _ _ => exact laid.of_declared_eq rfl rfl
  | addContainer made added => exact laid.addContainer made added
  | commentContainer updated =>
      exact laid.of_declared_eq (Structure.map_setContainerComment (fun _ => rfl) updated) rfl
  | setSingleton allowed =>
      refine { laid with singleton := fun _ => ?_ }
      revert allowed
      cases kind <;> decide

theorem Reachable.fields_laidOut (reached : Reachable draft) :
    FieldsHold (fun kind fields => fields.LaidOut draft.config kind) draft :=
  reached.fields_invariant (motive := fun draft kind fields => fields.LaidOut draft.config kind)
    (fun draft kind _ _ => Fields.laidOut_ofKind draft.config kind)
    (fun _ _ _ _ _ _ step laid => step.laidOut laid)
    (fun _ _ _ _ step laid => step.config_eq ▸ laid)

theorem Reachable.structure_laidOut (reached : Reachable draft) {s : Structure}
    (found : draft.types[name]? = some t) (isStructure : t.body = .structured s) :
    s.LaidOut draft.config t.kind := by
  refine reached.body_invariant
    (motive := fun draft kind body => ∀ s, body = .structured s → s.LaidOut draft.config kind)
    (fun _ _ _ isStructure => nomatch isStructure) ?_ ?_ ?_ name t found s isStructure
  · intro draft kind body _ new s isStructure
    subst isStructure
    cases new
    exact Structure.laidOut_ofKind draft.config kind
  · intro draft name kind body later _ _ step laid s isStructure
    subst isStructure
    cases step with
    | kept => exact laid s rfl
    | structured step => exact step.laidOut (laid _ rfl)
    | unique added =>
        rw [Structure.addUnique_eq added]
        exact (laid _ rfl).of_declared_eq rfl rfl
  · intro before after kind body step laid s isStructure
    rw [step.config_eq]
    exact laid s isStructure

/-! ## What the kind of a type tells -/

/-- The kind of a type tells which of the system fields it has, if it has fields at all. -/
theorem Reachable.hasField_iff (reached : Reachable draft) (found : draft.types[name]? = some t)
    {field : String} (dotted : '.' ∈ field.toList) :
    t.hasField field = true ↔ field ∈ t.kind.systemFields.map SystemField.name := by
  unfold TypeDef.hasField TypeDef.field?
  cases has : t.fields? with
  | some fields =>
      rw [Option.bind_some, ← (reached.fields_laidOut name t fields found has).mem_names_iff dotted]
      exact Fields.has_iff_mem_names
  | none =>
      -- A body without fields goes with a kind that has no system fields.
      have bare : t.kind.systemFields = [] := by
        have fits := reached.wellFormed.fits found
        rw [TypeDef.fields?_eq] at has
        cases body : t.body with
        | structured _ | view _ =>
            rw [body] at has
            cases has
        | null | any => exact (body ▸ fits).elim
        | function _ =>
            rw [body] at fits
            change t.kind.isFunction = true at fits
            revert fits
            cases t.kind <;> decide
        | _ =>
            rw [body] at fits
            rw [show t.kind = _ from fits]
            rfl
      rw [bare]
      simp

/-- In every reachable draft the fields of types and the containers of structures are laid out.  The
kind of a type tells whether it can be switched on and off by a field, and whether it has an
identity. -/
theorem Reachable.laid_out (reached : Reachable draft) (found : draft.types[name]? = some t) :
    (∀ fields, t.fields? = some fields → fields.LaidOut draft.config t.kind) ∧
    (t.hasField SystemField.isActive.name = true ↔
      .activate ∈ t.kind.operations ∧ .deactivate ∈ t.kind.operations) ∧
    (t.hasField SystemField.id.name = true ↔ t.kind.isRecord = true) ∧
    ∀ s, t.structure? = some s → s.LaidOut draft.config t.kind := by
  refine ⟨fun fields has => reached.fields_laidOut name t fields found has, ?_, ?_,
    fun s isStructure =>
      reached.structure_laidOut found (TypeDef.structure?_eq_some_iff.mp isStructure)⟩
  · rw [reached.hasField_iff found (by decide)]
    cases t.kind <;> decide
  · rw [reached.hasField_iff found (by decide)]
    cases t.kind <;> decide

/-- Books can be switched on and off, have an identity and no two fields of one name, and the slot
they have for chapters is called by an identifier. -/
theorem Reachable.laid_out_chapters :
    ∃ book : TypeDef, Library.draftWithChapters.types[Library.name "book"]? = some book ∧
      book.hasField "sys.IsActive" = true ∧ book.hasField "sys.ID" = true ∧
      ∃ s, book.structure? = some s ∧ s.fields.names.Nodup ∧
        s.containers.map Container.name = ["chapters"] ∧
        ∀ container ∈ s.containers,
          container.LaidOut Library.draftWithChapters.config.maxIdentLen := by
  have known : (Library.draftWithChapters.types[Library.name "book"]?).map
      (fun t => (t.kind, t.structure?.map fun s => s.containers.map Container.name)) =
      some (.cDoc, some ["chapters"]) := by decide +kernel
  obtain ⟨book, found, has⟩ := Option.map_eq_some_iff.mp known
  obtain ⟨kind, containers⟩ := Prod.mk.inj has
  obtain ⟨s, isStructure, names⟩ := Option.map_eq_some_iff.mp containers
  obtain ⟨fields, active, identity, layout⟩ :=
    Reachable.laid_out Library.reachable_draftWithChapters found
  rw [kind] at active identity
  refine ⟨book, found, active.mpr (by decide), identity.mpr rfl, s, isStructure, ?_, names,
    (layout s isStructure).containers⟩
  refine (fields s.fields ?_).distinct
  rw [TypeDef.fields?_eq, TypeDef.structure?_eq_some_iff.mp isStructure]
  rfl

end Draft

end TypeCatalog
