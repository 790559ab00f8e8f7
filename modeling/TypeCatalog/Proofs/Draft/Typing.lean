import TypeCatalog.Proofs.Draft.Derivation
import TypeCatalog.Proofs.Draft.Untouched

/-!
# Types of fields

A field has a data type, the kind of its values and constraints.  They come from the table of kinds,
from the data type or from an edit, and whoever sets one of them sees to it that it goes with the
others.  Data types may be declared in other workspaces than the field, but they never change, so
that nothing has to be looked at twice.

* `Field.Typed`: what holds of the data type, the kind and the constraints of a field.
* `Draft.Reachable.typed`: it holds of all fields of a reachable draft.
* `Build.answer`, `Draft.Reachable.answer_addDataField`: whether a field of a data type can be added
  is decided by the kind of the data type, and not by its constraints.
* `Draft.Reachable.inherited`: the constraints of such a field are those of its data type for good,
  if no edit sets them.
-/

namespace TypeCatalog

/-- There is a data type of the name that the field gives, and it is of the kind of the field; types
of kind `owner` may have fields of the kind; and each constraint applies to it. -/
structure Field.Typed (draft : Draft) (owner : TypeKind) (field : Field) : Prop where
  data : ∃ data, draft.types.data? field.data = some data ∧ data.kind = field.kind
  held : owner.mayHold field.kind = true
  checked : ∀ c ∈ field.constraints, c.check field.kind draft.config.isPattern = .ok ()

theorem Field.Typed.step {draft after : Draft} {owner : TypeKind} {field : Field}
    (typed : field.Typed draft owner) (step : Draft.Step draft after) :
    field.Typed after owner := by
  obtain ⟨data, found, same⟩ := typed.data
  refine ⟨⟨data, step.extends.data? found, same⟩, typed.held, ?_⟩
  rw [step.config_eq]
  exact typed.checked

/-- The table of kinds lists no field that types of the kind may not have. -/
theorem SystemField.mayHold {owner : TypeKind} :
    ∀ known ∈ owner.systemFields, owner.mayHold known.kind = true := by
  cases owner <;> decide

theorem DataKind.mem_inhabitedKinds {kind : DataKind} (inhabited : kind ≠ .null) :
    kind ∈ inhabitedKinds := by
  cases kind with
  | null => exact absurd rfl inhabited
  | _ => decide

theorem TypeKind.ne_null_of_mayHold {owner : TypeKind} {kind : DataKind}
    (held : owner.mayHold kind = true) : kind ≠ .null := by
  rintro rfl
  cases held

/-! ## Steps and types of fields -/

namespace Draft

variable {draft after : Draft} {name ws owner : QName} {kind : DataKind} {field changed : Field}

/-- The system data types are there from the beginning. -/
theorem Reachable.data?_sysName (reached : Reachable draft) (inhabited : kind ≠ .null) :
    draft.types.data? kind.sysName = some { kind } := by
  refine reached.invariant (fun config => ?_) fun _ _ found step => step.extends.data? found
  refine TypeTable.data?_eq_some_iff.mpr ⟨sysData kind, initial_getElem?_iff.mpr ?_, rfl⟩
  refine List.mem_map.mpr ⟨sysData kind, List.mem_cons_of_mem _ ?_, rfl⟩
  exact List.mem_map_of_mem (DataKind.mem_inhabitedKinds inhabited)

/-- A field of a kind has the system data type of the kind. -/
theorem Reachable.typed_ofKind (reached : Reachable draft) {owner : TypeKind} (name : String)
    (required : Bool) (held : owner.mayHold kind = true) :
    (Field.ofKind name kind required).Typed draft owner :=
  ⟨⟨{ kind }, reached.data?_sysName (TypeKind.ne_null_of_mayHold held), rfl⟩, held, nofun⟩

theorem FieldSource.typed (reached : Reachable draft) (source : FieldSource draft name field)
    {owner : TypeKind} (held : owner.mayHold field.kind = true) :
    field.Typed draft owner := by
  cases source with
  | kind name kind required => exact reached.typed_ofKind name required held
  | reference name required targets =>
      have typed := reached.typed_ofKind name required held
      exact ⟨typed.data, typed.held, typed.checked⟩
  | data visible constrained =>
      obtain ⟨passed, rfl⟩ := Field.setConstraints_eq_ok_iff.mp constrained
      obtain ⟨data, found, kind⟩ := exists_data_of_findDataType reached.wellFormed visible
      exact ⟨⟨data, found, kind.symm⟩, held, Constraint.checkAll_eq_ok_iff.mp passed⟩

theorem FieldStep.typed {owner : TypeKind} (step : FieldStep draft.config.isPattern field changed)
    (typed : field.Typed draft owner) : changed.Typed draft owner := by
  cases step with
  | constraints made =>
      obtain ⟨passed, rfl⟩ := Field.setConstraints_eq_ok_iff.mp made
      exact ⟨typed.data, typed.held, Constraint.checkAll_eq_ok_iff.mp passed⟩
  | verifications made =>
      obtain ⟨_, rfl⟩ := Field.setVerifications_eq_ok_iff.mp made
      exact ⟨typed.data, typed.held, typed.checked⟩
  | comment _ => exact ⟨typed.data, typed.held, typed.checked⟩

theorem Reachable.typed (reached : Reachable draft) :
    FieldsHold (fun kind fields => ∀ field ∈ fields, field.Typed draft kind) draft := by
  refine reached.fields_invariant
    (motive := fun draft kind fields => ∀ field ∈ fields, field.Typed draft kind)
    (fun draft kind reached _ field listed => ?_)
    (fun _ _ _ _ _ reached step typed => step.forall_mem
      (fun _ source _ held => source.typed reached held) (fun _ _ step => step.typed) typed)
    (fun _ _ _ _ step typed field listed => (typed field listed).step step)
  obtain ⟨known, isKnown, rfl⟩ := List.mem_map.mp listed
  exact reached.typed_ofKind known.name known.required (SystemField.mayHold known isKnown)

end Draft

/-! ## Fields that are appended -/

namespace Fields

variable {f g : Field}

/-- A field that is appended is found under its name. -/
theorem get?_of_push {fields later : Fields} {kind : TypeKind} {config : Config}
    (pushed : fields.push f kind config = .ok later) : later.get? f.name = some f := by
  obtain ⟨_, fresh, _, _, rfl⟩ := push_eq_ok_iff.mp pushed
  have unknown : fields.get? f.name = none := by
    rw [← Option.not_isSome_iff_eq_none]
    exact fun isKnown => fresh (has_iff_mem_names.mp isKnown)
  unfold get? at unknown ⊢
  rw [List.find?_append, unknown]
  simp

/-- Whether a field can be appended depends on its name and its kind. -/
theorem map_push_congr (names : f.name = g.name) (kinds : f.kind = g.kind) (fields : Fields)
    (owner : TypeKind) (config : Config) :
    (fields.push f owner config).map (fun _ => ()) =
      (fields.push g owner config).map fun _ => () := by
  unfold push
  rw [names, kinds]
  cases checkIdentifier config.maxIdentLen g.name with
  | error _ => rfl
  | ok _ =>
      dsimp only [bind, Except.bind]
      split
      · rfl
      split
      · rfl
      split <;> rfl

end Fields

/-! ## Answers -/

namespace Build

variable {draft : Draft} {name : QName} {α : Type}

/-- What an action answers, whatever it leaves. -/
def answer (action : Build Unit) (draft : Draft) : Except DefinitionError Unit :=
  match action draft with
  | .ok _ _ => .ok ()
  | .error error _ => .error error

theorem answer_get (next : Draft → Build Unit) :
    answer (get >>= next) draft = answer (next draft) draft := rfl

theorem answer_check (check : Except DefinitionError α) (next : α → Build Unit) :
    answer (liftM check >>= next) draft = check >>= fun a => answer (next a) draft := by
  cases check <;> rfl

theorem answer_updateType (change : TypeDef → Except DefinitionError TypeDef) :
    answer (updateType name change) draft =
      match draft.types[name]? with
      | none => .error (.typeNotFound name)
      | some t => (change t).map fun _ => () := by
  unfold updateType
  rw [answer_get]
  cases draft.types[name]? with
  | none => rfl
  | some t =>
      dsimp only
      rw [answer_check]
      cases change t <;> rfl

/-- Whether a field can be added to a type depends on the name and the kind of the field. -/
theorem answer_pushField_congr {f g : Field} (names : f.name = g.name) (kinds : f.kind = g.kind) :
    answer (pushField name f) draft = answer (pushField name g) draft := by
  unfold pushField updateStructure
  rw [answer_get, answer_get, answer_updateType, answer_updateType]
  cases draft.types[name]? with
  | none => rfl
  | some t =>
      dsimp only
      cases t.body with
      | structured s =>
          have same := Fields.map_push_congr names kinds s.fields t.kind draft.config
          revert same
          dsimp only
          unfold Structure.addField
          cases s.fields.push f t.kind draft.config <;>
            cases s.fields.push g t.kind draft.config <;> exact id
      | _ => rfl

end Build

/-- The edit that adds a field of a named data type to a type of a workspace. -/
def Edit.addDataField (ws owner : QName) (field : String) (data : QName) (required : Bool) : Edit :=
  .within ws (.amend owner (.addDataField field data required))

namespace Draft

variable {draft : Draft} {ws owner data : QName} {field : String} {required : Bool}
  {found : TypeDef}

theorem apply_fst (draft : Draft) (edit : Edit) :
    (draft.apply edit).1 = Build.answer edit.run draft := by
  unfold apply Build.answer
  cases edit.run draft <;> rfl

theorem answer_amend (edit : TypeEdit) :
    (draft.apply (.within ws (.amend owner edit))).1 =
      draft.findWorkspace ws >>= fun _ => Build.checkDeclaredIn draft ws owner >>= fun _ =>
        Build.answer (edit.run owner) draft := by
  rw [apply_fst]
  unfold Edit.run WorkspaceEdit.run
  simp only [Build.answer_get, Build.answer_check]

/-- The type that an edit is about is declared in the workspace of the edit. -/
theorem Reachable.workspace_resolve (reached : Reachable draft)
    (declared : Build.checkDeclaredIn draft ws owner = .ok ()) :
    (draft.types.resolve owner).workspace = ws := by
  unfold Build.checkDeclaredIn at declared
  split at declared
  next t found =>
    split at declared
    next home =>
      have real : owner ≠ .any := by
        rintro rfl
        rw [reached.wellFormed.wildcardFree] at found
        cases found
      unfold TypeTable.resolve
      rw [if_neg real, found]
      exact home.1
    next => cases declared
  next => cases declared

/-- The constraints of a data type apply to its kind, so that a field can have them. -/
theorem Reachable.setConstraints_effective (reached : Reachable draft)
    (visible : draft.findDataType ws data = .ok found) :
    (Field.ofData field data (dataKindOf found) required).setConstraints draft.config.isPattern
        (draft.types.effectiveConstraints data) =
      .ok { Field.ofData field data (dataKindOf found) required with
        constraints := draft.types.effectiveConstraints data } := by
  obtain ⟨dataType, isData, kind⟩ := exists_data_of_findDataType reached.wellFormed visible
  refine Field.setConstraints_eq_ok_iff.mpr ⟨Constraint.checkAll_eq_ok_iff.mpr ?_, rfl⟩
  intro c listed
  change c.check (dataKindOf found) draft.config.isPattern = .ok ()
  rw [kind]
  exact reached.check_of_mem_effective isData listed

/-- A field of a data type is added or refused just as a field of the kind of the data type would
be. -/
theorem Reachable.answer_addDataField (reached : Reachable draft)
    (visible : draft.findDataType ws data = .ok found) :
    (draft.apply (.addDataField ws owner field data required)).1 =
      (draft.apply (.within ws (.amend owner
        (.addField field (dataKindOf found) required)))).1 := by
  unfold Edit.addDataField
  rw [answer_amend, answer_amend]
  cases draft.findWorkspace ws with
  | error _ => rfl
  | ok _ =>
      cases declared : Build.checkDeclaredIn draft ws owner with
      | error _ => rfl
      | ok _ =>
          change Build.answer (Build.addDataField owner field data required) draft =
            Build.answer (Build.pushField owner (.ofKind field (dataKindOf found) required)) draft
          unfold Build.addDataField
          rw [Build.answer_get, reached.workspace_resolve declared, Build.answer_check, visible]
          -- Up to here both edits look at the same things; from here on only names and kinds count.
          change Build.answer (liftM (Field.setConstraints _ _ _) >>= _) draft = _
          rw [Build.answer_check, reached.setConstraints_effective visible]
          exact Build.answer_pushField_congr rfl rfl

/-! ## Constraints for good -/

/-- A field of a data type starts with the constraints of the data type. -/
theorem exists_field_of_addDataField
    (passed : (draft.apply (.addDataField ws owner field data required)).1 = .ok ()) :
    ∃ found t f, draft.findDataType (draft.types.resolve owner).workspace data = .ok found ∧
      (draft.apply (.addDataField ws owner field data required)).2.types[owner]? = some t ∧
      t.field? field = some f ∧ f.data = data ∧
      f.constraints = draft.types.effectiveConstraints data := by
  have yields : Build.Yields (Edit.addDataField ws owner field data required).run draft
      fun _ after => ∃ found t f,
        draft.findDataType (draft.types.resolve owner).workspace data = .ok found ∧
        after.types[owner]? = some t ∧ t.field? field = some f ∧ f.data = data ∧
        f.constraints = draft.types.effectiveConstraints data := by
    refine Build.yields_get ?_
    refine Build.yields_check fun home opened => ?_
    refine Build.amend_yields fun t registered _ _ => ?_
    refine Build.addDataField_yields registered fun found f s changed visible made body added => ?_
    obtain ⟨_, rfl⟩ := Field.setConstraints_eq_ok_iff.mp made
    obtain ⟨pushed, appended, added⟩ := Check.bind_eq_ok_iff.mp added
    cases added
    exact ⟨found, _, _, visible, withType_getElem?_self .., Fields.get?_of_push appended, rfl, rfl⟩
  exact of_apply_eq_ok yields passed

/-- What a draft keeps of a field is read off the type that has the field. -/
theorem Keeps.field? {after : Draft} (keeps : Keeps owner field draft after) {t : TypeDef}
    {f : Field} (registered : draft.types[owner]? = some t) (has : t.field? field = some f) :
    ∃ later changed, after.types[owner]? = some later ∧ later.field? field = some changed ∧
      changed.data = f.data ∧ changed.constraints = f.constraints := by
  obtain ⟨later, registeredAfter, kept⟩ := keeps t registered
  obtain ⟨fields, hasFields, isField⟩ := Option.bind_eq_some_iff.mp has
  obtain ⟨laterFields, hasLater, keptField⟩ := kept fields hasFields
  obtain ⟨changed, isChanged, same⟩ := keptField f isField
  exact ⟨later, changed, registeredAfter,
    Option.bind_eq_some_iff.mpr ⟨laterFields, hasLater, isChanged⟩, same⟩

/-- A field that was added for a data type has the constraints that this data type has in any later
draft, unless they are set by an edit. -/
theorem Reachable.inherited (reached : Reachable draft)
    (passed : (draft.apply (.addDataField ws owner field data required)).1 = .ok ())
    {late : List Edit}
    (untouched : Untouched owner field
      (draft.apply (.addDataField ws owner field data required)).2 late) :
    ∃ t f, (draft.applyAll (.addDataField ws owner field data required :: late)).types[owner]? =
        some t ∧ t.field? field = some f ∧ f.data = data ∧
      f.constraints = (draft.applyAll
        (.addDataField ws owner field data required :: late)).types.effectiveConstraints data := by
  obtain ⟨found, t, f, visible, registered, has, isData, constraints⟩ :=
    exists_field_of_addDataField passed
  obtain ⟨dataType, isDataType, _⟩ := exists_data_of_findDataType reached.wellFormed visible
  obtain ⟨later, changed, registeredAfter, hasLater, sameData, sameConstraints⟩ :=
    (keeps_applyAll untouched).field? registered has
  refine ⟨later, changed, registeredAfter, hasLater, sameData.trans isData, ?_⟩
  -- The data type was there before the field, so that what it comes to is settled.
  rw [sameConstraints, constraints]
  exact (reached.effectiveConstraints_applyAll isDataType _).symm

/-- In every reachable draft the data type, the kind and the constraints of each field go together.
Adding a field of a data type that is found does not fail for its constraints, but only where a
field of its kind cannot be added either.  From then on the field has the constraints that its data
type has, until an edit sets them. -/
theorem Reachable.fields_typed (reached : Reachable draft) :
    (∀ (name : QName) (t : TypeDef) (fields : Fields), draft.types[name]? = some t →
      t.fields? = some fields → ∀ field ∈ fields, field.Typed draft t.kind) ∧
    (∀ (ws owner data : QName) (field : String) (required : Bool) (found : TypeDef),
      draft.findDataType ws data = .ok found →
      (draft.apply (.addDataField ws owner field data required)).1 =
        (draft.apply (.within ws (.amend owner
          (.addField field (dataKindOf found) required)))).1) ∧
    ∀ (ws owner data : QName) (field : String) (required : Bool) (late : List Edit),
      (draft.apply (.addDataField ws owner field data required)).1 = .ok () →
      Untouched owner field (draft.apply (.addDataField ws owner field data required)).2 late →
      ∃ t f, (draft.applyAll (.addDataField ws owner field data required :: late)).types[owner]? =
          some t ∧ t.field? field = some f ∧ f.data = data ∧
        f.constraints = (draft.applyAll
          (.addDataField ws owner field data required :: late)).types.effectiveConstraints data :=
  ⟨reached.typed, fun _ _ _ _ _ _ visible => reached.answer_addDataField visible,
    fun _ _ _ _ _ _ passed untouched => reached.inherited passed untouched⟩

end Draft

namespace Constraint

variable {list : List Constraint} {length : Nat}

theorem eq_minLen_of_map (lengths : list.map minLength? = [some length]) :
    list = [.minLen length] := by
  obtain ⟨c, rest, rfl, first, nothing⟩ := List.map_eq_cons_iff.mp lengths
  rw [List.map_eq_nil_iff.mp nothing]
  cases c <;> cases first
  rfl

theorem eq_maxLen_of_map (lengths : list.map maxLength? = [some length]) :
    list = [.maxLen length] := by
  obtain ⟨c, rest, rfl, first, nothing⟩ := List.map_eq_cons_iff.mp lengths
  rw [List.map_eq_nil_iff.mp nothing]
  cases c <;> cases first
  rfl

/-- A least and a greatest length stay side by side. -/
theorem overlay_lengths (least greatest : Nat) :
    overlay (overlay (overlay [] []) [.minLen least]) [.maxLen greatest] =
      [.minLen least, .maxLen greatest] := by
  have inOrder : kindLe (.minLen least) (.maxLen greatest) = true := rfl
  have kept : [minLen least, maxLen greatest].mergeSort kindLe =
      [.minLen least, .maxLen greatest] :=
    List.mergeSort_of_pairwise (List.pairwise_pair.mpr inOrder)
  simp [overlay, kind, kept]

end Constraint

namespace Library

/-- The workspace `app` comes to have prints of books. -/
def prints : Edit :=
  .within (name "app") (.declare (name "print") (.structured .cDoc isStructure_cDoc))

def draftWithPrints : Draft := ((draft.applyAll numbers).apply prints).2

theorem reachable_draftWithPrints : draftWithPrints.Reachable :=
  .apply prints (((Draft.Reachable.initial {}).applyAll edits).applyAll numbers)

/-- Prints come to have numbers of the longer form, and `app` to see books again. -/
def printNumbers : List Edit := [
  .addDataField (name "app") (name "print") "number" (name "isbn13") true,
  .within (name "app") (.setAncestors [name "base"])]

/-- The longer form has its own greatest length and the least length that it inherits. -/
theorem effectiveConstraints_isbn13 :
    draftWithPrints.types.effectiveConstraints (name "isbn13") = [.minLen 10, .maxLen 13] := by
  have lengths : (draftWithPrints.types.derivation draftWithPrints.types.size []
      (name "isbn13")).map (fun data =>
        (data.constraints.map Constraint.minLength?, data.constraints.map Constraint.maxLength?)) =
      [([none], [some 13]), ([some 10], [none]), ([], [])] := by decide +kernel
  unfold TypeTable.effectiveConstraints
  revert lengths
  generalize TypeTable.derivation _ _ _ _ = chain
  intro lengths
  obtain ⟨own, _, rfl, ownLengths, lengths⟩ := List.map_eq_cons_iff.mp lengths
  obtain ⟨above, _, rfl, aboveLengths, lengths⟩ := List.map_eq_cons_iff.mp lengths
  obtain ⟨system, _, rfl, none, lengths⟩ := List.map_eq_cons_iff.mp lengths
  rw [List.map_eq_nil_iff.mp lengths]
  simp only [List.foldr_cons, List.foldr_nil]
  rw [Constraint.eq_maxLen_of_map (Prod.mk.inj ownLengths).2,
    Constraint.eq_minLen_of_map (Prod.mk.inj aboveLengths).1,
    List.map_eq_nil_iff.mp (Prod.mk.inj none).1]
  exact Constraint.overlay_lengths 10 13

theorem effectiveConstraints_isbn13_applyAll (edits : List Edit) :
    (draftWithPrints.applyAll edits).types.effectiveConstraints (name "isbn13") =
      [.minLen 10, .maxLen 13] := by
  have declared : (draftWithPrints.types.data? (name "isbn13")).isSome = true := by decide +kernel
  obtain ⟨data, found⟩ := Option.isSome_iff_exists.mp declared
  rw [reachable_draftWithPrints.effectiveConstraints_applyAll found]
  exact effectiveConstraints_isbn13

end Library

/-- The numbers of prints are typed, and have both lengths that are derived for the longer form, the
least of them from a data type that `app` did not see when they were added. -/
theorem Draft.Reachable.fields_typed_prints :
    ∃ t f, (Library.draftWithPrints.applyAll Library.printNumbers).types[Library.name "print"]? =
        some t ∧ t.field? "number" = some f ∧ f.data = Library.name "isbn13" ∧
      f.Typed (Library.draftWithPrints.applyAll Library.printNumbers) t.kind ∧
      f.constraints = [.minLen 10, .maxLen 13] := by
  have reached := Library.reachable_draftWithPrints
  obtain ⟨_, answers, inherited⟩ := Draft.Reachable.fields_typed reached
  obtain ⟨typed, _⟩ := Draft.Reachable.fields_typed (reached.applyAll Library.printNumbers)
  have passed : (Library.draftWithPrints.apply (.addDataField (Library.name "app")
      (Library.name "print") "number" (Library.name "isbn13") true)).1 = .ok () := by
    have isData : (Library.draftWithPrints.findDataType (Library.name "app")
        (Library.name "isbn13")).toOption.map dataKindOf = some .string := by decide +kernel
    have accepted : (Library.draftWithPrints.apply (.within (Library.name "app")
        (.amend (Library.name "print") (.addField "number" .string true)))).1.isOk = true := by
      decide +kernel
    cases visible : Library.draftWithPrints.findDataType (Library.name "app")
        (Library.name "isbn13") with
    | error _ =>
        rw [visible] at isData
        cases isData
    | ok found =>
        rw [visible] at isData
        rw [answers _ _ _ "number" true found visible, Option.some.inj isData]
        revert accepted
        cases (Library.draftWithPrints.apply (.within (Library.name "app")
          (.amend (Library.name "print") (.addField "number" .string true)))).1 with
        | ok _ => exact fun _ => rfl
        | error _ => exact nofun
  obtain ⟨t, f, registered, has, isNumber, constraints⟩ :=
    inherited _ _ _ _ _ [.within (Library.name "app") (.setAncestors [Library.name "base"])] passed
      ⟨fun _ _ same => (nomatch same), trivial⟩
  rw [Library.effectiveConstraints_isbn13_applyAll] at constraints
  obtain ⟨fields, hasFields, isField⟩ := Option.bind_eq_some_iff.mp has
  exact ⟨t, f, registered, has, isNumber,
    typed _ t fields registered hasFields f (List.mem_of_find?_eq_some isField), constraints⟩

end TypeCatalog
