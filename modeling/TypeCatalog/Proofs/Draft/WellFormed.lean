import TypeCatalog.Proofs.Draft.Edit
import TypeCatalog.Proofs.Structure
import TypeCatalog.Proofs.Table

/-!
# Well-formed drafts

What every reachable draft is like, as far as later queries rely on it.

* `Body.Fits`: the body of a type is of the form that goes with its kind, and a type that has
  fields at all has at least one, since it starts with its system fields.
* `TypeTable.Grows`: a step keeps every type under its name, with its kind and its workspace.
* `Draft.WellFormed`: types are stored under their own names, the wildcard's name is free, and
  every rule has the shape that was checked and is declared by a workspace.
* `Draft.PrincipalsKnown`: every rule is about a role.
-/

namespace TypeCatalog

/-! ## Bodies and kinds -/

/-- The body goes with the kind of the type. -/
def Body.Fits (kind : TypeKind) : Body → Prop
  | .null | .any => False
  | .data _ => kind = .data
  | .structured s => kind.isStructure = true ∧ s.fields ≠ []
  | .view v => kind = .view ∧ v.fields ≠ []
  | .function _ => kind.isFunction = true
  | .projector _ => kind = .projector
  | .job _ => kind = .job
  | .workspace _ => kind = .workspace
  | .role => kind = .role
  | .tag _ => kind = .tag
  | .rate _ => kind = .rate
  | .limit _ => kind = .limit

theorem TypeKind.operations_of_isFunction {kind : TypeKind} (runs : kind.isFunction = true) :
    kind.operations = [.execute] := by
  revert runs
  cases kind <;> decide

namespace TypeDef

variable {t : TypeDef}

theorem workspace?_eq_some_iff {home : Workspace} :
    t.workspace? = some home ↔ t.body = .workspace home := by
  unfold workspace?
  cases t.body <;> simp

/-- A type with fields starts with a system field. -/
theorem fields_ne_nil_of_fits (fits : t.body.Fits t.kind) {fields : Fields}
    (has : t.fields? = some fields) : fields ≠ [] := by
  unfold fields? at has
  cases body : t.body with
  | structured s =>
      rw [body] at fits has
      cases has
      exact fits.2
  | view v =>
      rw [body] at fits has
      cases has
      exact fits.2
  | _ =>
      rw [body] at has
      cases has

/-- Of the operations that queries ask for, a type without fields has execution only. -/
theorem eq_execute_of_fields?_eq_none (fits : t.body.Fits t.kind) (none : t.fields? = none)
    {operation : Operation} (has : operation ∈ t.kind.operations)
    (asked : operation ≠ .inherits) : operation = .execute := by
  unfold fields? at none
  cases body : t.body with
  | structured s =>
      rw [body] at none
      cases none
  | view v =>
      rw [body] at none
      cases none
  | function f =>
      rw [body] at fits
      rw [TypeKind.operations_of_isFunction fits] at has
      exact List.mem_singleton.mp has
  | role =>
      rw [body] at fits
      rw [show t.kind = .role from fits] at has
      exact absurd (List.mem_singleton.mp has) asked
  | null | any =>
      rw [body] at fits
      exact fits.elim
  | _ =>
      rw [body] at fits
      rw [show t.kind = _ from fits] at has
      cases has

end TypeDef

/-! ## What keeps the fields of a type -/

/-- Whatever changes of single fields keep is the same all along the list. -/
theorem Fields.map_update {β : Type} {read : Field → β} {name : String}
    {change : Field → Except DefinitionError Field} {fields updated : Fields}
    (keeps : ∀ f changed, change f = .ok changed → read changed = read f)
    (made : Fields.update name change fields = .ok updated) :
    updated.map read = fields.map read := by
  induction fields generalizing updated with
  | nil => cases made
  | cons field rest ih =>
      unfold Fields.update at made
      split at made
      next =>
        obtain ⟨changed, became, rfl⟩ := Check.map_eq_ok_iff.mp made
        rw [List.map_cons, List.map_cons, keeps field changed became]
      next =>
        obtain ⟨others, madeLater, rfl⟩ := Check.map_eq_ok_iff.mp made
        rw [List.map_cons, List.map_cons, ih madeLater]

theorem Fields.length_update {name : String} {change : Field → Except DefinitionError Field}
    {fields updated : Fields} (made : Fields.update name change fields = .ok updated) :
    updated.length = fields.length := by
  have same : updated.map (fun _ => ()) = fields.map (fun _ => ()) :=
    Fields.map_update (fun _ _ _ => rfl) made
  simpa using congrArg List.length same

theorem Structure.addUnique_eq {s changed : Structure} {unique : QName} {names : List String}
    {config : Config} (added : s.addUnique unique names config = .ok changed) :
    changed = { s with uniques := s.uniques ++ [⟨unique, names⟩] } := by
  unfold Structure.addUnique at added
  obtain ⟨_, added⟩ := Check.unless_eq_ok_iff.mp added
  obtain ⟨_, added⟩ := Check.unless_eq_ok_iff.mp added
  obtain ⟨_, added⟩ := Check.unless_eq_ok_iff.mp added
  obtain ⟨_, added⟩ := Check.unless_eq_ok_iff.mp added
  dsimp only at added
  split at added
  next => cases added
  next =>
    split at added
    next => cases added
    next =>
      cases added
      rfl

/-! ## What steps keep -/

/-- What a type keeps when an edit changes it. -/
structure TypeDef.Evolves (t changed : TypeDef) : Prop where
  name : changed.name = t.name
  kind : changed.kind = t.kind
  workspace : changed.workspace = t.workspace
  staysWorkspace : ∀ home, t.body = .workspace home → ∃ later, changed.body = .workspace later
  fits : t.body.Fits t.kind → changed.body.Fits changed.kind

/-- What a table of types keeps, and what new types are like. -/
structure TypeTable.Grows (types after : TypeTable) : Prop where
  kept : ∀ {name : QName} {t : TypeDef}, types[name]? = some t →
    ∃ changed, after[name]? = some changed ∧ t.Evolves changed
  fresh : ∀ {name : QName} {t : TypeDef}, after[name]? = some t → types[name]? = none →
    name ≠ .any ∧ t.name = name ∧ t.body.Fits t.kind

namespace Draft

variable {draft after : Draft} {name ws : QName} {t changed : TypeDef}

theorem StructureStep.fields_ne_nil {kind : TypeKind} {s s' : Structure}
    (step : StructureStep draft name kind s s') (nonempty : s.fields ≠ []) : s'.fields ≠ [] := by
  cases step with
  | pushField _ added =>
      rw [Structure.addField_eq added]
      exact List.append_ne_nil_of_left_ne_nil nonempty _
  | updateField _ updated =>
      have length := Fields.length_update updated
      dsimp only
      rw [← List.length_pos_iff] at nonempty ⊢
      rw [length]
      exact nonempty
  | addContainer _ added =>
      rw [Structure.addContainer_eq added]
      exact nonempty
  | commentContainer _ => exact nonempty
  | setSingleton _ => exact nonempty

theorem evolves_of_body {body : Body} (notWorkspace : ∀ home, t.body ≠ .workspace home)
    (fits : t.body.Fits t.kind → body.Fits t.kind) : t.Evolves { t with body := body } :=
  ⟨rfl, rfl, rfl, fun home isWorkspace => absurd isWorkspace (notWorkspace home), fits⟩

theorem evolves_of_workspace {home : Workspace} (isWorkspace : t.body = .workspace home)
    (later : Workspace) : t.Evolves { t with body := .workspace later } :=
  ⟨rfl, rfl, rfl, fun _ _ => ⟨later, rfl⟩, fun fits => by rw [isWorkspace] at fits; exact fits⟩

theorem TypeStep.evolves (step : TypeStep draft name t changed) : t.Evolves changed := by
  cases step with
  | comment _ | setAbstract | tag _ _ =>
      exact ⟨rfl, rfl, rfl, fun home isWorkspace => ⟨home, isWorkspace⟩, id⟩
  | structured body step =>
      refine evolves_of_body (by simp [body]) fun fits => ?_
      rw [body] at fits
      exact ⟨fits.1, step.fields_ne_nil fits.2⟩
  | view body _ added =>
      refine evolves_of_body (by simp [body]) fun fits => ?_
      rw [body] at fits
      refine ⟨fits.1, ?_⟩
      rw [View.fields_addField added]
      exact List.append_ne_nil_of_left_ne_nil fits.2 _
  | function _ body | projector _ body | job _ body =>
      refine evolves_of_body (by simp [body]) fun fits => ?_
      rw [body] at fits
      exact fits

end Draft

namespace TypeTable.Grows

variable {types middle after : TypeTable}

theorem refl : Grows types types where
  kept found := ⟨_, found, rfl, rfl, rfl, fun home isWorkspace => ⟨home, isWorkspace⟩, id⟩
  fresh found free := by
    rw [found] at free
    cases free

theorem trans (first : Grows types middle) (second : Grows middle after) : Grows types after where
  kept found := by
    obtain ⟨t₁, found₁, evolves₁⟩ := first.kept found
    obtain ⟨t₂, found₂, evolves₂⟩ := second.kept found₁
    refine ⟨t₂, found₂, evolves₂.name.trans evolves₁.name, evolves₂.kind.trans evolves₁.kind,
      evolves₂.workspace.trans evolves₁.workspace, fun home isWorkspace => ?_,
      fun fits => evolves₂.fits (evolves₁.fits fits)⟩
    obtain ⟨later, isWorkspace₁⟩ := evolves₁.staysWorkspace home isWorkspace
    exact evolves₂.staysWorkspace later isWorkspace₁
  fresh {name t} found free := by
    cases between : middle[name]? with
    | none => exact second.fresh found between
    | some t₁ =>
        obtain ⟨apart, named, fits⟩ := first.fresh between free
        obtain ⟨t₂, found₂, evolves⟩ := second.kept between
        rw [found] at found₂
        cases found₂
        exact ⟨apart, evolves.name.trans named, evolves.fits fits⟩

end TypeTable.Grows

namespace Draft

variable {draft after : Draft} {name ws : QName} {t changed : TypeDef}

theorem grows_of_evolves (found : draft.types[name]? = some t) (evolves : t.Evolves changed) :
    draft.types.Grows (draft.withType name changed).types where
  kept {other u} foundOther := by
    rw [withType_getElem?]
    by_cases same : name = other
    · subst same
      rw [found] at foundOther
      cases foundOther
      rw [if_pos rfl]
      exact ⟨changed, rfl, evolves⟩
    · rw [if_neg same]
      exact TypeTable.Grows.refl.kept foundOther
  fresh {other u} foundOther free := by
    rw [withType_getElem?] at foundOther
    by_cases same : name = other
    · rw [← same, found] at free
      cases free
    · rw [if_neg same, free] at foundOther
      cases foundOther

theorem getElem?_eq_none_of_isBound (free : draft.isBound name = false) :
    name ≠ .any ∧ draft.types[name]? = none := by
  unfold isBound at free
  simp only [Bool.or_eq_false_iff, beq_eq_false_iff_ne] at free
  exact ⟨free.1.1, Std.ExtTreeMap.getElem?_eq_none_of_contains_eq_false free.1.2⟩

theorem grows_of_free (free : draft.isBound name = false) (named : t.name = name)
    (fits : t.body.Fits t.kind) : draft.types.Grows (draft.withType name t).types where
  kept {other u} foundOther := by
    obtain ⟨_, none⟩ := getElem?_eq_none_of_isBound free
    have apart : name ≠ other := by
      intro same
      subst same
      rw [foundOther] at none
      cases none
    rw [withType_getElem?_of_ne apart]
    exact TypeTable.Grows.refl.kept foundOther
  fresh {other u} foundOther freeOther := by
    rw [withType_getElem?] at foundOther
    by_cases same : name = other
    · rw [if_pos same] at foundOther
      cases foundOther
      exact ⟨same ▸ (getElem?_eq_none_of_isBound free).1, named.trans same, fits⟩
    · rw [if_neg same, freeOther] at foundOther
      cases foundOther

theorem fits_of_newBody {kind : TypeKind} {body : Body} (new : Build.NewBody kind body) :
    body.Fits kind := by
  cases new with
  | structured isStructure =>
      refine ⟨isStructure, ?_⟩
      revert isStructure
      cases kind <;> decide
  | view => exact ⟨rfl, by decide⟩
  | function runs => exact runs
  | projector | job | role | data _ | tag _ | rate _ | limit _ => rfl

theorem WorkspaceStep.grows (step : WorkspaceStep ws draft after) :
    draft.types.Grows after.types := by
  cases step with
  | @declare name _ _ _ owner home _ free made found isWorkspace =>
      have listed := evolves_of_workspace isWorkspace (home.addLocal name)
      refine (grows_of_evolves found listed).trans ?_
      have stillFree := isBound_withType found { owner with
        body := .workspace (home.addLocal name) } name
      exact grows_of_free (stillFree.trans free) rfl
        (fits_of_newBody (Build.newBody_of_bodyOf made))
  | amend found _ _ step => exact grows_of_evolves found step.evolves
  | addUnique found _ _ structured _ _ added =>
      refine grows_of_evolves found (evolves_of_body (by simp [structured]) fun fits => ?_)
      rw [structured] at fits
      rw [Structure.addUnique_eq added]
      exact fits
  | setAncestors found isWorkspace _ _ | useWorkspaces found isWorkspace _ =>
      exact grows_of_evolves found (evolves_of_workspace isWorkspace _)
  | setDescriptor found isWorkspace _ _ =>
      refine grows_of_evolves found ⟨rfl, rfl, rfl, fun _ _ => ⟨_, rfl⟩, fun fits => ?_⟩
      rw [isWorkspace] at fits
      exact fits
  | setAbstract found | comment _ found =>
      exact grows_of_evolves found
        ⟨rfl, rfl, rfl, fun home isWorkspace => ⟨home, isWorkspace⟩, id⟩
  | addRule _ _ _ _ _ _ => exact .refl

/-- Every step keeps the types that are there and adds types that are in order. -/
theorem Step.grows (step : Step draft after) : draft.types.Grows after.types := by
  cases step with
  | bindPackage _ => exact .refl
  | addWorkspace _ free => exact grows_of_free free rfl rfl
  | within _ step => exact step.grows
  | comment _ found =>
      exact grows_of_evolves found
        ⟨rfl, rfl, rfl, fun home isWorkspace => ⟨home, isWorkspace⟩, id⟩

/-- What a workspace finds under a name is a type of the draft, unless it is the wildcard. -/
theorem getElem?_of_visible (visible : draft.types.visible? ws name = some t)
    (real : t.kind ≠ .any) : draft.types[name]? = some t := by
  unfold TypeTable.visible? at visible
  split at visible
  next =>
    cases visible
    exact absurd rfl real
  next =>
    split at visible
    next => exact visible
    next => cases visible

/-- A step keeps the rules and appends at most one, which knows its place, was checked and is about
a role. -/
theorem Step.rules (step : Step draft after) :
    after.rules = draft.rules ∨ ∃ rule, after.rules = draft.rules ++ [rule] ∧
      rule.position = draft.rules.length ∧
      Rule.checkShape rule.policy rule.operations rule.fields = .ok () ∧
      (∃ home, draft.findWorkspace rule.workspace = .ok home) ∧
      ∃ role, draft.types[rule.principal]? = some role ∧ role.kind = .role := by
  cases step with
  | bindPackage _ | addWorkspace _ _ | comment _ _ => exact .inl rfl
  | within _ step =>
      cases step with
      | addRule comment opened shaped visible isRole _ =>
          have known := getElem?_of_visible visible (by simp [isRole])
          exact .inr ⟨_, rfl, rfl, shaped, ⟨_, opened⟩, _, known, isRole⟩
      | _ => exact .inl rfl

/-! ## Well-formedness -/

/-- What queries rely on. -/
structure WellFormed (draft : Draft) : Prop where
  named : ∀ {name : QName} {t : TypeDef}, draft.types[name]? = some t → t.name = name
  fits : ∀ {name : QName} {t : TypeDef}, draft.types[name]? = some t → t.body.Fits t.kind
  wildcardFree : draft.types[QName.any]? = none
  shaped : ∀ rule ∈ draft.rules,
    Rule.checkShape rule.policy rule.operations rule.fields = .ok ()
  declared : ∀ rule ∈ draft.rules, ∃ home, draft.findWorkspace rule.workspace = .ok home

theorem findWorkspace_of_grows (grows : draft.types.Grows after.types) {home : Workspace}
    (opened : draft.findWorkspace ws = .ok home) :
    ∃ later, after.findWorkspace ws = .ok later := by
  obtain ⟨owner, found, isWorkspace⟩ := findWorkspace_eq_ok_iff.mp opened
  obtain ⟨changed, foundAfter, evolves⟩ := grows.kept found
  obtain ⟨later, isWorkspaceAfter⟩ := evolves.staysWorkspace home isWorkspace
  exact ⟨later, findWorkspace_eq_ok_iff.mpr ⟨changed, foundAfter, isWorkspaceAfter⟩⟩

theorem initial_getElem?_iff {config : Config} :
    (initial config).types[name]? = some t ↔
      (name, t) ∈ (root :: DataKind.inhabitedKinds.map sysData).map fun t => (t.name, t) :=
  getElem?_ofList_eq_some_iff (by decide +kernel)

theorem wellFormed_initial (config : Config) : WellFormed (initial config) where
  named found := by
    obtain ⟨_, _, same⟩ := List.mem_map.mp (initial_getElem?_iff.mp found)
    cases same
    rfl
  fits found := by
    obtain ⟨t, listed, same⟩ := List.mem_map.mp (initial_getElem?_iff.mp found)
    cases same
    rcases List.mem_cons.mp listed with rfl | isData
    · rfl
    · obtain ⟨kind, _, rfl⟩ := List.mem_map.mp isData
      rfl
  wildcardFree := by
    refine Option.eq_none_iff_forall_ne_some.mpr fun t found => ?_
    have listed := List.mem_map_of_mem (f := Prod.fst) (initial_getElem?_iff.mp found)
    dsimp only at listed
    revert listed
    decide +kernel
  shaped _ listed := by cases listed
  declared _ listed := by cases listed

theorem WellFormed.step (before : WellFormed draft) (step : Step draft after) :
    WellFormed after := by
  have grows := step.grows
  have former : ∀ {name : QName} {t : TypeDef}, after.types[name]? = some t →
      (name ≠ .any ∧ t.name = name ∧ t.body.Fits t.kind) := by
    intro name t found
    cases foundBefore : draft.types[name]? with
    | none => exact grows.fresh found foundBefore
    | some u =>
        obtain ⟨changed, foundAfter, evolves⟩ := grows.kept foundBefore
        rw [found] at foundAfter
        cases foundAfter
        refine ⟨?_, evolves.name.trans (before.named foundBefore),
          evolves.fits (before.fits foundBefore)⟩
        intro same
        subst same
        rw [before.wildcardFree] at foundBefore
        cases foundBefore
  have checked : ∀ rule ∈ after.rules,
      Rule.checkShape rule.policy rule.operations rule.fields = .ok () ∧
        ∃ home, draft.findWorkspace rule.workspace = .ok home := by
    intro rule listed
    rcases step.rules with same | ⟨added, same, _, shaped, declared, _⟩
    · rw [same] at listed
      exact ⟨before.shaped rule listed, before.declared rule listed⟩
    · rw [same] at listed
      rcases List.mem_append.mp listed with old | new
      · exact ⟨before.shaped rule old, before.declared rule old⟩
      · cases List.mem_singleton.mp new
        exact ⟨shaped, declared⟩
  exact {
    named := fun found => (former found).2.1
    fits := fun found => (former found).2.2
    wildcardFree := Option.eq_none_iff_forall_ne_some.mpr fun _ found => (former found).1 rfl
    shaped := fun rule listed => (checked rule listed).1
    declared := fun rule listed =>
      have ⟨_, opened⟩ := (checked rule listed).2
      findWorkspace_of_grows grows opened }

theorem Reachable.wellFormed (reached : Reachable draft) : WellFormed draft :=
  reached.invariant wellFormed_initial fun _ _ before step => before.step step

/-- Every rule is about a role. -/
def PrincipalsKnown (draft : Draft) : Prop :=
  ∀ rule ∈ draft.rules, ∃ role, draft.types[rule.principal]? = some role ∧ role.kind = .role

theorem PrincipalsKnown.step (before : PrincipalsKnown draft) (step : Step draft after) :
    PrincipalsKnown after := by
  intro rule listed
  have known : ∃ role, draft.types[rule.principal]? = some role ∧ role.kind = .role := by
    rcases step.rules with same | ⟨added, same, _, _, _, known⟩
    · rw [same] at listed
      exact before rule listed
    · rw [same] at listed
      rcases List.mem_append.mp listed with old | new
      · exact before rule old
      · cases List.mem_singleton.mp new
        exact known
  -- Types stay and keep their kinds, so what was a role once is a role for good.
  obtain ⟨role, found, isRole⟩ := known
  obtain ⟨changed, foundAfter, evolves⟩ := step.grows.kept found
  exact ⟨changed, foundAfter, evolves.kind.trans isRole⟩

theorem Reachable.principalsKnown (reached : Reachable draft) : PrincipalsKnown draft :=
  reached.invariant (fun _ _ listed => absurd listed List.not_mem_nil)
    fun _ _ before step => before.step step

end Draft

end TypeCatalog
