import TypeCatalog.Proofs.Draft.Refusal
import TypeCatalog.Proofs.Draft.Validation
import TypeCatalog.Proofs.Workspace.Widening

/-!
# Containers and the types that they hold, in either order

Whether a structure may contain a type is checked when the container is added, if the type is
declared by then, and by validation otherwise.  The two checks ask for the same.

* `Structure.addContainer_of_known`: what else is asked of a container if the type is known.
* `Draft.Declared`, `Draft.Declared.withStructure`: what a declaration finds and leaves, which a
  change of a structure does not touch.
* `Draft.WellFormed.containerMisfit_mem_findings_iff`: what validation says of a container.
* `Draft.Reachable.container_before_or_after`: the container first and the declaration second, and
  the other way round.
-/

namespace TypeCatalog

open Draft

/-! ## The edits -/

/-- The edit that adds a container to a structure of a workspace. -/
def Edit.addContainer (ws owner : QName) (name : String) (target : QName) (min max : Occurs) :
    Edit :=
  .within ws (.amend owner (.addContainer name target min max))

/-- The edit declares a type with the given name: a workspace, or a type of a workspace. -/
inductive Edit.Declares (target : QName) : Edit → Prop
  | workspace : Declares target (.addWorkspace target)
  | within (ws : QName) (declaration : Declaration) :
    Declares target (.within ws (.declare target declaration))

/-! ## Containers for known types -/

/-- Once everything else has been checked, only the kind of the type is left. -/
theorem Structure.addContainer_of_known {s changed : Structure} {container : Container}
    {owner kind : TypeKind} {config : Config}
    (added : s.addContainer container owner none config = .ok changed) :
    s.addContainer container owner (some kind) config =
      if owner.mayContain kind = true then .ok changed
      else .error (.containerMisfit container.name owner ⟨kind, container.target⟩) := by
  unfold addContainer at added ⊢
  obtain ⟨_, valid, added⟩ := Check.bind_eq_ok_iff.mp added
  obtain ⟨fresh, added⟩ := Check.unless_eq_ok_iff.mp added
  obtain ⟨free, added⟩ := Check.unless_eq_ok_iff.mp added
  obtain ⟨room, added⟩ := Check.unless_eq_ok_iff.mp added
  cases added
  rw [valid]
  change (if _ then _ else _) = _
  rw [if_neg fresh, if_neg free, if_neg room]
  change (if (!owner.mayContain kind) = true then _ else _) = _
  cases owner.mayContain kind <;> rfl

/-! ## What the edits run -/

namespace Build

variable {draft : Draft}

/-- What is left of the addition of a type whose name is valid and free. -/
theorem addType_eq {new : TypeDef} (valid : new.name.check draft.config.maxIdentLen = .ok ())
    (free : draft.isBound new.name = false) :
    addType new draft = (match new.body with
      | .workspace ws => putType { new with body := .workspace (ws.addLocal new.name) }
      | _ => do
        updateWorkspace new.workspace fun ws => ws.addLocal new.name
        putType new) draft := by
  have crossed : ¬ draft.isBound new.name = true := by simp [free]
  unfold addType
  rw [run_get, run_check valid]
  exact congrFun (if_neg crossed) draft

/-- Once the bounds are accepted, what the structure says of the container decides. -/
theorem addContainer_run {owner target : QName} {t : TypeDef} {s : Structure} {name : String}
    {min max : Occurs} {made : Container} (found : draft.types[owner]? = some t)
    (body : t.body = .structured s) (bounded : Container.make name target min max = .ok made) :
    addContainer owner name target min max draft =
      match s.addContainer made t.kind ((draft.types[target]?).map TypeDef.kind) draft.config with
      | .ok changed => .ok () (draft.withType owner { t with body := .structured changed })
      | .error error => .error error draft := by
  unfold addContainer
  rw [run_get, run_check bounded]
  unfold updateStructure
  cases added : s.addContainer made t.kind ((draft.types[target]?).map TypeDef.kind)
      draft.config with
  | ok changed =>
      refine updateType_run found ?_
      rw [body]
      dsimp only
      rw [added]
      rfl
  | error error =>
      unfold updateType
      rw [run_get, found]
      dsimp only
      rw [body]
      dsimp only
      rw [added]
      rfl

end Build

/-! ## Changed structures -/

namespace Draft

variable {draft after : Draft} {owner ws target : QName} {t : TypeDef} {s : Structure}

theorem withType_comm {first second : QName} (apart : first ≠ second) (a b : TypeDef) :
    (draft.withType first a).withType second b = (draft.withType second b).withType first a := by
  have same : (draft.types.insert first a).insert second b =
      (draft.types.insert second b).insert first a := by
    refine Std.ExtTreeMap.ext_getElem? fun name => ?_
    simp only [getElem?_insert]
    by_cases isFirst : first = name
    · have notSecond : ¬ second = name := fun isSecond => apart (isFirst.trans isSecond.symm)
      simp only [if_pos isFirst, if_neg notSecond]
    · simp only [if_neg isFirst]
  unfold withType
  rw [same]

section Structures

variable (found : draft.types[owner]? = some t) (body : t.body = .structured s)
  (notData : t.kind ≠ .data) (changed : Structure)
include found body

theorem ne_of_workspace {host : TypeDef} {home : Workspace} (isHost : draft.types[ws]? = some host)
    (isWorkspace : host.body = .workspace home) : ws ≠ owner := by
  intro same
  rw [same, found] at isHost
  cases isHost
  rw [body] at isWorkspace
  cases isWorkspace

theorem sees_withStructure (name : QName) :
    (draft.withType owner { t with body := .structured changed }).types.sees ws name =
      draft.types.sees ws name := by
  have noWorkspace :
      TypeDef.workspace? { t with body := .structured changed } = t.workspace? := by
    unfold TypeDef.workspace?
    rw [body]
  have same := workspace?_withType_of_same found noWorkspace
  rw [Bool.eq_iff_iff, TypeTable.sees_iff_mem_visibleNames, TypeTable.sees_iff_mem_visibleNames]
  exact ⟨(TypeTable.Widens.of_eq same.symm).mem_visibleNames,
    (TypeTable.Widens.of_eq same).mem_visibleNames⟩

include notData

/-- Data types are found as before. -/
theorem findDataType_withStructure (name : QName) :
    (draft.withType owner { t with body := .structured changed }).findDataType ws name =
      draft.findDataType ws name := by
  unfold findDataType TypeTable.visible?
  rw [sees_withStructure found body]
  by_cases isAny : name = .any
  · rw [if_pos isAny, if_pos isAny]
  · rw [if_neg isAny, if_neg isAny]
    by_cases seen : draft.types.sees ws name = true
    · rw [if_pos seen, if_pos seen]
      by_cases same : owner = name
      · -- The structure itself is found both times, and is no data type either time.
        subst same
        rw [withType_getElem?_self, found]
        dsimp only
        rw [if_neg notData, if_neg notData]
        rfl
      · rw [withType_getElem?_of_ne same]
    · rw [if_neg seen, if_neg seen]

theorem bodyOf_withStructure (declaration : Declaration) :
    Build.bodyOf (draft.withType owner { t with body := .structured changed }) ws declaration =
      Build.bodyOf draft ws declaration := by
  cases declaration with
  | data kind ancestor constraints =>
      simp only [Build.bodyOf, Build.dataBody, findDataType_withStructure found body notData]
      rfl
  | _ => rfl

end Structures

/-! ## Declarations -/

/-- What the declaration of a type finds, and the draft that it leaves. -/
inductive Declared (target : QName) (draft : Draft) : Edit → Draft → Prop
  | workspace : target.check draft.config.maxIdentLen = .ok () → draft.isBound target = false →
    Declared target draft (.addWorkspace target) (draft.withType target
      { name := target, kind := .workspace, workspace := target
        body := .workspace (.addLocal {} target) })
  | within {ws : QName} {declaration : Declaration} {kind : TypeKind} {body : Body}
      {host : TypeDef} {home : Workspace} :
    target.check draft.config.maxIdentLen = .ok () → draft.isBound target = false →
    Build.bodyOf draft ws declaration = .ok (kind, body) →
    draft.types[ws]? = some host → host.body = .workspace home →
    Declared target draft (.within ws (.declare target declaration))
      ((draft.withType ws { host with body := .workspace (home.addLocal target) }).withType target
        { name := target, kind, workspace := ws, body })

theorem declared_of_apply {edit : Edit} (declares : edit.Declares target)
    (passed : (draft.apply edit).1 = .ok ()) : Declared target draft edit (draft.apply edit).2 := by
  refine of_apply_eq_ok ?_ passed
  cases declares with
  | workspace =>
      refine Build.yields_get ?_
      refine Build.yields_check fun _ valid => ?_
      refine Build.yields_unless fun free => ?_
      rw [Bool.not_eq_true] at free
      exact Build.yields_modify (.workspace valid free)
  | within ws declaration =>
      refine Build.yields_get ?_
      refine Build.yields_check fun _ _ => ?_
      exact Build.declare_yields fun _ _ _ _ valid free made found isWorkspace =>
        .within valid free made found isWorkspace

namespace Declared

variable {edit : Edit} (declared : Declared target draft edit after)
include declared

theorem run_eq : edit.run draft = .ok () after := by
  cases declared with
  | workspace valid free =>
      change Build.addType _ draft = _
      rw [Build.addType_eq valid free]
      rfl
  | @within ws declaration kind body host home valid free made found isWorkspace =>
      have opened := findWorkspace_eq_ok_iff.mpr ⟨host, found, isWorkspace⟩
      have listed := Build.updateWorkspace_run found isWorkspace fun home => home.addLocal target
      change (get >>= fun draft => liftM (draft.findWorkspace ws) >>= fun _ =>
        Build.declare ws target declaration) draft = _
      rw [Build.run_get, Build.run_check opened]
      unfold Build.declare
      rw [Build.run_get, Build.run_check made]
      dsimp only
      rw [Build.addType_eq valid free]
      cases body with
      -- Only this body would add the type to itself and not to the workspace.
      | workspace home => exact absurd made Build.bodyOf_ne_workspace
      | _ =>
          change EStateM.bind _ _ draft = _
          unfold EStateM.bind
          dsimp only
          rw [listed]
          rfl

theorem apply_eq : draft.apply edit = (.ok (), after) := by
  unfold apply
  rw [declared.run_eq]

theorem config_eq : after.config = draft.config := by
  cases declared <;> rfl

theorem free : draft.types[target]? = none ∧ target ≠ .any := by
  cases declared with
  | workspace _ free | within _ free _ _ _ =>
      exact (getElem?_eq_none_of_isBound free).symm

theorem ne_of_found (found : draft.types[owner]? = some t) : target ≠ owner := by
  intro same
  have free := declared.free.1
  rw [same, found] at free
  cases free

theorem exists_target : ∃ new, after.types[target]? = some new ∧ new.name = target := by
  cases declared with
  | workspace _ _ | within _ _ _ _ _ => exact ⟨_, withType_getElem?_self .., rfl⟩

section

variable (found : draft.types[owner]? = some t) (body : t.body = .structured s)
include found body

/-- A declaration leaves structures alone. -/
theorem getElem?_structure : after.types[owner]? = some t := by
  have apart := declared.ne_of_found found
  cases declared with
  | workspace _ _ => rw [withType_getElem?_of_ne apart, found]
  | @within ws _ _ _ host home _ _ _ isHost isWorkspace =>
      have other := ne_of_workspace found body isHost isWorkspace
      rw [withType_getElem?_of_ne apart, withType_getElem?_of_ne other, found]

/-- A declaration after a change of a structure finds what it found before, and leaves what it left,
with the structure changed. -/
theorem withStructure (notData : t.kind ≠ .data) (changed : Structure) :
    Declared target (draft.withType owner { t with body := .structured changed }) edit
      (after.withType owner { t with body := .structured changed }) := by
  have apart := declared.ne_of_found found
  cases declared with
  | workspace valid free =>
      rw [withType_comm apart]
      exact .workspace valid ((isBound_withType found _ target).trans free)
  | @within ws _ _ _ host home valid free made isHost isWorkspace =>
      have other := ne_of_workspace found body isHost isWorkspace
      rw [withType_comm apart, withType_comm other]
      refine .within valid ((isBound_withType found _ target).trans free) ?_ ?_ isWorkspace
      · rw [bodyOf_withStructure found body notData, made]
      · rw [withType_getElem?_of_ne (Ne.symm other), isHost]

end

end Declared

/-! ## Additions of containers -/

/-- The workspace is there and declares the structure. -/
structure HasStructure (draft : Draft) (ws owner : QName) (t : TypeDef) (s : Structure) :
    Prop where
  opened : ∃ home, draft.findWorkspace ws = .ok home
  found : draft.types[owner]? = some t
  declared : t.workspace = ws
  apart : owner ≠ ws
  body : t.body = .structured s

variable {name : String} {min max : Occurs} {made : Container}

/-- What the addition of a container finds, and the draft that it leaves. -/
inductive Contained (draft : Draft) (ws owner : QName) (name : String) (target : QName)
    (min max : Occurs) : Draft → Prop
  | intro {t : TypeDef} {s changed : Structure} {made : Container} :
    draft.HasStructure ws owner t s → Container.make name target min max = .ok made →
    s.addContainer made t.kind ((draft.types[target]?).map TypeDef.kind) draft.config =
      .ok changed →
    Contained draft ws owner name target min max
      (draft.withType owner { t with body := .structured changed })

theorem contained_of_apply
    (passed : (draft.apply (.addContainer ws owner name target min max)).1 = .ok ()) :
    draft.Contained ws owner name target min max
      (draft.apply (.addContainer ws owner name target min max)).2 := by
  refine of_apply_eq_ok ?_ passed
  refine Build.yields_get ?_
  refine Build.yields_check fun home opened => ?_
  refine Build.amend_yields fun t found declared apart => ?_
  exact Build.addContainer_yields found fun made s changed bounded body added =>
    .intro ⟨⟨home, opened⟩, found, declared, apart, body⟩ bounded added

theorem HasStructure.apply_addContainer (has : draft.HasStructure ws owner t s)
    (bounded : Container.make name target min max = .ok made) :
    draft.apply (.addContainer ws owner name target min max) =
      match s.addContainer made t.kind ((draft.types[target]?).map TypeDef.kind) draft.config with
      | .ok changed => (.ok (), draft.withType owner { t with body := .structured changed })
      | .error error => (.error error, draft) := by
  obtain ⟨home, opened⟩ := has.opened
  have amendable : Build.checkDeclaredIn draft ws owner = .ok () := by
    unfold Build.checkDeclaredIn
    rw [has.found]
    exact if_pos ⟨has.declared, has.apart⟩
  have run : (Edit.addContainer ws owner name target min max).run draft =
      Build.addContainer owner name target min max draft := by
    change (get >>= fun draft => liftM (draft.findWorkspace ws) >>= fun _ =>
      WorkspaceEdit.run ws (.amend owner (.addContainer name target min max))) draft = _
    rw [Build.run_get, Build.run_check opened]
    exact Build.run_check amendable
  unfold apply
  rw [run, Build.addContainer_run has.found has.body bounded]
  cases s.addContainer made t.kind ((draft.types[target]?).map TypeDef.kind) draft.config <;> rfl

theorem Declared.hasStructure {edit : Edit} (declared : Declared target draft edit after)
    (has : draft.HasStructure ws owner t s) : after.HasStructure ws owner t s := by
  have grows : draft.types.Grows (draft.apply edit).2.types := by
    rcases apply_eq_or_step draft edit with same | step
    · rw [same]
      exact .refl
    · exact step.grows
  rw [declared.apply_eq] at grows
  obtain ⟨home, opened⟩ := has.opened
  exact {
    opened := findWorkspace_of_grows grows opened
    found := declared.getElem?_structure has.found has.body
    declared := has.declared
    apart := has.apart
    body := has.body }

/-! ## What validation says of a container -/

/-- In a structure without other containers of the name, a container is reported if and only if
types of the kind may not contain what it is for. -/
theorem WellFormed.containerMisfit_mem_findings_iff (wellFormed : draft.WellFormed)
    (found : draft.types[owner]? = some t) (body : t.body = .structured s)
    (listed : made ∈ s.containers) (unique : ∀ c ∈ s.containers, c.name = made.name → c = made)
    {new : TypeDef} (known : draft.types[made.target]? = some new) {kind : TypeKind}
    {ref : TypeRef} :
    ⟨owner, .containerMisfit made.name kind ref⟩ ∈ draft.findings ↔
      t.kind.mayContain new.kind ≠ true ∧ kind = t.kind ∧ ref = new.ref := by
  have real : made.target ≠ .any := by
    intro isAny
    rw [isAny, wellFormed.wildcardFree] at known
    cases known
  have resolved : draft.types.resolve? made.target = some new := by
    unfold TypeTable.resolve?
    rw [if_neg real, known]
  rw [wellFormed.mem_findings_iff]
  constructor
  · intro violates
    generalize isMisfit : Violation.containerMisfit made.name kind ref = violation at violates
    cases violates with
    | type isOwner violates =>
        rw [found] at isOwner
        cases isOwner
        cases violates with
        | field _ _ violates => cases violates <;> cases isMisfit
        | body violates =>
            cases violates with
            | container isBody among violates =>
                rw [body] at isBody
                cases isBody
                cases violates with
                | notFound _ => cases isMisfit
                | misfit isTarget misfit =>
                    obtain ⟨sameName, sameKind, sameRef⟩ := Violation.containerMisfit.inj isMisfit
                    rw [unique _ among sameName.symm, resolved] at isTarget
                    cases isTarget
                    exact ⟨misfit, sameKind, sameRef⟩
            | data _ violates | view _ violates | slot _ violates | functionStorages _ violates
            | event _ _ violates | projectorStorages _ violates | jobStates _ violates
            | descriptor _ violates | limit _ violates => cases violates <;> cases isMisfit
            | noEvents _ _ | schedule _ _ | jobIntents _ _ => cases isMisfit
    | rule _ violates => cases violates <;> cases isMisfit
  · intro misfit
    obtain ⟨misfit, rfl, rfl⟩ := misfit
    exact .type found (.body (.container body listed (.misfit resolved misfit)))

/-! ## Either order -/

section

variable {declaration : Edit} {changed : Structure} {new : TypeDef}
  (declared : Declared target draft declaration after) (has : draft.HasStructure ws owner t s)
include declared has

/-- What the declaration comes to does not depend on the structure. -/
theorem Declared.apply_after (reached : Reachable draft) (changed : Structure) :
    (draft.withType owner { t with body := .structured changed }).apply declaration =
      (.ok (), after.withType owner { t with body := .structured changed }) := by
  have notData : t.kind ≠ .data := by
    intro isData
    have fits := reached.wellFormed.fits has.found
    rw [has.body, isData] at fits
    exact absurd fits.1 (by decide)
  exact (declared.withStructure has.found has.body notData changed).apply_eq

variable (known : after.types[target]? = some new)
  (added : s.addContainer made t.kind none draft.config = .ok changed)
include known added

/-- After the declaration the container is for a type that is known, and its kind decides. -/
theorem Declared.apply_addContainer (named : new.name = target)
    (bounded : Container.make name target min max = .ok made) :
    after.apply (.addContainer ws owner name target min max) =
      if t.kind.mayContain new.kind = true
      then (.ok (), after.withType owner { t with body := .structured changed })
      else (.error (.containerMisfit name t.kind new.ref), after) := by
  obtain ⟨_, _, rfl⟩ := Container.make_eq_ok_iff.mp bounded
  rw [(declared.hasStructure has).apply_addContainer bounded, known, declared.config_eq,
    Option.map_some, Structure.addContainer_of_known added]
  unfold TypeDef.ref
  rw [named]
  cases t.kind.mayContain new.kind <;> rfl

/-- After both, the same kind decides about the finding. -/
theorem Declared.containerMisfit_mem_findings_iff (isTarget : made.target = target)
    (wellFormed : (after.withType owner { t with body := .structured changed }).WellFormed)
    (kind : TypeKind) (ref : TypeRef) :
    ⟨owner, .containerMisfit made.name kind ref⟩ ∈
        (after.withType owner { t with body := .structured changed }).findings ↔
      t.kind.mayContain new.kind ≠ true ∧ kind = t.kind ∧ ref = new.ref := by
  obtain ⟨_, fresh, _, _, _, rfl⟩ := Structure.addContainer_eq_ok_iff.mp added
  have listed : made ∈ s.containers ++ [made] := List.mem_concat_self
  have unique : ∀ c ∈ s.containers ++ [made], c.name = made.name → c = made := by
    intro c among same
    rcases List.mem_append.mp among with former | last
    · exact absurd (List.mem_map.mpr ⟨c, former, same⟩) fresh
    · exact List.mem_singleton.mp last
  refine wellFormed.containerMisfit_mem_findings_iff (withType_getElem?_self ..) rfl listed unique
    ?_
  rw [isTarget, withType_getElem?_of_ne (declared.ne_of_found has.found).symm, known]

end

/-- A structure takes a container for a type that is still to be declared, and the declaration is
accepted.  Then it is accepted after the container as well.  After the declaration the container is
refused if and only if validation reports it in the other order, for the same reason.  Otherwise
both orders lead to the same draft. -/
theorem Reachable.container_before_or_after (reached : Reachable draft) {declaration : Edit}
    (declares : declaration.Declares target)
    (takes : (draft.apply (.addContainer ws owner name target min max)).1 = .ok ())
    (accepted : (draft.apply declaration).1 = .ok ()) :
    let containerFirst :=
      (draft.apply (.addContainer ws owner name target min max)).2.apply declaration
    let declarationFirst :=
      (draft.apply declaration).2.apply (.addContainer ws owner name target min max)
    containerFirst.1 = .ok () ∧
    (∀ error, declarationFirst.1 = .error error ↔
      ∃ kind found, error = .containerMisfit name kind found ∧
        ⟨owner, .containerMisfit name kind found⟩ ∈ containerFirst.2.findings) ∧
    (∀ error, declarationFirst.1 = .error error →
      error.kind = .incompatible ∧
        ⟨.incompatible, owner, error.subject⟩ ∈ containerFirst.2.problems) ∧
    (declarationFirst.1 = .ok () → declarationFirst.2 = containerFirst.2) := by
  intro containerFirst declarationFirst
  have wellFormed : containerFirst.2.WellFormed :=
    (Reachable.apply declaration (.apply _ reached)).wellFormed
  obtain ⟨_, becomes, contained⟩ :
      ∃ after, (draft.apply (.addContainer ws owner name target min max)).2 = after ∧
        draft.Contained ws owner name target min max after := ⟨_, rfl, contained_of_apply takes⟩
  obtain ⟨after, isAfter, declared⟩ :
      ∃ after, (draft.apply declaration).2 = after ∧ Declared target draft declaration after :=
    ⟨_, rfl, declared_of_apply declares accepted⟩
  obtain ⟨new, known, named⟩ := declared.exists_target
  cases contained with
  | @intro t s changed made has bounded added =>
  rw [declared.free.1] at added
  have first : containerFirst =
      (.ok (), after.withType owner { t with body := .structured changed }) := by
    change (draft.apply _).2.apply declaration = _
    rw [becomes]
    exact declared.apply_after has reached changed
  have second : declarationFirst =
      if t.kind.mayContain new.kind = true
      then (.ok (), after.withType owner { t with body := .structured changed })
      else (.error (.containerMisfit name t.kind new.ref), after) := by
    change (draft.apply declaration).2.apply _ = _
    rw [isAfter]
    exact declared.apply_addContainer has known added named bounded
  obtain ⟨_, _, rfl⟩ := Container.make_eq_ok_iff.mp bounded
  rw [first] at wellFormed
  have refused_iff : ∀ error, declarationFirst.1 = .error error ↔
      ∃ kind found, error = .containerMisfit name kind found ∧
        ⟨owner, .containerMisfit name kind found⟩ ∈ containerFirst.2.findings := by
    intro error
    rw [first, second]
    simp only [declared.containerMisfit_mem_findings_iff has known added rfl wellFormed]
    constructor
    · intro refused
      split at refused
      next => cases refused
      next misfit =>
        cases refused
        exact ⟨_, _, rfl, misfit, rfl, rfl⟩
    · intro holds
      obtain ⟨_, _, rfl, misfit, rfl, rfl⟩ := holds
      rw [if_neg misfit]
  refine ⟨congrArg Prod.fst first, refused_iff, fun error refused => ?_, fun passed => ?_⟩
  · obtain ⟨kind, ref, rfl, listed⟩ := (refused_iff error).mp refused
    exact ⟨rfl, List.mem_map.mpr ⟨_, listed, rfl⟩⟩
  · rw [second] at passed ⊢
    rw [first]
    split at passed
    next fits => rw [if_pos fits]
    next => cases passed

end Draft

namespace Library

/-- Books come in volumes. -/
def volumes : Edit := .addContainer (name "base") (name "book") "volumes" (name "volume") ⟨0⟩ ⟨3⟩

/-- Volumes are records, as they should be. -/
def volumeRecord : Edit :=
  .within (name "base") (.declare (name "volume") (.structured .cRecord rfl))

/-- Volumes are workspaces, which books may not contain. -/
def volumeWorkspace : Edit := .addWorkspace (name "volume")

end Library

/-- Records may come before the container or after it.  Workspaces are refused or reported. -/
theorem Draft.Reachable.container_before_or_after_volume :
    ((Library.draft.apply Library.volumeRecord).2.apply Library.volumes).2 =
      ((Library.draft.apply Library.volumes).2.apply Library.volumeRecord).2 ∧
    ((Library.draft.apply Library.volumes).2.apply Library.volumeWorkspace).1 = .ok () ∧
    ∃ kind found,
      ((Library.draft.apply Library.volumeWorkspace).2.apply Library.volumes).1 =
        .error (.containerMisfit "volumes" kind found) ∧
      ⟨Library.name "book", .containerMisfit "volumes" kind found⟩ ∈
        ((Library.draft.apply Library.volumes).2.apply Library.volumeWorkspace).2.findings := by
  have reached : Library.draft.Reachable := (Draft.Reachable.initial {}).applyAll Library.edits
  have takes : (Library.draft.apply Library.volumes).1 = .ok () :=
    Check.isOk_iff.mp (by decide +kernel)
  have isRecord : (Library.draft.apply Library.volumeRecord).1 = .ok () :=
    Check.isOk_iff.mp (by decide +kernel)
  have isWorkspace : (Library.draft.apply Library.volumeWorkspace).1 = .ok () :=
    Check.isOk_iff.mp (by decide +kernel)
  have record := Draft.Reachable.container_before_or_after reached
    (.within (Library.name "base") (.structured .cRecord rfl)) takes isRecord
  have workspace := Draft.Reachable.container_before_or_after reached .workspace takes isWorkspace
  have refused :
      ((Library.draft.apply Library.volumeWorkspace).2.apply Library.volumes).1.isOk = false := by
    decide +kernel
  refine ⟨record.2.2.2 (Check.isOk_iff.mp (by decide +kernel)), workspace.1, ?_⟩
  cases answer : ((Library.draft.apply Library.volumeWorkspace).2.apply Library.volumes).1 with
  | ok _ =>
      rw [answer] at refused
      cases refused
  | error error =>
      obtain ⟨kind, found, rfl, listed⟩ := (workspace.2.1 error).mp answer
      exact ⟨kind, found, rfl, listed⟩

end TypeCatalog
