import TypeCatalog.Proofs.Draft.WellFormed

/-!
# Containers and uniques of structures

Containers are found by their names within a structure, and uniques by their names within the whole
draft.  `Draft.MemberStep` says what a step makes of the structures and of the names of uniques.

* `Draft.Step.members`: a step leaves the structures alone, or adds an empty one, or changes one.
* `Draft.Reachable.members`: the containers of a structure have different names, and the name of a
  unique is bound to the one structure that declares it.
-/

namespace TypeCatalog

theorem TypeDef.structure?_eq_some_iff {t : TypeDef} {s : Structure} :
    t.structure? = some s ↔ t.body = .structured s := by
  unfold structure?
  cases t.body <;> simp

/-- The structure with the given name. -/
def TypeTable.structure? (types : TypeTable) (name : QName) : Option Structure :=
  (types[name]?).bind TypeDef.structure?

namespace Structure

/-- The structure has a unique of the given name. -/
def Declares (s : Structure) (unique : QName) : Prop := unique ∈ s.uniques.map Unique.name

/-- No two containers have the same name. -/
def ContainersDiffer (s : Structure) : Prop := (s.containers.map Container.name).Nodup

variable {s changed : Structure} {kind : TypeKind} {name : QName}

theorem not_declares_ofKind : ¬ (ofKind kind).Declares name := List.not_mem_nil

theorem containersDiffer_ofKind : (ofKind kind).ContainersDiffer := List.nodup_nil

theorem declares_addUnique_iff {unique : QName} {fields : List String} {config : Config}
    (added : s.addUnique unique fields config = .ok changed) :
    changed.Declares name ↔ s.Declares name ∨ name = unique := by
  rw [addUnique_eq added]
  unfold Declares
  rw [List.map_append, List.mem_append, List.map_singleton, List.mem_singleton]

/-- A new container is accepted only under a name that no other container has. -/
theorem ContainersDiffer.addContainer (differ : s.ContainersDiffer) {container : Container}
    {child : Option TypeKind} {config : Config}
    (added : s.addContainer container kind child config = .ok changed) :
    changed.ContainersDiffer := by
  obtain ⟨_, fresh, _, _, _, rfl⟩ := addContainer_eq_ok_iff.mp added
  unfold ContainersDiffer
  rw [List.map_append, List.map_singleton, List.nodup_append]
  refine ⟨differ, by simp, fun other listed last isLast => ?_⟩
  rw [List.mem_singleton.mp isLast]
  exact fun taken => fresh (taken ▸ listed)

/-- Whatever the comment of a container does not show in is the same all along the list. -/
theorem map_setContainerComment {β : Type} {read : Container → β} {container : String}
    {comment : Comment} {containers updated : List Container}
    (keeps : ∀ c : Container, read { c with comment := comment } = read c)
    (made : setContainerComment container comment containers = .ok updated) :
    updated.map read = containers.map read := by
  induction containers generalizing updated with
  | nil => cases made
  | cons first rest ih =>
      unfold setContainerComment at made
      split at made
      next =>
        cases made
        rw [List.map_cons, List.map_cons, keeps]
      next =>
        obtain ⟨later, updatedLater, rfl⟩ := Check.map_eq_ok_iff.mp made
        rw [List.map_cons, List.map_cons, ih updatedLater]

theorem map_name_setContainerComment {container : String} {comment : Comment}
    {containers updated : List Container}
    (made : setContainerComment container comment containers = .ok updated) :
    updated.map Container.name = containers.map Container.name :=
  map_setContainerComment (fun _ => rfl) made

end Structure

namespace Draft

variable {draft after : Draft} {name ws : QName} {t : TypeDef} {s changed : Structure}
  {kind : TypeKind}

/-! ## What steps make of structures -/

/-- Uniques are left to `WorkspaceStep.addUnique`. -/
theorem StructureStep.uniques_eq (step : StructureStep draft name kind s changed) :
    changed.uniques = s.uniques := by
  cases step with
  | pushField _ added => rw [Structure.addField_eq added]
  | addContainer _ added => rw [Structure.addContainer_eq added]
  | updateField _ _ | commentContainer _ | setSingleton _ => rfl

theorem StructureStep.containersDiffer (step : StructureStep draft name kind s changed)
    (differ : s.ContainersDiffer) : changed.ContainersDiffer := by
  cases step with
  | pushField _ added =>
      rw [Structure.addField_eq added]
      exact differ
  | addContainer _ added => exact differ.addContainer added
  | commentContainer updated =>
      unfold Structure.ContainersDiffer
      rw [Structure.map_name_setContainerComment updated]
      exact differ
  | updateField _ _ | setSingleton _ => exact differ

/-- What a step may make of the structures and of the names of uniques. -/
inductive MemberStep (draft after : Draft) : Prop
  | kept : after.types.structure? = draft.types.structure? → after.uniques = draft.uniques →
    MemberStep draft after
  | created {name : QName} (kind : TypeKind) : draft.types.structure? name = none →
    after.types.structure? = Function.update draft.types.structure? name (some (.ofKind kind)) →
    after.uniques = draft.uniques → MemberStep draft after
  | amended {name : QName} {kind : TypeKind} {s changed : Structure} :
    draft.types.structure? name = some s → StructureStep draft name kind s changed →
    after.types.structure? = Function.update draft.types.structure? name (some changed) →
    after.uniques = draft.uniques → MemberStep draft after
  | bound {name unique : QName} {s changed : Structure} {fields : List String} :
    draft.types.structure? name = some s → draft.uniques[unique]? = none →
    s.addUnique unique fields draft.config = .ok changed →
    after.types.structure? = Function.update draft.types.structure? name (some changed) →
    after.uniques = draft.uniques.insert unique name → MemberStep draft after

theorem structure?_withType (draft : Draft) (name : QName) (t : TypeDef) :
    (draft.withType name t).types.structure? =
      Function.update draft.types.structure? name t.structure? :=
  read_withType (·.bind TypeDef.structure?) draft name t

theorem structure?_withType_of_same {changed : TypeDef} (found : draft.types[name]? = some t)
    (same : changed.structure? = t.structure?) :
    (draft.withType name changed).types.structure? = draft.types.structure? :=
  read_withType_of_same (·.bind TypeDef.structure?) found same

theorem structure?_eq_some_of_body (found : draft.types[name]? = some t)
    (isStructure : t.body = .structured s) : draft.types.structure? name = some s :=
  Option.bind_eq_some_iff.mpr ⟨t, found, TypeDef.structure?_eq_some_iff.mpr isStructure⟩

theorem structure?_eq_none_of_isBound (free : draft.isBound name = false) :
    draft.types.structure? name = none := by
  unfold TypeTable.structure?
  rw [(getElem?_eq_none_of_isBound free).2, Option.bind_none]

theorem uniques_eq_none_of_isBound (free : draft.isBound name = false) :
    draft.uniques[name]? = none := by
  unfold isBound at free
  exact Std.ExtTreeMap.getElem?_eq_none_of_contains_eq_false (Bool.or_eq_false_iff.mp free).2

theorem MemberStep.of_kept {changed : TypeDef} (found : draft.types[name]? = some t)
    (same : changed.structure? = t.structure?) :
    MemberStep draft (draft.withType name changed) :=
  .kept (structure?_withType_of_same found same) rfl

/-- Amending the body of any other type makes no structure of it. -/
theorem TypeStep.members {changed : TypeDef} (found : draft.types[name]? = some t)
    (step : TypeStep draft name t changed) : MemberStep draft (draft.withType name changed) := by
  cases step with
  | comment _ | setAbstract | tag _ _ => exact .of_kept found rfl
  | structured isStructure step =>
      exact .amended (structure?_eq_some_of_body found isStructure) step
        (structure?_withType ..) rfl
  | view body _ _ | function _ body | projector _ body | job _ body =>
      refine .of_kept found ?_
      unfold TypeDef.structure?
      rw [body]

theorem WorkspaceStep.members (step : WorkspaceStep ws draft after) : MemberStep draft after := by
  cases step with
  | @declare name declaration kind body owner home _ free made found isWorkspace =>
      have fresh := structure?_eq_none_of_isBound free
      have listed : (draft.withType ws { owner with
          body := .workspace (home.addLocal name) }).types.structure? = draft.types.structure? := by
        refine structure?_withType_of_same found ?_
        unfold TypeDef.structure?
        rw [isWorkspace]
      cases body with
      | structured s =>
          -- A new structure has no containers and no uniques.
          cases Build.newBody_of_bodyOf made
          refine .created kind fresh ?_ rfl
          rw [structure?_withType, listed]
          rfl
      | _ =>
          refine .kept ?_ rfl
          rw [structure?_withType, listed]
          exact Function.update_eq_self_iff.mpr fresh.symm
  | amend found _ _ step => exact step.members found
  | addUnique found _ _ isStructure _ free added =>
      exact .bound (structure?_eq_some_of_body found isStructure)
        (uniques_eq_none_of_isBound free) added (structure?_withType ..) rfl
  | setAncestors found isWorkspace _ _ | useWorkspaces found isWorkspace _
  | setDescriptor found isWorkspace _ _ =>
      refine .of_kept found ?_
      unfold TypeDef.structure?
      rw [isWorkspace]
  | setAbstract found | comment _ found => exact .of_kept found rfl
  | addRule _ _ _ _ _ _ => exact .kept rfl rfl

/-- Every step leaves the structures alone, or adds an empty one, or changes one. -/
theorem Step.members (step : Step draft after) : MemberStep draft after := by
  cases step with
  | bindPackage _ => exact .kept rfl rfl
  | addWorkspace _ free =>
      refine .kept ?_ rfl
      rw [structure?_withType]
      exact Function.update_eq_self_iff.mpr (structure?_eq_none_of_isBound free).symm
  | within _ step => exact step.members
  | comment _ found => exact .of_kept found rfl

/-! ## Names of containers and uniques -/

/-- Containers are told apart by their names, and a unique belongs to the structure that its name
is bound to. -/
structure Members (draft : Draft) : Prop where
  containers : ∀ {name : QName} {s : Structure}, draft.types.structure? name = some s →
    s.ContainersDiffer
  uniques : ∀ {unique owner : QName}, draft.uniques[unique]? = some owner ↔
    ∃ s, draft.types.structure? owner = some s ∧ s.Declares unique

theorem structure?_initial {config : Config} : (initial config).types.structure? name = none := by
  refine Option.eq_none_iff_forall_ne_some.mpr fun s isStructure => ?_
  obtain ⟨t, found, body⟩ := Option.bind_eq_some_iff.mp isStructure
  obtain ⟨u, listed, same⟩ := List.mem_map.mp (initial_getElem?_iff.mp found)
  cases same
  rcases List.mem_cons.mp listed with rfl | isData
  · cases body
  · obtain ⟨kind, _, rfl⟩ := List.mem_map.mp isData
    cases body

theorem members_initial (config : Config) : Members (initial config) where
  containers isStructure := by
    rw [structure?_initial] at isStructure
    cases isStructure
  uniques {unique owner} := by
    rw [structure?_initial]
    change (∅ : NameMap QName)[unique]? = some owner ↔ _
    simp

/-- The containers still differ when one structure is put where none or another one was. -/
theorem Members.containers_of_update {types : TypeTable} (members : Members draft)
    (becomes : types.structure? = Function.update draft.types.structure? name (some changed))
    (differ : changed.ContainersDiffer) {other : QName}
    (isStructure : types.structure? other = some s) :
    s.ContainersDiffer := by
  rw [becomes, Function.update_apply] at isStructure
  split at isStructure
  next =>
    cases isStructure
    exact differ
  next => exact members.containers isStructure

/-- What is declared after one structure is put where none or another one was. -/
theorem exists_declares_of_update {types : TypeTable} {other unique : QName}
    (becomes : types.structure? = Function.update draft.types.structure? name (some changed)) :
    (∃ s, types.structure? other = some s ∧ s.Declares unique) ↔
      if other = name then changed.Declares unique
      else ∃ s, draft.types.structure? other = some s ∧ s.Declares unique := by
  rw [becomes]
  by_cases same : other = name
  · subst same
    rw [Function.update_self, if_pos rfl]
    simp
  · rw [Function.update_of_ne same, if_neg same]

theorem MemberStep.members (step : MemberStep draft after) (members : Members draft) :
    Members after := by
  cases step with
  | kept structures uniques =>
      refine ⟨fun {name s} isStructure => ?_, fun {unique owner} => ?_⟩
      · rw [structures] at isStructure
        exact members.containers isStructure
      · rw [structures, uniques]
        exact members.uniques
  | @created name kind fresh structures uniques =>
      refine ⟨fun {other s} isStructure => members.containers_of_update structures
        Structure.containersDiffer_ofKind isStructure, fun {unique owner} => ?_⟩
      rw [exists_declares_of_update structures, uniques, members.uniques]
      split
      next same => simp [same, fresh, Structure.not_declares_ofKind]
      next => rfl
  | @amended name kind s changed isStructure step structures uniques =>
      refine ⟨fun {other s} isOther => members.containers_of_update structures
        (step.containersDiffer (members.containers isStructure)) isOther, fun {unique owner} => ?_⟩
      rw [exists_declares_of_update structures, uniques, members.uniques]
      split
      next same =>
        unfold Structure.Declares
        rw [step.uniques_eq, same, isStructure]
        simp
      next => rfl
  | @bound name unique s changed fields isStructure fresh added structures uniques =>
      have differ : changed.ContainersDiffer := by
        have former : s.ContainersDiffer := members.containers isStructure
        rw [Structure.addUnique_eq added]
        exact former
      refine ⟨fun {other s} isOther => members.containers_of_update structures differ isOther,
        fun {other owner} => ?_⟩
      rw [exists_declares_of_update structures, uniques, getElem?_insert,
        Structure.declares_addUnique_iff added]
      by_cases isNew : unique = other
      · -- The name was not bound, so that no structure declared it before.
        subst isNew
        have undeclared : ∀ owner s, draft.types.structure? owner = some s →
            ¬ s.Declares unique := by
          intro owner s isOther declares
          rw [members.uniques.mpr ⟨s, isOther, declares⟩] at fresh
          cases fresh
        rw [if_pos rfl, Option.some_inj, eq_comm]
        split
        next same => simp [same]
        next apart =>
          refine iff_of_false apart fun holds => ?_
          obtain ⟨s, isOther, declares⟩ := holds
          exact undeclared owner s isOther declares
      · rw [if_neg isNew, members.uniques]
        split
        next same =>
          rw [same, isStructure]
          simp [Ne.symm isNew]
        next => rfl

theorem Reachable.members (reached : Reachable draft) : Members draft :=
  reached.invariant members_initial fun _ _ members step => step.members.members members

end Draft

end TypeCatalog
