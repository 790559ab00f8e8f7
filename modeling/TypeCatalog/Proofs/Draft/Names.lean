import TypeCatalog.Proofs.Draft.Mirror
import TypeCatalog.Proofs.Workspace.Ownership

/-!
# The names of a draft

Types and uniques take their names from one name space, though a draft keeps them in two tables, and
it is written down twice which workspace a type belongs to.  Every edit keeps all of this in step.

* `Draft.NameStep`, `Draft.Step.names`: a step binds no name, or one that is free and in order.
* `Draft.NamesApart`: a name is bound once, to a type or to a unique, and is in order unless the
  initial draft has it.
* `Draft.Reachable.nameSpace`: together with the forms of bodies and the lists of workspaces, all
  that holds of names in every reachable draft.
-/

namespace TypeCatalog

namespace QName

/-- The absent name is not in order. -/
theorem ne_null_of_check {limit : Nat} {name : QName} (valid : name.check limit = .ok ()) :
    name ≠ .null := by
  intro isNull
  subst isNull
  cases valid

end QName

namespace Draft

variable {draft after : Draft} {name ws : QName} {t : TypeDef}

/-! ## Steps and names -/

theorem mem_types_iff : name ∈ draft.types ↔ ∃ t, draft.types[name]? = some t := by
  rw [Std.ExtTreeMap.mem_iff_isSome_getElem?, Option.isSome_iff_exists]

theorem mem_withType_iff {other : QName} :
    other ∈ (draft.withType name t).types ↔ other = name ∨ other ∈ draft.types :=
  mem_insert_iff

theorem mem_withType_iff_of_mem {changed : TypeDef} (found : draft.types[name]? = some t)
    {other : QName} : other ∈ (draft.withType name changed).types ↔ other ∈ draft.types := by
  rw [mem_withType_iff]
  refine or_iff_right_of_imp fun same => ?_
  rw [same]
  exact mem_types_iff.mpr ⟨t, found⟩

/-- What a step makes of the names that are bound. -/
inductive NameStep (draft after : Draft) : Prop
  | kept : (∀ {other}, other ∈ after.types ↔ other ∈ draft.types) →
    after.uniques = draft.uniques → NameStep draft after
  | typeNamed {name : QName} : name.check draft.config.maxIdentLen = .ok () →
    draft.isBound name = false →
    (∀ {other}, other ∈ after.types ↔ other = name ∨ other ∈ draft.types) →
    after.uniques = draft.uniques → NameStep draft after
  | uniqueNamed {name owner : QName} : name.check draft.config.maxIdentLen = .ok () →
    draft.isBound name = false → (∀ {other}, other ∈ after.types ↔ other ∈ draft.types) →
    after.uniques = draft.uniques.insert name owner → NameStep draft after

theorem WorkspaceStep.names (step : WorkspaceStep ws draft after) : NameStep draft after := by
  cases step with
  | declare valid free _ found _ =>
      refine .typeNamed valid free (fun {other} => ?_) rfl
      rw [mem_withType_iff, mem_withType_iff_of_mem found]
  | addUnique found _ _ _ valid free _ =>
      exact .uniqueNamed valid free (mem_withType_iff_of_mem found) rfl
  | amend found _ _ _ | setAncestors found _ _ _ | useWorkspaces found _ _
  | setDescriptor found _ _ _ | setAbstract found | comment _ found =>
      exact .kept (mem_withType_iff_of_mem found) rfl
  | addRule _ _ _ _ _ _ => exact .kept Iff.rfl rfl

/-- A step binds no name or one, which was free and is in order. -/
theorem Step.names (step : Step draft after) : NameStep draft after := by
  cases step with
  | bindPackage _ => exact .kept Iff.rfl rfl
  | addWorkspace valid free => exact .typeNamed valid free mem_withType_iff rfl
  | within _ step => exact step.names
  | comment _ found => exact .kept (mem_withType_iff_of_mem found) rfl

/-- The name of a new type was free. -/
theorem NameStep.free_of_type (step : NameStep draft after) (isType : name ∈ after.types)
    (new : name ∉ draft.types) :
    name.check draft.config.maxIdentLen = .ok () ∧ draft.isBound name = false := by
  cases step with
  | kept types _ | uniqueNamed _ _ types _ => exact absurd (types.mp isType) new
  | typeNamed valid free types _ =>
      rcases types.mp isType with rfl | wasType
      · exact ⟨valid, free⟩
      · exact absurd wasType new

/-- The name of a new unique was free. -/
theorem NameStep.free_of_unique (step : NameStep draft after) (isUnique : name ∈ after.uniques)
    (new : name ∉ draft.uniques) :
    name.check draft.config.maxIdentLen = .ok () ∧ draft.isBound name = false := by
  cases step with
  | kept _ uniques | typeNamed _ _ _ uniques =>
      rw [uniques] at isUnique
      exact absurd isUnique new
  | uniqueNamed valid free _ uniques =>
      rw [uniques] at isUnique
      rcases mem_insert_iff.mp isUnique with rfl | wasUnique
      · exact ⟨valid, free⟩
      · exact absurd wasUnique new

/-- No step binds a name to a type and to a unique at once. -/
theorem NameStep.bound_of_both (step : NameStep draft after) (isType : name ∈ after.types)
    (isUnique : name ∈ after.uniques) : name ∈ draft.types ∨ name ∈ draft.uniques := by
  cases step with
  | kept types _ | uniqueNamed _ _ types _ => exact .inl (types.mp isType)
  | typeNamed _ _ _ uniques =>
      rw [uniques] at isUnique
      exact .inr isUnique

/-! ## Names are bound once -/

theorem not_mem_of_isBound (free : draft.isBound name = false) :
    name ≠ .any ∧ name ∉ draft.types ∧ name ∉ draft.uniques := by
  unfold isBound at free
  rw [Bool.or_eq_false_iff, Bool.or_eq_false_iff, beq_eq_false_iff_ne] at free
  refine ⟨free.1.1, ?_, ?_⟩
  · rw [← Std.ExtTreeMap.contains_iff_mem, free.1.2]
    exact Bool.false_ne_true
  · rw [← Std.ExtTreeMap.contains_iff_mem, free.2]
    exact Bool.false_ne_true

/-- Types and uniques have different names.  Those that were not there from the beginning are in
order. -/
structure NamesApart (draft : Draft) : Prop where
  apart : ∀ {name : QName}, name ∈ draft.types → name ∉ draft.uniques
  wildcardFree : QName.any ∉ draft.uniques
  types : ∀ {name : QName}, name ∈ draft.types →
    name ∈ (initial draft.config).types ∨ name.check draft.config.maxIdentLen = .ok ()
  uniques : ∀ {name : QName}, name ∈ draft.uniques →
    name.check draft.config.maxIdentLen = .ok ()

theorem namesApart_initial (config : Config) : NamesApart (initial config) where
  apart _ := Std.ExtTreeMap.not_mem_empty
  wildcardFree := Std.ExtTreeMap.not_mem_empty
  types listed := .inl listed
  uniques listed := absurd listed Std.ExtTreeMap.not_mem_empty

theorem NamesApart.step (names : NamesApart draft) (step : Step draft after) :
    NamesApart after := by
  have config := step.config_eq
  have named := step.names
  refine ⟨fun {name} isType isUnique => ?_, fun isUnique => ?_, fun {name} isType => ?_,
    fun {name} isUnique => ?_⟩
  · rcases named.bound_of_both isType isUnique with wasType | wasUnique
    · have free := named.free_of_unique isUnique (names.apart wasType)
      exact (not_mem_of_isBound free.2).2.1 wasType
    · have free := named.free_of_type isType fun wasType => names.apart wasType wasUnique
      exact (not_mem_of_isBound free.2).2.2 wasUnique
  · have free := named.free_of_unique isUnique names.wildcardFree
    exact (not_mem_of_isBound free.2).1 rfl
  · rw [config]
    by_cases wasType : name ∈ draft.types
    · exact names.types wasType
    · exact .inr (named.free_of_type isType wasType).1
  · rw [config]
    by_cases wasUnique : name ∈ draft.uniques
    · exact names.uniques wasUnique
    · exact (named.free_of_unique isUnique wasUnique).1

theorem Reachable.namesApart (reached : Reachable draft) : NamesApart draft :=
  reached.invariant namesApart_initial fun _ _ names step => names.step step

/-- None of the types that are there from the beginning has the absent name. -/
theorem null_not_mem_initial {config : Config} : QName.null ∉ (initial config).types := by
  intro listed
  obtain ⟨t, found⟩ := mem_types_iff.mp listed
  have named := List.mem_map_of_mem (f := Prod.fst) (initial_getElem?_iff.mp found)
  dsimp only at named
  revert named
  decide +kernel

theorem NamesApart.ne_null (names : NamesApart draft)
    (bound : name ∈ draft.types ∨ name ∈ draft.uniques) : name ≠ .null := by
  intro isNull
  subst isNull
  rcases bound with isType | isUnique
  · rcases names.types isType with initial | valid
    · exact null_not_mem_initial initial
    · exact QName.ne_null_of_check valid rfl
  · exact QName.ne_null_of_check (names.uniques isUnique) rfl

/-! ## The name space -/

/-- What holds of the names of types and uniques, and of the workspaces that own types. -/
structure NameSpace (draft : Draft) : Prop where
  /-- A type is stored under its own name. -/
  named : ∀ {name : QName} {t : TypeDef}, draft.types[name]? = some t → t.name = name
  /-- No name is bound to a type and to a unique. -/
  apart : ∀ {name : QName}, ¬ (name ∈ draft.types ∧ name ∈ draft.uniques)
  /-- Neither the absent name nor the wildcard's name is bound. -/
  proper : ∀ {name : QName}, name ∈ draft.types ∨ name ∈ draft.uniques →
    name ≠ .null ∧ name ≠ .any
  /-- A name is in order unless the initial draft has it. -/
  valid : ∀ {name : QName}, name ∈ draft.types ∨ name ∈ draft.uniques →
    name ∉ (initial draft.config).types → name.check draft.config.maxIdentLen = .ok ()
  /-- The body of a type is of the form that goes with its kind. -/
  fits : ∀ {name : QName} {t : TypeDef}, draft.types[name]? = some t → t.body.Fits t.kind
  /-- What owns a type is a workspace. -/
  housed : ∀ {name : QName} {t : TypeDef}, draft.types[name]? = some t →
    ∃ home, draft.types.workspace? t.workspace = some home
  /-- A workspace owns itself. -/
  self : ∀ {name : QName} {t : TypeDef} {home : Workspace}, draft.types[name]? = some t →
    t.body = .workspace home → t.workspace = name
  /-- A workspace lists exactly the types that it owns. -/
  listed : ∀ {ws name : QName}, name ∈ draft.types.localNames ws ↔
    ∃ t, draft.types[name]? = some t ∧ t.workspace = ws
  /-- Every type is on the list of one workspace, and nothing else is on such a list. -/
  partition : ∀ {name : QName}, (name ∈ draft.types → ∃! ws, name ∈ draft.types.localNames ws) ∧
    (name ∉ draft.types → ∀ ws, name ∉ draft.types.localNames ws)

theorem mem_localNames_iff_of_owned (owned : draft.types.Owned) :
    name ∈ draft.types.localNames ws ↔ ∃ t, draft.types[name]? = some t ∧ t.workspace = ws := by
  rw [owned.listed, TypeTable.owner?_eq_some_iff]

theorem existsUnique_mem_localNames (owned : draft.types.Owned)
    (found : draft.types[name]? = some t) : ∃! ws, name ∈ draft.types.localNames ws := by
  refine ⟨t.workspace, (mem_localNames_iff_of_owned owned).mpr ⟨t, found, rfl⟩, ?_⟩
  intro ws listed
  obtain ⟨u, foundToo, own⟩ := (mem_localNames_iff_of_owned owned).mp listed
  rw [found] at foundToo
  cases foundToo
  exact own.symm

/-- Whatever the edits and whether or not they succeed, the names of a draft are in step. -/
theorem Reachable.nameSpace (reached : Reachable draft) : NameSpace draft := by
  have formed := reached.wellFormed
  have owned := reached.owned
  have names := reached.namesApart
  refine {
    named := formed.named
    apart := fun {name} both => names.apart both.1 both.2
    proper := fun {name} bound => ⟨names.ne_null bound, ?_⟩
    valid := fun {name} bound added => ?_
    fits := formed.fits
    housed := fun {name t} found => ?_
    self := fun {name t home} found isWorkspace =>
      owned.workspace_eq found (TypeDef.workspace?_eq_some_iff.mpr isWorkspace)
    listed := mem_localNames_iff_of_owned owned
    partition := fun {name} => ⟨fun isType => ?_, fun free ws listed => ?_⟩ }
  · rintro rfl
    rcases bound with isType | isUnique
    · obtain ⟨t, found⟩ := mem_types_iff.mp isType
      rw [formed.wildcardFree] at found
      cases found
    · exact names.wildcardFree isUnique
  · rcases bound with isType | isUnique
    · exact (names.types isType).resolve_left added
    · exact names.uniques isUnique
  · have listed := (mem_localNames_iff_of_owned owned).mpr ⟨t, found, rfl⟩
    obtain ⟨home, isHome, _⟩ := TypeTable.mem_localNames_iff.mp listed
    exact ⟨home, isHome⟩
  · obtain ⟨t, found⟩ := mem_types_iff.mp isType
    exact existsUnique_mem_localNames owned found
  · obtain ⟨t, found, _⟩ := (mem_localNames_iff_of_owned owned).mp listed
    exact free (mem_types_iff.mpr ⟨t, found⟩)

/-- Books belong to the base of the library and to no other workspace, and what makes their titles
differ is not a type. -/
theorem Reachable.nameSpace_chapters :
    Library.draftWithChapters.Reachable ∧
      (∀ ws, Library.name "book" ∈ Library.draftWithChapters.types.localNames ws →
        ws = Library.name "base") ∧
      Library.name "titles" ∈ Library.draftWithChapters.uniques ∧
      Library.name "titles" ∉ Library.draftWithChapters.types := by
  have reached := Library.reachable_draftWithChapters
  have space := Reachable.nameSpace reached
  have isUnique : Library.name "titles" ∈ Library.draftWithChapters.uniques :=
    Std.ExtTreeMap.contains_iff_mem.mp (by decide +kernel)
  have isType : Library.name "book" ∈ Library.draftWithChapters.types :=
    Std.ExtTreeMap.contains_iff_mem.mp (by decide +kernel)
  have declared : Library.name "book" ∈
      Library.draftWithChapters.types.localNames (Library.name "base") := by decide +kernel
  obtain ⟨owner, _, only⟩ := space.partition.1 isType
  refine ⟨reached, fun ws listed => ?_, isUnique, fun isType => space.apart ⟨isType, isUnique⟩⟩
  rw [only ws listed, only _ declared]

end Draft

end TypeCatalog
