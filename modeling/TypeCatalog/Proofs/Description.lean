import Mathlib.Data.List.Nodup
import TypeCatalog.Description
import TypeCatalog.Proofs.Draft.Rules
import TypeCatalog.Proofs.Workspace.Ownership

/-!
# Descriptions are complete

A description goes through the workspaces of a catalog and lists what each of them declares.  Every
type is declared by one workspace, so that no type is lost and none comes up twice; and a look-up
by name never fails, since workspaces list the names of types only.

* `Catalog.Built.mem_workspaces_iff`, `Catalog.Built.mem_locals_iff`: the workspaces of a built
  catalog, and the types that each of them declares.
* `Description.Covers`: the description says all of a catalog, and says it once.
* `Catalog.Built.description_covers`: the description of a built catalog does.
-/

namespace TypeCatalog

/-- What is of the kind of workspaces has the body of one. -/
theorem Body.Fits.exists_workspace {body : Body} (fits : body.Fits .workspace) :
    ∃ home, body = .workspace home := by
  cases body with
  | workspace home => exact ⟨home, rfl⟩
  | null | any => exact fits.elim
  | structured s | view v => cases fits.1
  | _ => cases fits

namespace Catalog.Built

variable {catalog : Catalog} {name : QName} {ws : WorkspaceView} {t : TypeDef}
  (built : catalog.Built)
include built

/-! ## Workspaces -/

theorem pairwise_catalog : catalog.defs.Pairwise fun a b => compare a.name b.name = .lt := by
  obtain ⟨draft, reached, _, rfl⟩ := built.exists_draft
  exact reached.named.pairwise_defs

theorem mem_workspaces_iff : ws ∈ catalog.workspaces ↔ catalog.workspace? ws.name = some ws := by
  unfold workspaces workspace?
  rw [List.mem_filterMap, Option.bind_eq_some_iff]
  constructor
  · intro holds
    obtain ⟨t, listed, viewed⟩ := holds
    have same : ws.name = t.name := by
      obtain ⟨_, _, rfl⟩ := Option.map_eq_some_iff.mp viewed
      rfl
    exact ⟨t, same ▸ built.mem_catalog_iff.mp listed, viewed⟩
  · intro holds
    obtain ⟨t, found, viewed⟩ := holds
    exact ⟨t, built.mem_catalog_iff.mpr (built.types_named found ▸ found), viewed⟩

/-- The workspaces come in the order of their names. -/
theorem pairwise_workspaces :
    catalog.workspaces.Pairwise fun a b => compare a.name b.name = .lt := by
  unfold workspaces
  refine List.Pairwise.filterMap _ (fun a b before x viewX y viewY => ?_) built.pairwise_catalog
  obtain ⟨_, _, rfl⟩ := Option.map_eq_some_iff.mp viewX
  obtain ⟨_, _, rfl⟩ := Option.map_eq_some_iff.mp viewY
  exact before

/-- Every type is declared by a workspace. -/
theorem exists_owner (registered : t ∈ catalog.defs) :
    ∃ ws, catalog.workspace? t.workspace = some ws := by
  have found := built.mem_catalog_iff.mp registered
  obtain ⟨draft, reached, _, rfl⟩ := built.exists_draft
  rw [reached.getElem?_freeze] at found
  have owned := reached.owned.listed.mpr (TypeTable.owner?_eq_some_iff.mpr ⟨t, found, rfl⟩)
  obtain ⟨home, isHome, _⟩ := TypeTable.mem_localNames_iff.mp owned
  obtain ⟨owner, foundOwner, isWorkspace⟩ := TypeTable.workspace?_eq_some_iff.mp isHome
  rw [← reached.getElem?_freeze] at foundOwner
  exact ⟨_, workspace?_eq_some_iff.mpr ⟨owner, home, foundOwner, isWorkspace, rfl⟩⟩

/-! ## What a workspace declares -/

variable (viewed : catalog.workspace? name = some ws)
include viewed

theorem name_of_viewed : ws.name = name := by
  obtain ⟨owner, _, found, _, rfl⟩ := workspace?_eq_some_iff.mp viewed
  exact built.types_named found

/-- A workspace lists the names of its types, and each of them is found. -/
theorem mem_locals_iff : t ∈ ws.locals ↔ t ∈ catalog.defs ∧ t.workspace = name := by
  rw [built.mem_catalog_iff]
  obtain ⟨draft, reached, _, rfl⟩ := built.exists_draft
  obtain ⟨frozen, _, isHome⟩ := reached.workspace?_of_viewed viewed
  have listed {other : QName} :
      other ∈ ws.body.locals ↔ draft.types.owner? other = some name := by
    rw [← reached.owned.listed, TypeTable.mem_localNames_iff, isHome]
    simp
  unfold WorkspaceView.locals
  rw [List.mem_filterMap, frozen]
  simp only [Std.ExtTreeSet.mem_toList, reached.getElem?_freeze, listed,
    TypeTable.owner?_eq_some_iff]
  constructor
  · intro holds
    obtain ⟨other, ⟨u, found, own⟩, foundToo⟩ := holds
    rw [found] at foundToo
    cases foundToo
    exact ⟨reached.named other t found ▸ found, own⟩
  · intro holds
    obtain ⟨found, own⟩ := holds
    exact ⟨t.name, ⟨t, found, own⟩, found⟩

theorem pairwise_locals : ws.locals.Pairwise fun a b => compare a.name b.name = .lt := by
  obtain ⟨_, _, _, _, rfl⟩ := workspace?_eq_some_iff.mp viewed
  unfold WorkspaceView.locals
  refine List.Pairwise.filterMap _ (fun a b before t found u foundU => ?_)
    Std.ExtTreeSet.ordered_toList
  rw [built.types_named found, built.types_named foundU]
  exact before

/-- Of the types that a workspace declares, the workspace itself is the only workspace. -/
theorem mem_description_types_iff : t ∈ ws.description.types ↔
    t ∈ catalog.defs ∧ t.kind ≠ .workspace ∧ t.workspace = name := by
  have isNamed := built.name_of_viewed viewed
  unfold WorkspaceView.description
  dsimp only
  rw [List.mem_filter, built.mem_locals_iff viewed, isNamed, bne_iff_ne, and_assoc]
  refine and_congr_right fun registered => ?_
  rw [and_comm]
  refine and_congr_left fun own => not_congr ?_
  have found := built.mem_catalog_iff.mp registered
  have fits := built.types_fit found
  constructor
  · intro same
    obtain ⟨owner, home, foundOwner, isWorkspace, rfl⟩ := workspace?_eq_some_iff.mp viewed
    rw [← same, found] at foundOwner
    cases foundOwner
    rw [TypeDef.workspace?_eq_some_iff.mp isWorkspace] at fits
    exact fits
  · intro kind
    rw [kind] at fits
    obtain ⟨home, isWorkspace⟩ := fits.exists_workspace
    rw [← own]
    obtain ⟨draft, reached, _, rfl⟩ := built.exists_draft
    rw [reached.getElem?_freeze] at found
    exact (reached.owned.workspace_eq found
      (TypeDef.workspace?_eq_some_iff.mpr isWorkspace)).symm

theorem pairwise_description_types :
    ws.description.types.Pairwise fun a b => compare a.name b.name = .lt :=
  (built.pairwise_locals viewed).filter _

end Catalog.Built

/-! ## Complete descriptions -/

namespace Description

/-- The types of all lists together. -/
def types (d : Description) : List TypeDef := d.workspaces.flatMap WorkspaceDescription.types

/-- The description lists all of a catalog but the system package's workspaces with their types,
each thing once and in order. -/
structure Covers (d : Description) (catalog : Catalog) : Prop where
  /-- The workspaces that are described are those outside of the system package, ... -/
  workspaces : ∀ ws, ws ∈ d.workspaces.map WorkspaceDescription.workspace ↔
    catalog.workspace? ws.name = some ws ∧ ws.name.pkg ≠ "sys"
  /-- ... in strictly rising order of their names. -/
  workspacesOrdered :
    d.workspaces.Pairwise fun a b => compare a.workspace.name b.workspace.name = .lt
  /-- The types of a workspace are all that it owns but itself, ... -/
  owned : ∀ w ∈ d.workspaces, ∀ t, t ∈ w.types ↔
    t ∈ catalog.defs ∧ t.kind ≠ .workspace ∧ t.workspace = w.workspace.name
  /-- ... in strictly rising order of their names. -/
  typesOrdered : ∀ w ∈ d.workspaces, w.types.Pairwise fun a b => compare a.name b.name = .lt
  /-- A type that is not a workspace comes up once if its workspace is described, ... -/
  once : ∀ t ∈ catalog.defs, t.kind ≠ .workspace → t.workspace.pkg ≠ "sys" →
    (d.types.map TypeDef.name).count t.name = 1
  /-- ... and nothing else comes up. -/
  onlyThese : ∀ t ∈ d.types,
    t ∈ catalog.defs ∧ t.kind ≠ .workspace ∧ t.workspace.pkg ≠ "sys"
  /-- The packages are the bindings, by their local names. -/
  packages : ∀ pkg path, (pkg, path) ∈ d.packages ↔ catalog.packages.path? pkg = some path
  packagesOrdered : d.packages.Pairwise fun a b => compare a.1 b.1 = .lt
  /-- The rules are listed as they were declared. -/
  rules : d.rules = catalog.rules
  rulesPlaced : ∀ (i : Nat) (rule : Rule), d.rules[i]? = some rule → rule.position = i

end Description

namespace Catalog.Built

open Description

variable {catalog : Catalog} (built : catalog.Built)
include built

theorem mem_described_iff {w : WorkspaceDescription} :
    w ∈ catalog.description.workspaces ↔ ∃ ws, catalog.workspace? ws.name = some ws ∧
      ws.name.pkg ≠ "sys" ∧ ws.description = w := by
  unfold description
  dsimp only
  rw [List.mem_map]
  refine exists_congr fun ws => ?_
  rw [List.mem_filter, built.mem_workspaces_iff, and_assoc]
  refine and_congr_right fun _ => and_congr_left fun _ => ?_
  unfold QName.isSys QName.sysPackage
  simp

/-- No type is listed by two workspaces, and none twice by one. -/
theorem nodup_described_names :
    (catalog.description.types.map TypeDef.name).Nodup := by
  unfold Description.types
  rw [List.map_flatMap, List.nodup_flatMap]
  constructor
  · intro w listed
    obtain ⟨ws, viewed, _, rfl⟩ := built.mem_described_iff.mp listed
    exact nodup_map_name (built.pairwise_description_types viewed)
  · unfold description
    dsimp only
    rw [List.pairwise_map]
    refine (built.pairwise_workspaces.filter _).imp_of_mem fun {a b} isA isB before => ?_
    have viewedA := built.mem_workspaces_iff.mp (List.mem_filter.mp isA).1
    have viewedB := built.mem_workspaces_iff.mp (List.mem_filter.mp isB).1
    intro name listedA listedB
    obtain ⟨t, isT, named⟩ := List.mem_map.mp listedA
    obtain ⟨u, isU, rfl⟩ := List.mem_map.mp listedB
    -- A type of one name is declared by one workspace only.
    obtain ⟨registeredT, _, ownT⟩ := (built.mem_description_types_iff viewedA).mp isT
    obtain ⟨registeredU, _, ownU⟩ := (built.mem_description_types_iff viewedB).mp isU
    have foundT := built.mem_catalog_iff.mp registeredT
    rw [named, built.mem_catalog_iff.mp registeredU] at foundT
    cases foundT
    rw [← ownT, ← ownU, Std.ReflOrd.compare_self] at before
    cases before

/-- The description of a built catalog loses nothing and repeats nothing. -/
theorem description_covers : catalog.description.Covers catalog := by
  have nodup := built.nodup_described_names
  have owned : ∀ w ∈ catalog.description.workspaces, ∀ t, t ∈ w.types ↔
      t ∈ catalog.defs ∧ t.kind ≠ .workspace ∧ t.workspace = w.workspace.name := by
    intro w listed t
    obtain ⟨ws, viewed, _, rfl⟩ := built.mem_described_iff.mp listed
    exact built.mem_description_types_iff viewed
  refine {
    workspaces := fun ws => ?_
    workspacesOrdered := ?_
    owned := owned
    typesOrdered := fun w listed => ?_
    once := fun t registered kind outside => ?_
    onlyThese := fun t listed => ?_
    packages := fun pkg path => Std.ExtTreeMap.mem_toList_iff_getElem?_eq_some
    packagesOrdered := Std.ExtTreeMap.ordered_keys_toList
    rules := rfl
    rulesPlaced := ?_ }
  · rw [List.mem_map]
    constructor
    · intro holds
      obtain ⟨w, listed, rfl⟩ := holds
      obtain ⟨ws, viewed, outside, rfl⟩ := built.mem_described_iff.mp listed
      exact ⟨viewed, outside⟩
    · intro holds
      exact ⟨ws.description, built.mem_described_iff.mpr ⟨ws, holds.1, holds.2, rfl⟩, rfl⟩
  · unfold description
    dsimp only
    rw [List.pairwise_map]
    exact built.pairwise_workspaces.filter _
  · obtain ⟨ws, viewed, _, rfl⟩ := built.mem_described_iff.mp listed
    exact built.pairwise_description_types viewed
  · obtain ⟨ws, viewed⟩ := built.exists_owner registered
    have isNamed := built.name_of_viewed viewed
    rw [← isNamed] at viewed outside
    have described := built.mem_described_iff.mpr ⟨ws, viewed, outside, rfl⟩
    have listed := (owned _ described t).mpr ⟨registered, kind, isNamed.symm⟩
    exact List.count_eq_one_of_mem nodup
      (List.mem_map_of_mem (List.mem_flatMap.mpr ⟨_, described, listed⟩))
  · obtain ⟨w, described, among⟩ := List.mem_flatMap.mp listed
    obtain ⟨registered, kind, own⟩ := (owned w described t).mp among
    obtain ⟨ws, _, outside, rfl⟩ := built.mem_described_iff.mp described
    exact ⟨registered, kind, own ▸ outside⟩
  · obtain ⟨draft, reached, _, rfl⟩ := built.exists_draft
    exact reached.positioned

end Catalog.Built

/-- Auditors are declared by the staff of the library and come up once in its description, while
the system's own types do not come up, and the rules are in their places. -/
theorem Catalog.Built.description_covers_library :
    (Library.catalog.description.types.map TypeDef.name).count (Library.name "auditor") = 1 ∧
      (∀ t ∈ Library.catalog.description.types, t.workspace ≠ .sysWorkspace) ∧
      ("sys", QName.sysPackagePath) ∈ Library.catalog.description.packages ∧
      ∀ rule, Library.catalog.description.rules[2]? = some rule → rule.position = 2 := by
  have covers := Catalog.Built.description_covers Library.built_catalog
  have registered : (Library.catalog.types.find? (Library.name "auditor")).map
      (fun t => (t.name, t.kind, t.workspace)) =
      some (Library.name "auditor", .role, Library.name "staff") := by decide +kernel
  obtain ⟨t, found, is⟩ := Option.map_eq_some_iff.mp registered
  obtain ⟨named, kind, own⟩ : t.name = Library.name "auditor" ∧ t.kind = .role ∧
      t.workspace = Library.name "staff" := by simpa using is
  refine ⟨?_, fun t listed own => ?_, ?_, covers.rulesPlaced 2⟩
  · rw [← named] at found ⊢
    refine covers.once t (Library.built_catalog.mem_catalog_iff.mpr found) ?_ ?_
    · rw [kind]
      decide
    · rw [own]
      decide
  · exact (covers.onlyThese t listed).2.2 (by rw [own]; rfl)
  · exact (covers.packages _ _).mpr (by decide +kernel)

end TypeCatalog
