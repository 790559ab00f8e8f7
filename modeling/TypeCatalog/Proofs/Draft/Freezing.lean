import TypeCatalog.Catalog
import TypeCatalog.Proofs.Draft.WellFormed
import TypeCatalog.Proofs.TypeIndex

/-!
# Freezing

A frozen draft has the same types under the same names, and what was worked out for a workspace is
found under the name of the workspace.

* `Draft.Reachable.getElem?_freeze`: freezing keeps the types.
* `Draft.Reachable.ancestry_freeze`, `Draft.Reachable.defs_freeze`: what a workspace of a frozen
  draft inherits from, and what it sees.
-/

namespace TypeCatalog

/-! ## Frozen tables -/

namespace TypeTable

variable {types : TypeTable} {name : QName} {t : TypeDef}

theorem mem_workspaces_iff {home : Workspace} :
    (name, home) ∈ types.workspaces ↔ types.workspace? name = some home := by
  unfold workspaces workspace?
  rw [List.mem_filterMap, Option.bind_eq_some_iff]
  constructor
  · intro holds
    obtain ⟨⟨_, t⟩, listed, made⟩ := holds
    obtain ⟨_, isWorkspace, same⟩ := Option.map_eq_some_iff.mp made
    cases same
    exact ⟨t, Std.ExtTreeMap.mem_toList_iff_getElem?_eq_some.mp listed, isWorkspace⟩
  · intro holds
    obtain ⟨t, found, isWorkspace⟩ := holds
    refine ⟨(name, t), Std.ExtTreeMap.mem_toList_iff_getElem?_eq_some.mpr found, ?_⟩
    dsimp only
    rw [isWorkspace]
    rfl

theorem nodup_keys_workspaces (types : TypeTable) : (types.workspaces.map Prod.fst).Nodup := by
  have distinct : (types.toList.map Prod.fst).Nodup := by
    rw [Std.ExtTreeMap.map_fst_toList_eq_keys]
    exact Std.ExtTreeMap.nodup_keys
  refine nodup_keys_filterMap (fun entry made frozen => ?_) distinct
  obtain ⟨_, _, rfl⟩ := Option.map_eq_some_iff.mp frozen
  rfl

/-- What is worked out for every workspace is found under the names of workspaces. -/
theorem getElem?_ofList_workspaces {β : Type} (f : QName → β) {home : Workspace}
    (isWorkspace : types.workspace? name = some home) :
    (Std.ExtTreeMap.ofList (types.workspaces.map fun (name, _) => (name, f name)) :
      NameMap β)[name]? = some (f name) := by
  have distinct : ((types.workspaces.map fun (name, _) => (name, f name)).map Prod.fst).Nodup := by
    rw [List.map_map]
    exact types.nodup_keys_workspaces
  rw [getElem?_ofList_eq_some_iff distinct, List.mem_map]
  exact ⟨(name, home), mem_workspaces_iff.mpr isWorkspace, rfl⟩

theorem mem_visibleDefs_iff {ws : QName} :
    t ∈ types.visibleDefs ws ↔ ∃ name ∈ types.visibleNames ws, types[name]? = some t := by
  unfold visibleDefs
  rw [List.mem_filterMap]
  simp only [Std.ExtTreeSet.mem_toList]

theorem Named.mem_visibleDefs_iff (named : types.Named) {ws : QName} :
    t ∈ types.visibleDefs ws ↔ t.name ∈ types.visibleNames ws ∧ types[t.name]? = some t := by
  rw [TypeTable.mem_visibleDefs_iff]
  constructor
  · intro holds
    obtain ⟨name, visible, found⟩ := holds
    rw [named name t found]
    exact ⟨visible, found⟩
  · intro holds
    exact ⟨t.name, holds⟩

/-- Visible types come in name order. -/
theorem Named.pairwise_visibleDefs (named : types.Named) (ws : QName) :
    (types.visibleDefs ws).Pairwise fun a b => compare a.name b.name = .lt := by
  unfold visibleDefs
  refine List.Pairwise.filterMap _ (fun a b before t found u foundU => ?_)
    Std.ExtTreeSet.ordered_toList
  rw [named a t found, named b u foundU]
  exact before

end TypeTable

/-! ## Views of workspaces -/

namespace Catalog

variable {catalog : Catalog} {name : QName}

theorem workspace?_eq_some_iff {ws : WorkspaceView} :
    catalog.workspace? name = some ws ↔
      ∃ owner home, catalog.types[name]? = some owner ∧ owner.workspace? = some home ∧
        ws = ⟨catalog, owner, home⟩ := by
  unfold workspace? view?
  rw [Option.bind_eq_some_iff]
  constructor
  · intro holds
    obtain ⟨owner, found, made⟩ := holds
    obtain ⟨home, isWorkspace, rfl⟩ := Option.map_eq_some_iff.mp made
    exact ⟨owner, home, found, isWorkspace, rfl⟩
  · intro holds
    obtain ⟨owner, home, found, isWorkspace, rfl⟩ := holds
    exact ⟨owner, found, Option.map_eq_some_iff.mpr ⟨home, isWorkspace, rfl⟩⟩

end Catalog

/-! ## Frozen drafts -/

namespace Draft

theorem build_eq_ok_iff {draft : Draft} {catalog : Catalog} :
    draft.build = .ok catalog ↔ draft.findings = [] ∧ draft.freeze = catalog := by
  unfold build problems
  cases draft.findings <;> simp

namespace Reachable

variable {draft : Draft} {name other : QName} {t : TypeDef} {ws : WorkspaceView}
  (reached : draft.Reachable)
include reached

theorem named : draft.types.Named := fun _ _ found => reached.wellFormed.named found

/-- Freezing keeps all types under their names. -/
theorem getElem?_freeze (name : QName) : draft.freeze.types[name]? = draft.types[name]? :=
  TypeIndex.getElem?_ofTable reached.named name

variable (viewed : draft.freeze.workspace? name = some ws)
include viewed

theorem workspace?_of_viewed :
    ws.catalog = draft.freeze ∧ ws.name = name ∧ draft.types.workspace? name = some ws.body := by
  obtain ⟨owner, home, found, isWorkspace, rfl⟩ := Catalog.workspace?_eq_some_iff.mp viewed
  rw [reached.getElem?_freeze] at found
  exact ⟨rfl, reached.named name owner found,
    Option.bind_eq_some_iff.mpr ⟨owner, found, isWorkspace⟩⟩

theorem ancestry_freeze : ws.ancestry = draft.types.ancestry name := by
  obtain ⟨frozen, named, isHome⟩ := reached.workspace?_of_viewed viewed
  have stored : draft.freeze.ancestries[name]? = some (draft.types.ancestry name) :=
    TypeTable.getElem?_ofList_workspaces draft.types.ancestry isHome
  unfold WorkspaceView.ancestry
  rw [frozen, named, stored, Option.getD_some]

/-- A workspace lists the types that validation takes to be visible from it. -/
theorem defs_freeze : ws.defs = draft.types.visibleDefs name := by
  obtain ⟨frozen, named, isHome⟩ := reached.workspace?_of_viewed viewed
  have stored : draft.freeze.visible[name]? =
      some ((TypeIndex.ofTable draft.types).positionsOf (draft.types.visibleNames name)) :=
    TypeTable.getElem?_ofList_workspaces (fun name =>
      (TypeIndex.ofTable draft.types).positionsOf (draft.types.visibleNames name)) isHome
  unfold WorkspaceView.defs WorkspaceView.visible
  rw [frozen, named, stored, Option.getD_some]
  exact Window.defs_positionsOf reached.named _

/-- A search among the visible types finds those that are listed. -/
theorem visible_freeze : ws.visible[other]? = some t ↔ t ∈ ws.defs ∧ t.name = other := by
  refine Window.getElem?_eq_some_iff ?_
  change ws.defs.Pairwise _
  rw [reached.defs_freeze viewed]
  exact reached.named.pairwise_visibleDefs name

end Reachable

end Draft

end TypeCatalog
