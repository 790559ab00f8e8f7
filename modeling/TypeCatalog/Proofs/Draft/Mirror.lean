import Mathlib.Data.List.Basic
import TypeCatalog.Proofs.BuiltCatalog
import TypeCatalog.Proofs.Draft.Freezing
import TypeCatalog.Proofs.Draft.Members
import TypeCatalog.Proofs.Draft.Validation
import TypeCatalog.Proofs.Workspace.Ownership

/-!
# Frozen catalogs answer like their drafts

Freezing a draft replaces searches by name with positions, searches along the graph of workspaces
with sets that were worked out once, and searches among visible types with halving.  None of this
changes an answer.

* `Catalog.Mirrors`, `WorkspaceView.Mirrors`: what it means to give the same answers.
* `Draft.Reachable.containerTarget_freeze`, `Draft.Reachable.uniqueOwner?_freeze`: what is cached
  for containers and uniques.
* `Draft.Reachable.view_mirrors`: a workspace sees what it saw, and no visible name is lost.
* `Draft.Reachable.mirrored`: the catalog that is built from a draft mirrors it.
-/

namespace TypeCatalog

/-! ## The same answers -/

/-- The workspace of a catalog answers like the one that has the name in a table. -/
structure WorkspaceView.Mirrors (ws : WorkspaceView) (types : TypeTable) (name : QName) : Prop where
  resolve : ∀ other, ws.resolve other = (types.visible? name other).getD .null
  defs : ws.defs = types.visibleDefs name
  names : ws.defs.map TypeDef.name = (types.visibleNames name).toList
  inherits : ∀ other, ws.inherits other = true ↔ other ∈ types.ancestry name

/-- The catalog answers like the draft. -/
structure Catalog.Mirrors (catalog : Catalog) (draft : Draft) : Prop where
  /-- The types are in strictly rising order of their names, ... -/
  ordered : catalog.defs.Pairwise fun a b => compare a.name b.name = .lt
  /-- ... and they are the types of the draft. -/
  listed : ∀ t, t ∈ catalog.defs ↔ ∃ name : QName, draft.types[name]? = some t
  find : ∀ name, catalog.find? .type name = draft.types[name]?
  resolve : ∀ name, catalog.resolve name = draft.types.resolve name
  /-- Every container holds a type of the draft. -/
  target : ∀ owner s, draft.types.structure? owner = some s → ∀ container ∈ s.containers,
    draft.types[container.target]? = some (catalog.containerTarget owner container.name) ∧
      (catalog.containerTarget owner container.name).isNull = false
  owner : ∀ unique t, catalog.uniqueOwner? unique = some t ↔
    ∃ (name : QName) (s : Structure), draft.types[name]? = some t ∧ t.structure? = some s ∧
      s.Declares unique
  /-- The catalog has the workspaces of the draft, ... -/
  workspaces : ∀ name,
    (catalog.workspace? name).map WorkspaceView.body = draft.types.workspace? name
  /-- ... which answer like those of the draft. -/
  views : ∀ name ws, catalog.workspace? name = some ws → ws.Mirrors draft.types name

/-! ## Targets of containers -/

@[simp] theorem TypeKind.mayContain_any (owner : TypeKind) : owner.mayContain .any = false := by
  cases owner <;> rfl

@[simp] theorem TypeKind.mayContain_null (owner : TypeKind) : owner.mayContain .null = false := by
  cases owner <;> rfl

/-- What a container may hold is registered: it is neither the wildcard nor missing. -/
theorem TypeTable.ContainerValid.exists_target {types : TypeTable} {owner : TypeKind}
    {container : Container} (valid : types.ContainerValid owner container) :
    ∃ t, types[container.target]? = some t ∧ t.isNull = false := by
  obtain ⟨t, found, mayHold⟩ := valid
  have present : t.isNull = false := by
    unfold TypeDef.isNull
    rw [beq_eq_false_iff_ne]
    intro isNull
    rw [isNull, TypeKind.mayContain_null] at mayHold
    cases mayHold
  unfold resolve? at found
  split at found
  next =>
    cases found
    rw [show TypeDef.any.kind = .any from rfl, TypeKind.mayContain_any] at mayHold
    cases mayHold
  next => exact ⟨t, found, present⟩

/-- In a valid draft every container holds a type of the draft. -/
theorem Draft.Valid.exists_target {draft : Draft} (valid : draft.Valid) {owner : QName}
    {s : Structure} (isStructure : draft.types.structure? owner = some s) {container : Container}
    (listed : container ∈ s.containers) :
    ∃ t, draft.types[container.target]? = some t ∧ t.isNull = false := by
  obtain ⟨t, found, body⟩ := Option.bind_eq_some_iff.mp isStructure
  have validBody := (valid.types owner t found).body
  unfold TypeTable.BodyValid at validBody
  rw [TypeDef.structure?_eq_some_iff.mp body] at validBody
  exact (validBody container listed).exists_target

/-- Containers with different names are found by their names. -/
theorem TypeIndex.lookup_heldBy {index : TypeIndex} {s : Structure} (differ : s.ContainersDiffer)
    {container : Container} (listed : container ∈ s.containers) :
    (index.heldBy s.containers).lookup container.name =
      some (index.positions[container.target]?) := by
  unfold TypeIndex.heldBy
  refine lookup_eq_some_of_mem ?_ (List.mem_map.mpr ⟨container, listed, rfl⟩)
  rw [List.map_map]
  exact differ

namespace Draft

variable {draft : Draft} {name ws unique : QName} {t : TypeDef} {s : Structure}

namespace Reachable

variable (reached : draft.Reachable)
include reached

theorem targets_freeze (isStructure : draft.types.structure? name = some s) :
    draft.freeze.targets[name]? = some ((TypeIndex.ofTable draft.types).heldBy s.containers) := by
  obtain ⟨t, found, body⟩ := Option.bind_eq_some_iff.mp isStructure
  have named := reached.named name t found
  subst named
  have distinct : ((TypeIndex.ofTable draft.types).held.map Prod.fst).Nodup := by
    refine nodup_keys_filterMap (fun t entry made => ?_) reached.named.nodup_names
    obtain ⟨_, _, rfl⟩ := Option.map_eq_some_iff.mp made
    rfl
  change (Std.ExtTreeMap.ofList (TypeIndex.ofTable draft.types).held : NameMap _)[t.name]? = _
  unfold TypeIndex.held at distinct ⊢
  rw [getElem?_ofList_eq_some_iff distinct, List.mem_filterMap]
  exact ⟨t, reached.named.mem_defs_iff.mpr found, Option.map_eq_some_iff.mpr ⟨s, body, rfl⟩⟩

/-- The cached position of a container's target leads to the target. -/
theorem containerTarget_freeze (isStructure : draft.types.structure? name = some s)
    {container : Container} (listed : container ∈ s.containers)
    (found : draft.types[container.target]? = some t) :
    draft.freeze.containerTarget name container.name = t := by
  obtain ⟨position, isAt, stands⟩ := TypeIndex.exists_position reached.named found
  unfold Catalog.containerTarget
  rw [reached.targets_freeze isStructure, Option.bind_some,
    TypeIndex.lookup_heldBy (reached.members.containers isStructure) listed, isAt]
  exact stands

theorem uniqueOwner?_freeze : draft.freeze.uniqueOwner? unique = some t ↔
    ∃ (name : QName) (s : Structure), draft.types[name]? = some t ∧ t.structure? = some s ∧
      s.Declares unique := by
  unfold Catalog.uniqueOwner?
  change (draft.uniques[unique]?).bind _ = _ ↔ _
  rw [Option.bind_eq_some_iff]
  simp only [reached.getElem?_freeze, reached.members.uniques]
  constructor
  · intro holds
    obtain ⟨name, ⟨s, isStructure, declares⟩, found⟩ := holds
    unfold TypeTable.structure? at isStructure
    rw [found, Option.bind_some] at isStructure
    exact ⟨name, s, found, isStructure, declares⟩
  · intro holds
    obtain ⟨name, s, found, isStructure, declares⟩ := holds
    exact ⟨name, ⟨s, Option.bind_eq_some_iff.mpr ⟨t, found, isStructure⟩, declares⟩, found⟩

/-! ## Workspaces -/

/-- Every visible name is the name of a type. -/
theorem exists_of_mem_visibleNames (visible : name ∈ draft.types.visibleNames ws) :
    ∃ t, draft.types[name]? = some t := by
  obtain ⟨other, _, listed⟩ := TypeTable.mem_visibleNames_iff.mp visible
  obtain ⟨t, found, _⟩ := TypeTable.owner?_eq_some_iff.mp (reached.owned.listed.mp listed)
  exact ⟨t, found⟩

theorem map_name_visibleDefs (ws : QName) :
    (draft.types.visibleDefs ws).map TypeDef.name = (draft.types.visibleNames ws).toList := by
  have kept : ∀ name ∈ (draft.types.visibleNames ws).toList,
      (draft.types[name]?).map TypeDef.name = some name := by
    intro name visible
    obtain ⟨t, found⟩ := reached.exists_of_mem_visibleNames (Std.ExtTreeSet.mem_toList.mp visible)
    rw [found, Option.map_some, reached.named name t found]
  unfold TypeTable.visibleDefs
  rw [List.map_filterMap, List.filterMap_congr kept, List.filterMap_some]

theorem workspace?_freeze (name : QName) :
    (draft.freeze.workspace? name).map WorkspaceView.body = draft.types.workspace? name := by
  unfold Catalog.workspace? Catalog.view? TypeTable.workspace?
  rw [reached.getElem?_freeze, Option.map_bind]
  congr 1
  funext t
  simp [Function.comp_def]

/-- A workspace sees what it saw in the draft: searching the sorted positions of its types by
halving misses none of them. -/
theorem view_mirrors {view : WorkspaceView} (viewed : draft.freeze.workspace? name = some view) :
    view.Mirrors draft.types name := by
  have defs := reached.defs_freeze viewed
  have visible : ∀ {other : QName} {t : TypeDef}, view.visible[other]? = some t ↔
      draft.types.sees name other = true ∧ draft.types[other]? = some t := by
    intro other t
    rw [reached.visible_freeze viewed, defs, reached.named.mem_visibleDefs_iff,
      TypeTable.sees_iff_mem_visibleNames]
    constructor
    · intro holds
      obtain ⟨found, rfl⟩ := holds
      exact found
    · intro found
      have same := reached.named other t found.2
      subst same
      exact ⟨found, rfl⟩
  refine ⟨fun other => ?_, defs, ?_, fun other => ?_⟩
  · unfold WorkspaceView.resolve Window.resolve TypeTable.visible?
    by_cases isAny : other = .any
    · rw [if_pos isAny, if_pos isAny, Option.getD_some]
    · rw [if_neg isAny, if_neg isAny]
      congr 1
      refine Option.ext fun t => ?_
      rw [visible]
      split
      next sees => simp [sees]
      next hidden => simp [hidden]
  · rw [defs]
    exact reached.map_name_visibleDefs name
  · unfold WorkspaceView.inherits
    rw [reached.ancestry_freeze viewed, Std.ExtTreeSet.contains_iff_mem]

end Reachable

/-- The catalog that is built from a reachable draft gives the same answers as the draft. -/
theorem Reachable.mirrored {draft : Draft} (reached : draft.Reachable) {catalog : Catalog}
    (made : draft.build = .ok catalog) : catalog.Mirrors draft := by
  obtain ⟨clean, rfl⟩ := build_eq_ok_iff.mp made
  have valid := findings_eq_nil_iff.mp clean
  have find : ∀ name, draft.freeze.find? .type name = draft.types[name]? := by
    intro name
    unfold Catalog.find?
    rw [reached.getElem?_freeze]
    cases draft.types[name]? <;> rfl
  refine {
    ordered := reached.named.pairwise_defs
    listed := fun t => TypeTable.mem_defs_iff
    find := find
    resolve := TypeIndex.resolve_ofTable reached.named
    target := fun owner s isStructure container listed => ?_
    owner := fun unique t => reached.uniqueOwner?_freeze
    workspaces := reached.workspace?_freeze
    views := fun name view viewed => reached.view_mirrors viewed }
  obtain ⟨held, isHeld, present⟩ := valid.exists_target isStructure listed
  rw [reached.containerTarget_freeze isStructure listed isHeld]
  exact ⟨isHeld, present⟩

end Draft

namespace Library

theorem isStructure_cRecord : TypeKind.cRecord.isStructure = true := rfl

/-- Books come to have chapters and different titles. -/
def chapters : List Edit := [
  .within (name "base") (.declare (name "chapter") (.structured .cRecord isStructure_cRecord)),
  .within (name "base") (.amend (name "book")
    (.addContainer "chapters" (name "chapter") ⟨0⟩ .unbounded)),
  .within (name "base") (.amend (name "book") (.addUnique (name "titles") ["title"]))]

def draftWithChapters : Draft := draft.applyAll chapters

theorem reachable_draftWithChapters : draftWithChapters.Reachable :=
  ((Draft.Reachable.initial {}).applyAll edits).applyAll chapters

theorem findings_draftWithChapters : draftWithChapters.findings = [] :=
  List.isEmpty_iff.mp (by decide +kernel)

end Library

/-- Books hold chapters and are what has different titles, and `app` sees chapters. -/
theorem Draft.Reachable.mirrored_chapters :
    Library.draftWithChapters.types[Library.name "chapter"]? =
      some (Library.draftWithChapters.freeze.containerTarget (Library.name "book") "chapters") ∧
    Library.draftWithChapters.freeze.uniqueOwner? (Library.name "titles") =
      Library.draftWithChapters.types[Library.name "book"]? ∧
    ∃ ws, Library.draftWithChapters.freeze.workspace? (Library.name "app") = some ws ∧
      (ws.resolve (Library.name "chapter")).kind = .cRecord := by
  have mirrors := Draft.Reachable.mirrored Library.reachable_draftWithChapters
    (Draft.build_eq_ok_iff.mpr ⟨Library.findings_draftWithChapters, rfl⟩)
  have holds : (Library.draftWithChapters.types.structure? (Library.name "book")).map
      Structure.containers =
      some [⟨"chapters", Library.name "chapter", ⟨0⟩, .unbounded, none⟩] := by decide +kernel
  have unique : (Library.draftWithChapters.types.structure? (Library.name "book")).map
      (fun s => s.uniques.map Unique.name) = some [Library.name "titles"] := by decide +kernel
  have opened : (Library.draftWithChapters.types.workspace? (Library.name "app")).isSome =
      true := by decide +kernel
  obtain ⟨s, isStructure, containers⟩ := Option.map_eq_some_iff.mp holds
  rw [isStructure, Option.map_some, Option.some_inj] at unique
  have declares : s.Declares (Library.name "titles") := by
    unfold Structure.Declares
    rw [unique]
    exact List.mem_singleton_self _
  obtain ⟨book, found, body⟩ := Option.bind_eq_some_iff.mp isStructure
  have owned := (mirrors.owner (Library.name "titles") book).mpr
    ⟨Library.name "book", s, found, body, declares⟩
  rw [← mirrors.workspaces, Option.isSome_map] at opened
  obtain ⟨ws, viewed⟩ := Option.isSome_iff_exists.mp opened
  refine ⟨?_, owned.trans found.symm, ws, viewed, ?_⟩
  · refine (mirrors.target _ s isStructure ⟨"chapters", _, ⟨0⟩, .unbounded, none⟩ ?_).1
    rw [containers]
    exact List.mem_singleton_self _
  · rw [(mirrors.views _ ws viewed).resolve]
    decide +kernel

end TypeCatalog
