import Mathlib.Data.List.Basic
import TypeCatalog.Proofs.Workspace.Ancestors

/-!
# Workspaces are isolated from what they do not draw on

A region is a set of workspaces.  Edits that go through workspaces outside a region leave all
types of the region as they are and add no rules to it.  What a workspace answers depends on the
region that it draws on, so that such edits do not change its answers.

* `Edit.Spares`: the edits that add packages or workspaces, or go through workspaces outside the
  region.
* `Draft.Spared`, `Draft.Reachable.spared_applyAll`: what these edits keep.
* `TypeTable.AgreeOn.visibleDefs_eq`: what a workspace sees depends on its region.
* `Draft.Reachable.isolated`: after such edits a workspace answers as before.
-/

namespace TypeCatalog

open Relation (ReflTransGen)

/-! ## Tables that agree on a region -/

namespace TypeTable

/-- The tables have the same types in the workspaces of the region. -/
def AgreeOn (region : QName → Prop) (types after : TypeTable) : Prop :=
  ∀ (name : QName) (t : TypeDef), region t.workspace →
    (after[name]? = some t ↔ types[name]? = some t)

namespace AgreeOn

variable {region : QName → Prop} {types middle after : TypeTable} {ws name other : QName}

theorem refl : AgreeOn region types types := fun _ _ _ => Iff.rfl

theorem symm (agree : AgreeOn region types after) : AgreeOn region after types :=
  fun name t inside => (agree name t inside).symm

theorem trans (first : AgreeOn region types middle) (second : AgreeOn region middle after) :
    AgreeOn region types after :=
  fun name t inside => (second name t inside).trans (first name t inside)

/-- A workspace of the region is still there, since it is a type of its own. -/
theorem workspace?_of_eq_some (agree : AgreeOn region types after) (owned : types.Owned)
    (inside : region ws) {home : Workspace} (isWorkspace : types.workspace? ws = some home) :
    after.workspace? ws = some home := by
  obtain ⟨t, found, isHome⟩ := workspace?_eq_some_iff.mp isWorkspace
  have own := owned.workspace_eq found isHome
  exact workspace?_eq_some_iff.mpr ⟨t, (agree ws t (own ▸ inside)).mpr found, isHome⟩

section Owned

variable (agree : AgreeOn region types after) (owned : types.Owned) (ownedAfter : after.Owned)
include agree owned ownedAfter

theorem workspace?_eq (inside : region ws) : after.workspace? ws = types.workspace? ws :=
  Option.ext fun _ => ⟨agree.symm.workspace?_of_eq_some ownedAfter inside,
    agree.workspace?_of_eq_some owned inside⟩

theorem parents_eq (inside : region ws) : after.parents ws = types.parents ws := by
  unfold parents
  rw [agree.workspace?_eq owned ownedAfter inside]

theorem usedBy_eq (inside : region ws) : after.usedBy ws = types.usedBy ws := by
  unfold usedBy
  rw [agree.workspace?_eq owned ownedAfter inside]

theorem localNames_eq (inside : region ws) : after.localNames ws = types.localNames ws := by
  unfold localNames
  rw [agree.workspace?_eq owned ownedAfter inside]

/-- A workspace of a region without edges to the outside inherits from the same workspaces. -/
theorem inherits_iff (closed : ∀ a, region a → ∀ b ∈ types.parents a, region b)
    (inside : region ws) : after.Inherits ws other ↔ types.Inherits ws other := by
  have same : ∀ a, region a → after.parents a = types.parents a :=
    fun a insideA => agree.parents_eq owned ownedAfter insideA
  have closedAfter : ∀ a, region a → ∀ b ∈ after.parents a, region b := by
    intro a insideA
    rw [same a insideA]
    exact closed a insideA
  exact ⟨reaches_of_closed closedAfter (fun a insideA => (same a insideA).symm) inside,
    reaches_of_closed closed same inside⟩

end Owned

end AgreeOn

/-! ### The region of a workspace -/

variable {types after : TypeTable} {ws name other : QName}

theorem drawsOn_self : types.DrawsOn ws ws := .inl .refl

/-- Workspaces draw on all that those inherit from that they draw on. -/
theorem DrawsOn.parents (draws : types.DrawsOn ws other) (leads : name ∈ types.parents other) :
    types.DrawsOn ws name := by
  rcases draws with inherits | ⟨used, uses, inherits⟩
  · exact .inl (inherits.tail leads)
  · exact .inr ⟨used, uses, inherits.tail leads⟩

/-- A workspace draws on workspaces only. -/
theorem Rooted.workspace_of_drawsOn (rooted : types.Rooted) {home : Workspace}
    (isWorkspace : types.workspace? ws = some home) (draws : types.DrawsOn ws other) :
    ∃ body, types.workspace? other = some body := by
  have upwards : ∀ {lower upper : QName}, types.Inherits lower upper →
      (∃ body, types.workspace? lower = some body) →
      ∃ body, types.workspace? upper = some body := by
    intro lower upper inherits isLower
    induction inherits with
    | refl => exact isLower
    | tail _ leads _ => exact rooted.parents leads
  rcases draws with inherits | ⟨used, uses, inherits⟩
  · exact upwards inherits ⟨home, isWorkspace⟩
  · exact upwards inherits (rooted.used uses)

section Region

variable (agree : AgreeOn (types.DrawsOn ws) types after) (owned : types.Owned)
  (ownedAfter : after.Owned)
include agree owned ownedAfter

/-- What a workspace inherits from depends on its region. -/
theorem AgreeOn.ancestry_eq : after.ancestry ws = types.ancestry ws := by
  refine Std.ExtTreeSet.ext_mem fun other => ?_
  rw [mem_ancestry_iff, mem_ancestry_iff]
  exact agree.inherits_iff owned ownedAfter (fun a draws b leads => draws.parents leads)
    drawsOn_self

theorem AgreeOn.drawsOn_iff : after.DrawsOn ws other ↔ types.DrawsOn ws other := by
  have closed : ∀ a, types.DrawsOn ws a → ∀ b ∈ types.parents a, types.DrawsOn ws b :=
    fun a draws b leads => draws.parents leads
  unfold DrawsOn
  rw [agree.usedBy_eq owned ownedAfter drawsOn_self,
    agree.inherits_iff owned ownedAfter closed drawsOn_self]
  refine or_congr Iff.rfl (exists_congr fun used => and_congr_right fun uses => ?_)
  exact agree.inherits_iff owned ownedAfter closed (.inr ⟨used, uses, .refl⟩)

theorem AgreeOn.visibleNames_eq : after.visibleNames ws = types.visibleNames ws := by
  refine Std.ExtTreeSet.ext_mem fun name => ?_
  rw [mem_visibleNames_iff, mem_visibleNames_iff]
  refine exists_congr fun other => ?_
  rw [agree.drawsOn_iff owned ownedAfter]
  refine and_congr_right fun draws => ?_
  rw [agree.localNames_eq owned ownedAfter draws]

/-- What a workspace sees depends on its region. -/
theorem AgreeOn.visibleDefs_eq : after.visibleDefs ws = types.visibleDefs ws := by
  unfold visibleDefs
  rw [agree.visibleNames_eq owned ownedAfter]
  refine List.filterMap_congr fun name isVisible => ?_
  -- A visible name belongs to a type that the region owns, before as well as after.
  obtain ⟨other, draws, listed⟩ := mem_visibleNames_iff.mp (Std.ExtTreeSet.mem_toList.mp isVisible)
  obtain ⟨u, found, own⟩ := owner?_eq_some_iff.mp (owned.listed.mp listed)
  rw [found, (agree name u (own ▸ draws)).mpr found]

end Region

end TypeTable

/-! ## Edits outside a region -/

/-- The edits that add packages or workspaces, or go through workspaces outside the region. -/
def Edit.Spares (region : QName → Prop) : Edit → Prop
  | .addPackage _ _ | .addWorkspace _ | .openWorkspace _ => True
  | .within ws _ => ¬ region ws
  | .setTypeComment _ _ => False

instance {region : QName → Prop} [DecidablePred region] : DecidablePred (Edit.Spares region)
  | .addPackage _ _ | .addWorkspace _ | .openWorkspace _ => isTrue trivial
  | .within ws _ => inferInstanceAs (Decidable (¬ region ws))
  | .setTypeComment _ _ => isFalse id

namespace Draft

/-- The later draft has what the earlier one has in the region, and no new rules there. -/
structure Spared (region : QName → Prop) (draft after : Draft) : Prop where
  types : draft.types.AgreeOn region after.types
  rules : ∃ added, after.rules = draft.rules ++ added ∧ ∀ rule ∈ added, ¬ region rule.workspace
  config : after.config = draft.config

namespace Spared

variable {region : QName → Prop} {draft middle after : Draft} {name ws : QName} {t u : TypeDef}

theorem of_types (types : draft.types.AgreeOn region after.types)
    (rules : after.rules = draft.rules) (config : after.config = draft.config) :
    Spared region draft after :=
  ⟨types, ⟨[], by simp [rules], by simp⟩, config⟩

theorem refl : Spared region draft draft := .of_types .refl rfl rfl

theorem trans (first : Spared region draft middle) (second : Spared region middle after) :
    Spared region draft after := by
  obtain ⟨early, addedEarly, outsideEarly⟩ := first.rules
  obtain ⟨late, addedLate, outsideLate⟩ := second.rules
  refine ⟨first.types.trans second.types, ⟨early ++ late, ?_, fun rule listed => ?_⟩,
    second.config.trans first.config⟩
  · rw [addedLate, addedEarly, List.append_assoc]
  · rcases List.mem_append.mp listed with isEarly | isLate
    · exact outsideEarly rule isEarly
    · exact outsideLate rule isLate

/-- A type outside the region takes the place of one outside the region, or of none. -/
theorem withType (before : ∀ t, draft.types[name]? = some t → ¬ region t.workspace)
    (outside : ¬ region u.workspace) : Spared region draft (draft.withType name u) := by
  refine .of_types (fun other t inside => ?_) rfl rfl
  rw [withType_getElem?]
  by_cases same : name = other
  · subst same
    rw [if_pos rfl]
    constructor
    · intro isU
      cases isU
      exact absurd inside outside
    · intro found
      exact absurd inside (before t found)
  · rw [if_neg same]

theorem change (found : draft.types[name]? = some t) (outside : ¬ region t.workspace)
    (sameOwner : u.workspace = t.workspace) : Spared region draft (draft.withType name u) := by
  refine withType (fun t' found' => ?_) (sameOwner ▸ outside)
  rw [found] at found'
  cases found'
  exact outside

theorem add (free : draft.isBound name = false) (outside : ¬ region u.workspace) :
    Spared region draft (draft.withType name u) := by
  refine withType (fun t found => ?_) outside
  rw [(getElem?_eq_none_of_isBound free).2] at found
  cases found

end Spared

variable {region : QName → Prop} {draft after : Draft} {ws : QName}

/-- An edit of a workspace outside the region changes types and adds rules outside the region. -/
theorem WorkspaceStep.spared {home : Workspace} (opened : draft.findWorkspace ws = .ok home)
    (owned : draft.types.Owned) (outside : ¬ region ws) (step : WorkspaceStep ws draft after) :
    Spared region draft after := by
  obtain ⟨owner, foundOwner, isHome⟩ := findWorkspace_eq_ok_iff.mp opened
  have own : owner.workspace = ws :=
    owned.workspace_eq foundOwner (TypeDef.workspace?_eq_some_iff.mpr isHome)
  have outsideOwner : ¬ region owner.workspace := own ▸ outside
  cases step with
  | @declare name _ _ _ _ home _ free _ found _ =>
      rw [foundOwner] at found
      cases found
      have listed : Spared region draft
          (draft.withType ws { owner with body := .workspace (home.addLocal name) }) :=
        .change foundOwner outsideOwner rfl
      refine listed.trans (.add ?_ outside)
      rw [isBound_withType foundOwner]
      exact free
  | amend found declared _ step => exact .change found (declared ▸ outside) step.evolves.workspace
  | @addUnique name _ t _ changed _ found declared _ _ _ _ _ =>
      have spared : Spared region draft
          (draft.withType name { t with body := .structured changed }) :=
        .change found (declared ▸ outside) rfl
      exact ⟨spared.types, spared.rules, rfl⟩
  | setAncestors found _ _ _ | useWorkspaces found _ _ | setDescriptor found _ _ _
  | setAbstract found | comment _ found =>
      rw [foundOwner] at found
      cases found
      exact .change foundOwner outsideOwner rfl
  | addRule _ _ _ _ _ _ =>
      exact ⟨.refl, ⟨_, rfl, by simpa using outside⟩, rfl⟩

/-- A new workspace is outside of every region that consists of types that are there. -/
theorem run_spared {edit : Edit} (owned : draft.types.Owned)
    (registered : ∀ name, region name → draft.types[name]? ≠ none) (spares : edit.Spares region) :
    Build.Yields edit.run draft fun _ after => Spared region draft after := by
  refine edit.run_yields_of .refl (fun _ => .of_types .refl rfl rfl) (fun _ _ free => ?_)
    (fun isWithin opened => ?_) fun isComment _ => ?_
  · refine .add free fun inside => ?_
    exact registered _ inside (getElem?_eq_none_of_isBound free).2
  · subst isWithin
    exact (WorkspaceEdit.run_yields opened _).mono fun _ _ step =>
      step.spared opened owned spares
  · subst isComment
    exact spares.elim

theorem apply_spared {edit : Edit} (owned : draft.types.Owned)
    (registered : ∀ name, region name → draft.types[name]? ≠ none) (spares : edit.Spares region) :
    Spared region draft (draft.apply edit).2 :=
  apply_of_yields (run_spared owned registered spares) .refl

/-- Edits that spare a region leave it alone, whether or not they succeed. -/
theorem Reachable.spared_applyAll (reached : Reachable draft)
    (registered : ∀ name, region name → draft.types[name]? ≠ none) {edits : List Edit}
    (spares : ∀ edit ∈ edits, edit.Spares region) : Spared region draft (draft.applyAll edits) := by
  unfold Draft.applyAll
  induction edits generalizing draft with
  | nil => exact .refl
  | cons edit rest ih =>
      have first := apply_spared reached.owned registered (spares edit List.mem_cons_self)
      refine first.trans (ih (.apply edit reached) (fun name inside => ?_)
        fun edit listed => spares edit (List.mem_cons_of_mem _ listed))
      -- What was there still is, since edits remove no types.
      obtain ⟨t, found⟩ := Option.ne_none_iff_exists'.mp (registered name inside)
      rcases apply_eq_or_step draft edit with same | step
      · rw [same, found]
        simp
      · obtain ⟨changed, foundAfter, _⟩ := step.grows.kept found
        rw [foundAfter]
        simp

end Draft

/-! ## Catalogs before and after -/

namespace Draft.Spared

section Views

variable {draft after : Draft} {name : QName} {ws ws' : WorkspaceView}
  (spared : draft.Spared (draft.types.DrawsOn name) after) (reached : draft.Reachable)
  (reachedAfter : after.Reachable) (viewed : draft.freeze.workspace? name = some ws)
include spared reached reachedAfter viewed

/-- A workspace is still there if its region was spared. -/
theorem exists_view : ∃ ws', after.freeze.workspace? name = some ws' := by
  obtain ⟨owner, home, found, isWorkspace, rfl⟩ := Catalog.workspace?_eq_some_iff.mp viewed
  rw [reached.getElem?_freeze] at found
  have own := reached.owned.workspace_eq found isWorkspace
  have foundAfter := (spared.types name owner (own ▸ TypeTable.drawsOn_self)).mpr found
  rw [← reachedAfter.getElem?_freeze] at foundAfter
  exact ⟨_, Catalog.workspace?_eq_some_iff.mpr ⟨owner, home, foundAfter, isWorkspace, rfl⟩⟩

variable (viewedAfter : after.freeze.workspace? name = some ws')
include viewedAfter

theorem ancestry_eq : ws'.ancestry = ws.ancestry := by
  rw [reachedAfter.ancestry_freeze viewedAfter, reached.ancestry_freeze viewed]
  exact spared.types.ancestry_eq reached.owned reachedAfter.owned

theorem defs_eq : ws'.defs = ws.defs := by
  rw [reachedAfter.defs_freeze viewedAfter, reached.defs_freeze viewed]
  exact spared.types.visibleDefs_eq reached.owned reachedAfter.owned

/-- A visible type may have moved to another position, but is found all the same. -/
theorem resolve_eq (other : QName) : ws'.resolve other = ws.resolve other := by
  have defs := spared.defs_eq reached reachedAfter viewed viewedAfter
  have found : ws'.visible[other]? = ws.visible[other]? := by
    refine Option.ext fun t => ?_
    rw [reachedAfter.visible_freeze viewedAfter, reached.visible_freeze viewed, defs]
  unfold WorkspaceView.resolve Window.resolve
  rw [found]

/-- New rules are declared outside the region, and so by none of the ancestors. -/
theorem rules_eq : ws'.rules = ws.rules := by
  have ancestry := spared.ancestry_eq reached reachedAfter viewed viewedAfter
  obtain ⟨frozen, _⟩ := reached.workspace?_of_viewed viewed
  obtain ⟨frozenAfter, _⟩ := reachedAfter.workspace?_of_viewed viewedAfter
  obtain ⟨added, longer, outside⟩ := spared.rules
  have noneAdded : added.filter (fun rule =>
      (draft.types.ancestry name).contains rule.workspace) = [] := by
    refine List.filter_eq_nil_iff.mpr fun rule listed inScope => outside rule listed (.inl ?_)
    exact TypeTable.mem_ancestry_iff.mp inScope
  unfold WorkspaceView.rules
  rw [ancestry, reached.ancestry_freeze viewed, frozen, frozenAfter]
  change after.rules.filter _ = draft.rules.filter _
  rw [longer, List.filter_append, noneAdded, List.append_nil]

theorem scope_eq : ws'.scope = ws.scope := by
  have defs := spared.defs_eq reached reachedAfter viewed viewedAfter
  have resolve := spared.resolve_eq reached reachedAfter viewed viewedAfter
  have rules := spared.rules_eq reached reachedAfter viewed viewedAfter
  have config : ws'.catalog.config = ws.catalog.config := by
    rw [(reached.workspace?_of_viewed viewed).1, (reachedAfter.workspace?_of_viewed viewedAfter).1]
    exact spared.config
  unfold WorkspaceView.scope
  rw [rules, defs, config, funext resolve]

end Views

end Draft.Spared

/-- Isolation of workspaces.  Take a draft that builds and one of its workspaces.  Edits that spare
what the workspace draws on do not change its answers in the catalog that is built after them. -/
theorem Draft.Reachable.isolated {draft : Draft} (reached : draft.Reachable) {catalog : Catalog}
    (made : draft.build = .ok catalog) {name : QName} {ws : WorkspaceView}
    (viewed : catalog.workspace? name = some ws) {edits : List Edit}
    (spares : ∀ edit ∈ edits, edit.Spares (draft.types.DrawsOn name)) {later : Catalog}
    (remade : (draft.applyAll edits).build = .ok later) :
    ∃ ws', later.workspace? name = some ws' ∧
      ws'.defs = ws.defs ∧
      (∀ other, ws'.inherits other = ws.inherits other) ∧
      (∀ operation resource fields principals,
        ws'.scope.query operation resource fields principals =
          ws.scope.query operation resource fields principals) ∧
      ∀ role, ws'.published role = ws.published role := by
  have reachedAfter := reached.applyAll edits
  obtain ⟨_, rfl⟩ := Draft.build_eq_ok_iff.mp made
  obtain ⟨_, rfl⟩ := Draft.build_eq_ok_iff.mp remade
  obtain ⟨_, _, isHome⟩ := reached.workspace?_of_viewed viewed
  have registered : ∀ other, draft.types.DrawsOn name other → draft.types[other]? ≠ none := by
    intro other draws free
    obtain ⟨_, isOther⟩ := reached.rooted.workspace_of_drawsOn isHome draws
    rw [TypeTable.workspace?_eq_none free] at isOther
    cases isOther
  have spared := reached.spared_applyAll registered spares
  obtain ⟨ws', viewedAfter⟩ := spared.exists_view reached reachedAfter viewed
  have ancestry := spared.ancestry_eq reached reachedAfter viewed viewedAfter
  have scope := spared.scope_eq reached reachedAfter viewed viewedAfter
  have defs := spared.defs_eq reached reachedAfter viewed viewedAfter
  refine ⟨ws', viewedAfter, defs, fun other => ?_, fun _ _ _ _ => by rw [scope], fun role => ?_⟩
  · unfold WorkspaceView.inherits
    rw [ancestry]
  · unfold WorkspaceView.published
    rw [scope, defs]

namespace Library

/-- Edits around `app`, which does not draw on `staff`: a branch below `app` takes the books from
readers, and `staff` comes to inherit from `base` and declares a command. -/
def editsAround : List Edit := [
  .addPackage "partner" "example.com/partner",
  .addWorkspace (name "branch"),
  .within (name "branch") (.setAncestors [name "app"]),
  .within (name "branch") (.addRule .deny [.select] (.names (.ofList [name "book"])) []
    (name "reader") ""),
  .within (name "staff") (.setAncestors [name "base"]),
  .within (name "staff") (.declare (name "order") .command),
  .within (name "staff") (.amend (name "order") (.setResult (name "book")))]

end Library

/-- Readers of `app` still see books. -/
theorem Draft.Reachable.isolated_app :
    ∃ ws', (Library.draft.applyAll Library.editsAround).freeze.workspace? (Library.name "app") =
        some ws' ∧
      ws'.scope.query .select (Library.name "book") ["title"] [Library.name "reader"] =
        .ok ⟨true, some ["title"]⟩ := by
  have made : Library.draft.build = .ok Library.catalog :=
    Draft.build_eq_ok_iff.mpr ⟨Library.findings_draft, rfl⟩
  have spares : ∀ edit ∈ Library.editsAround,
      edit.Spares (Library.draft.types.DrawsOn (Library.name "app")) := by decide +kernel
  have clean : (Library.draft.applyAll Library.editsAround).findings = [] :=
    List.isEmpty_iff.mp (by decide +kernel)
  obtain ⟨ws', viewed, _, _, same, _⟩ := Draft.Reachable.isolated
    ((Reachable.initial {}).applyAll Library.edits) made Library.viewed_app spares
    (Draft.build_eq_ok_iff.mpr ⟨clean, rfl⟩)
  refine ⟨ws', viewed, ?_⟩
  rw [same]
  decide +kernel

end TypeCatalog
