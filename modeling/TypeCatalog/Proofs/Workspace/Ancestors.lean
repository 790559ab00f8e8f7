import TypeCatalog.Proofs.BuiltCatalog
import TypeCatalog.Proofs.Workspace.Ownership

/-!
# All workspaces inherit from the root

Ancestors can be set again and again, and the edge from a workspace to the root is there only as
long as nothing else is set.  The candidates for new ancestors are checked against the graph as it
is before; `TypeTable.Rooted` is what this check preserves.

* `TypeTable.Rooted`: no workspace inherits from itself, edges lead to workspaces only, and every
  path upwards can be continued to the root, which has no ancestors.
* `TypeTable.Rooted.redirect`: what has to be checked when the ancestors of one workspace are
  replaced.
* `Draft.Reachable.inherits_root`: what the root declares is visible everywhere.
-/

namespace TypeCatalog

open Relation (ReflTransGen TransGen)

namespace TypeTable

variable {types after : TypeTable} {ws name : QName} {home later : Workspace}

/-! ## Changed workspaces -/

theorem parents_eq_of_workspace? (same : after.workspace? = types.workspace?) :
    after.parents = types.parents := by
  funext name
  unfold parents
  rw [same]

theorem usedBy_eq_of_workspace? (same : after.workspace? = types.workspace?) :
    after.usedBy = types.usedBy := by
  funext name
  unfold usedBy
  rw [same]

section Update

variable (changed : after.workspace? = Function.update types.workspace? ws (some later))
include changed

theorem parents_of_update :
    after.parents = Function.update types.parents ws (later.ancestorsOf ws) := by
  funext name
  unfold parents
  rw [changed]
  by_cases same : name = ws
  · subst same
    rw [Function.update_self, Function.update_self]
  · rw [Function.update_of_ne same, Function.update_of_ne same]

theorem usedBy_of_update : after.usedBy = Function.update types.usedBy ws later.used := by
  funext name
  unfold usedBy
  rw [changed]
  by_cases same : name = ws
  · subst same
    rw [Function.update_self, Function.update_self]
  · rw [Function.update_of_ne same, Function.update_of_ne same]

theorem exists_workspace_of_update (isWorkspace : ∃ home, types.workspace? name = some home) :
    ∃ home, after.workspace? name = some home := by
  rw [changed]
  by_cases same : name = ws
  · subst same
    exact ⟨later, Function.update_self ..⟩
  · rw [Function.update_of_ne same]
    exact isWorkspace

end Update

/-! ## Rooted graphs -/

/-- The graph of workspaces leads up to the root. -/
structure Rooted (types : TypeTable) : Prop where
  acyclic : ∀ ws, ¬ TransGen (StepsTo types.parents) ws ws
  root : ∃ home, types.workspace? .sysWorkspace = some home
  top : types.parents .sysWorkspace = []
  parents : ∀ {ws other : QName}, other ∈ types.parents ws →
    ∃ home, types.workspace? other = some home
  used : ∀ {ws other : QName}, other ∈ types.usedBy ws →
    ∃ home, types.workspace? other = some home
  rooted : ∀ {ws : QName} {home : Workspace}, types.workspace? ws = some home →
    types.Inherits ws .sysWorkspace

namespace Rooted

theorem used_of_workspace? (rooted : types.Rooted) (isHome : types.workspace? ws = some home) :
    ∀ name ∈ home.used, ∃ body, types.workspace? name = some body := by
  rw [← usedBy_of_workspace? isHome]
  exact fun name isUsed => rooted.used isUsed

/-- A rooted graph stays so when a workspace is changed that keeps its ancestors. -/
theorem keep (rooted : types.Rooted) (isHome : types.workspace? ws = some home)
    (changed : after.workspace? = Function.update types.workspace? ws (some later))
    (ancestors : later.ancestors = home.ancestors)
    (used : ∀ name ∈ later.used, ∃ home, types.workspace? name = some home) : after.Rooted := by
  have same : after.parents = types.parents := by
    have kept : later.ancestorsOf ws = types.parents ws := by
      rw [parents_of_workspace? isHome]
      unfold Workspace.ancestorsOf
      rw [ancestors]
    rw [parents_of_update changed, kept, Function.update_eq_self]
  refine {
    acyclic := same ▸ rooted.acyclic
    root := exists_workspace_of_update changed rooted.root
    top := same ▸ rooted.top
    parents := fun leads => exists_workspace_of_update changed (rooted.parents (same ▸ leads))
    used := fun {ws' other} isUsed => ?_
    rooted := fun {ws' home'} isWorkspace => ?_ }
  · refine exists_workspace_of_update changed ?_
    rw [usedBy_of_update changed, Function.update_apply] at isUsed
    split at isUsed
    next => exact used other isUsed
    next => exact rooted.used isUsed
  · unfold Inherits
    rw [same]
    rw [changed, Function.update_apply] at isWorkspace
    split at isWorkspace
    next isWs => exact rooted.rooted (isWs ▸ isHome)
    next => exact rooted.rooted isWorkspace

/-- A rooted graph stays so when the ancestors of a workspace are replaced, or a workspace is
added, if there are ancestors and none of them inherits from that workspace. -/
theorem redirect (rooted : types.Rooted)
    (changed : after.workspace? = Function.update types.workspace? ws (some later))
    (nonempty : later.ancestorsOf ws ≠ [])
    (above : ∀ next ∈ later.ancestorsOf ws,
      (∃ home, types.workspace? next = some home) ∧ ¬ types.Inherits next ws)
    (used : ∀ name ∈ later.used, ∃ home, types.workspace? name = some home) : after.Rooted := by
  have redirected := parents_of_update changed
  have same : ∀ name, name ≠ ws → after.parents name = types.parents name := by
    intro name apart
    rw [redirected, Function.update_of_ne apart]
  have atWs : after.parents ws = later.ancestorsOf ws := by rw [redirected, Function.update_self]
  obtain ⟨next, leads⟩ := List.exists_mem_of_ne_nil _ nonempty
  obtain ⟨⟨_, isWorkspace⟩, away⟩ := above next leads
  have onward := rooted.rooted isWorkspace
  have notRoot : QName.sysWorkspace ≠ ws := by
    intro isRoot
    exact away (isRoot ▸ onward)
  rw [← atWs] at leads above
  refine {
    acyclic := acyclic_of_redirected same rooted.acyclic fun next leads => (above next leads).2
    root := exists_workspace_of_update changed rooted.root
    top := (same _ notRoot).trans rooted.top
    parents := fun {ws' other} up => exists_workspace_of_update changed ?_
    used := fun {ws' other} isUsed => exists_workspace_of_update changed ?_
    rooted := fun {ws' home'} isWorkspace => ?_ }
  · by_cases isWs : ws' = ws
    · exact (above other (isWs ▸ up)).1
    · rw [same ws' isWs] at up
      exact rooted.parents up
  · rw [usedBy_of_update changed, Function.update_apply] at isUsed
    split at isUsed
    next => exact used other isUsed
    next => exact rooted.used isUsed
  · rw [changed, Function.update_apply] at isWorkspace
    split at isWorkspace
    next isWs =>
      rw [isWs]
      exact .head leads (reaches_of_avoids same onward away)
    next => exact reaches_of_redirected same (rooted.rooted isWorkspace) leads onward away

end Rooted

end TypeTable

namespace Draft

variable {draft : Draft} {ws : QName} {home later : Workspace}

/-! ## What is checked -/

/-- The accepted ancestors are workspaces that do not inherit from the workspace, and if there are
candidates, some are accepted. -/
theorem above_of_checkAncestors {accepted candidates result : List QName}
    (checked : Build.checkAncestors draft ws accepted candidates = .ok result)
    (before : ∀ next ∈ accepted,
      (∃ home, draft.types.workspace? next = some home) ∧ ¬ draft.types.Inherits next ws) :
    (∀ next ∈ result,
      (∃ home, draft.types.workspace? next = some home) ∧ ¬ draft.types.Inherits next ws) ∧
    (accepted ≠ [] ∨ candidates ≠ [] → result ≠ []) := by
  induction candidates generalizing accepted with
  | nil =>
      cases checked
      exact ⟨before, by simp⟩
  | cons candidate rest ih =>
      unfold Build.checkAncestors at checked
      obtain ⟨home, opened, checked⟩ := Check.bind_eq_ok_iff.mp checked
      obtain ⟨apart, checked⟩ := Check.unless_eq_ok_iff.mp checked
      have isAbove : (∃ home, draft.types.workspace? candidate = some home) ∧
          ¬ draft.types.Inherits candidate ws := by
        refine ⟨⟨home, findWorkspace_eq_ok_iff_workspace?.mp opened⟩, ?_⟩
        rw [← TypeTable.mem_ancestry_iff]
        exact apart
      obtain ⟨allAbove, grown⟩ := ih checked (by grind)
      refine ⟨allAbove, fun _ => grown (.inl ?_)⟩
      split
      next isThere => exact List.ne_nil_of_mem (List.contains_iff_mem.mp isThere)
      next => simp

theorem exists_workspace_of_checkWorkspaces {names : List QName}
    (checked : draft.checkWorkspaces names = .ok ()) :
    ∀ name ∈ names, ∃ home, draft.types.workspace? name = some home := by
  induction names with
  | nil => simp
  | cons name rest ih =>
      unfold checkWorkspaces at checked
      obtain ⟨home, opened, checked⟩ := Check.bind_eq_ok_iff.mp checked
      intro other listed
      rcases List.mem_cons.mp listed with rfl | later
      · exact ⟨home, findWorkspace_eq_ok_iff_workspace?.mp opened⟩
      · exact ih checked other later

/-! ## Reachable drafts are rooted -/

theorem rooted_initial (config : Config) : (initial config).types.Rooted := by
  have bare : ∀ ws, (initial config).types.parents ws = [] := by
    intro ws
    unfold TypeTable.parents
    cases isWorkspace : (initial config).types.workspace? ws with
    | none => rfl
    | some home =>
        obtain ⟨rfl, isRoot⟩ := workspace?_initial_iff.mp isWorkspace
        cases isRoot
        rfl
  have isRoot : ∃ home, (initial config).types.workspace? .sysWorkspace = some home :=
    ⟨_, workspace?_initial_iff.mpr ⟨rfl, rfl⟩⟩
  refine {
    acyclic := fun ws cycle => ?_
    root := isRoot
    top := bare _
    parents := fun leads => by rw [bare] at leads; cases leads
    used := fun {ws other} isUsed => ?_
    rooted := fun isWorkspace => (workspace?_initial_iff.mp isWorkspace).1 ▸ .refl }
  · obtain ⟨next, leads, _⟩ := TransGen.head'_iff.mp cycle
    unfold StepsTo at leads
    rw [bare] at leads
    cases leads
  · unfold TypeTable.usedBy at isUsed
    cases isWorkspace : (initial config).types.workspace? ws with
    | none =>
        rw [isWorkspace] at isUsed
        cases isUsed
    | some home =>
        obtain ⟨rfl, isRoot⟩ := workspace?_initial_iff.mp isWorkspace
        cases isRoot
        rw [isWorkspace] at isUsed
        cases isUsed

theorem GraphStep.rooted {after : TypeTable} (step : GraphStep draft after)
    (rooted : draft.types.Rooted) : after.Rooted := by
  cases step with
  | kept workspaces owners =>
      have parents := TypeTable.parents_eq_of_workspace? workspaces
      have used := TypeTable.usedBy_eq_of_workspace? workspaces
      exact {
        acyclic := parents ▸ rooted.acyclic
        root := workspaces ▸ rooted.root
        top := parents ▸ rooted.top
        parents := parents ▸ workspaces ▸ rooted.parents
        used := used ▸ workspaces ▸ rooted.used
        rooted := by
          unfold TypeTable.Inherits
          rw [parents, workspaces]
          exact rooted.rooted }
  | @created name free workspaces owners =>
      have isNew : draft.types.workspace? name = none := TypeTable.workspace?_eq_none free
      have apart : name ≠ .sysWorkspace := by
        intro isRoot
        obtain ⟨_, isWorkspace⟩ := rooted.root
        rw [← isRoot, isNew] at isWorkspace
        cases isWorkspace
      have onlyRoot : (Workspace.addLocal {} name).ancestorsOf name = [.sysWorkspace] :=
        if_neg apart
      refine rooted.redirect workspaces (by simp [onlyRoot]) (fun next leads => ?_)
        (by simp [Workspace.addLocal])
      rw [onlyRoot, List.mem_singleton] at leads
      subst leads
      refine ⟨rooted.root, fun inherits => ?_⟩
      rcases ReflTransGen.cases_head inherits with isRoot | ⟨_, leads, _⟩
      · exact apart isRoot.symm
      · unfold StepsTo at leads
        rw [rooted.top] at leads
        cases leads
  | declared isHome free workspaces owners =>
      have formerUsed := rooted.used_of_workspace? isHome
      exact rooted.keep isHome workspaces rfl formerUsed
  | @rewired ws home later isHome step workspaces owners =>
      have formerUsed := rooted.used_of_workspace? isHome
      cases step with
      | @ancestors candidates accepted nonempty checked =>
          obtain ⟨above, grown⟩ := above_of_checkAncestors checked (by simp)
          have some := grown (.inr nonempty)
          have set : Workspace.ancestorsOf { home with ancestors := accepted } ws = accepted := by
            unfold Workspace.ancestorsOf
            rw [if_pos (by simpa using some)]
          refine rooted.redirect workspaces ?_ ?_ formerUsed
          · rw [set]
            exact some
          · rw [set]
            exact above
      | @used names checked =>
          obtain ⟨used, same, among⟩ := home.foldl_addUsed_eq names
          refine rooted.keep isHome workspaces (by rw [same]) fun name isUsed => ?_
          rw [same] at isUsed
          rcases among name isUsed with old | new
          · exact formerUsed name old
          · exact exists_workspace_of_checkWorkspaces checked name new
      | described descriptor => exact rooted.keep isHome workspaces rfl formerUsed

theorem Reachable.rooted (reached : Reachable draft) : draft.types.Rooted :=
  reached.invariant rooted_initial fun _ _ rooted step => step.graph.rooted rooted

end Draft

/-! ## What the root declares -/

namespace TypeTable

variable {types : TypeTable} {ws name : QName} {home : Workspace} {t : TypeDef}

/-- The ancestors that were set are the ancestors, as long as any are set. -/
theorem Rooted.ancestors_of_workspace? (rooted : types.Rooted)
    (isHome : types.workspace? ws = some home) :
    ∀ name ∈ home.ancestors, ∃ body, types.workspace? name = some body := by
  intro name isSet
  have leads : name ∈ types.parents ws := by
    rw [parents_of_workspace? isHome]
    unfold Workspace.ancestorsOf
    rw [if_pos (by simpa using List.ne_nil_of_mem isSet)]
    exact isSet
  exact rooted.parents leads

theorem Rooted.ancestors_root (rooted : types.Rooted)
    (isHome : types.workspace? .sysWorkspace = some home) : home.ancestors = [] := by
  have top := rooted.top
  rw [parents_of_workspace? isHome] at top
  unfold Workspace.ancestorsOf at top
  split at top
  next => exact top
  next isEmpty => simpa using isEmpty

/-- What the root declares is visible from whatever inherits from it. -/
theorem mem_visibleNames_of_root (owned : types.Owned) (inherits : types.Inherits ws .sysWorkspace)
    (found : types[name]? = some t) (declared : t.workspace = .sysWorkspace) :
    name ∈ types.visibleNames ws := by
  refine mem_visibleNames_iff.mpr ⟨.sysWorkspace, .inl inherits, ?_⟩
  exact owned.listed.mpr (owner?_eq_some_iff.mpr ⟨t, found, declared⟩)

/-- A visible name of a type is answered with the type. -/
theorem visible?_eq_some_of_mem (anyFree : types[QName.any]? = none)
    (visible : name ∈ types.visibleNames ws) (found : types[name]? = some t) :
    types.visible? ws name = some t := by
  have apart : name ≠ .any := by
    intro same
    subst same
    rw [anyFree] at found
    cases found
  unfold visible?
  rw [if_neg apart, if_pos (sees_iff_mem_visibleNames.mpr visible), found]

end TypeTable

/-- Whatever edits were made, whether or not they succeeded: no workspace inherits from itself;
the ancestors and used workspaces of a workspace are workspaces; the root has no ancestors; and
every workspace inherits from the root and sees all that the root declares. -/
theorem Draft.Reachable.inherits_root {draft : Draft} (reached : draft.Reachable) :
    (∀ ws, ¬ TransGen (StepsTo draft.types.parents) ws ws) ∧
    (∀ ws home, draft.types.workspace? ws = some home →
      ∀ other, other ∈ home.ancestors ∨ other ∈ home.used →
        ∃ body, draft.types.workspace? other = some body) ∧
    (∃ root, draft.types.workspace? .sysWorkspace = some root ∧ root.ancestors = [] ∧
      draft.types.parents .sysWorkspace = []) ∧
    (∀ ws home, draft.types.workspace? ws = some home →
      .sysWorkspace ∈ draft.types.ancestry ws ∧
      ∀ name t, draft.types[name]? = some t → t.workspace = .sysWorkspace →
        draft.types.visible? ws name = some t ∧ t ∈ draft.types.visibleDefs ws) := by
  have rooted := reached.rooted
  refine ⟨rooted.acyclic, fun ws home isHome other leads => ?_, ?_, fun ws home isHome => ?_⟩
  · rcases leads with isAncestor | isUsed
    · exact rooted.ancestors_of_workspace? isHome other isAncestor
    · exact rooted.used_of_workspace? isHome other isUsed
  · obtain ⟨root, isRoot⟩ := rooted.root
    exact ⟨root, isRoot, rooted.ancestors_root isRoot, rooted.top⟩
  · have inherits := rooted.rooted isHome
    refine ⟨TypeTable.mem_ancestry_iff.mpr inherits, fun name t found declared => ?_⟩
    have visible := TypeTable.mem_visibleNames_of_root reached.owned inherits found declared
    exact ⟨TypeTable.visible?_eq_some_of_mem reached.wellFormed.wildcardFree visible found,
      TypeTable.mem_visibleDefs_iff.mpr ⟨name, visible, found⟩⟩

/-- Edits that would put the root and `base` below `app`, which inherits from both. -/
def Library.inversions : List Edit := [
  .within .sysWorkspace (.setAncestors [Library.name "app"]),
  .within (Library.name "base") (.setAncestors [Library.name "app"])]

/-- Both edits are refused, and `app` still inherits from a root without ancestors. -/
theorem Draft.Reachable.inherits_root_inversions :
    (∀ edit ∈ Library.inversions, (Library.draft.apply edit).1.isOk = false) ∧
    ¬ TransGen (StepsTo (Library.draft.applyAll Library.inversions).types.parents)
      (Library.name "app") (Library.name "app") ∧
    .sysWorkspace ∈ (Library.draft.applyAll Library.inversions).types.ancestry
      (Library.name "app") ∧
    (Library.draft.applyAll Library.inversions).types.parents .sysWorkspace = [] := by
  have reached : (Library.draft.applyAll Library.inversions).Reachable :=
    ((Reachable.initial {}).applyAll Library.edits).applyAll Library.inversions
  have isWorkspace : ((Library.draft.applyAll Library.inversions).types.workspace?
      (Library.name "app")).isSome = true := by decide +kernel
  obtain ⟨home, isHome⟩ := Option.isSome_iff_exists.mp isWorkspace
  obtain ⟨acyclic, _, ⟨_, _, _, top⟩, inherits⟩ := Draft.Reachable.inherits_root reached
  exact ⟨by decide +kernel, acyclic _, (inherits _ home isHome).1, top⟩

end TypeCatalog
