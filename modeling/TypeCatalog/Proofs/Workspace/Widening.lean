import TypeCatalog.Proofs.Workspace.Isolation

/-!
# What workspaces keep seeing

Of all edits only those that set ancestors take edges out of the graph of workspaces.  All others
let workspaces declare and use more, so that a workspace sees what it saw.  And where ancestors are
set, only the workspaces that draw on the one whose ancestors they are can come to see less.

* `TypeTable.Widens`: workspaces keep their ancestors, and declare and use what they did or more.
* `Draft.apply_widens`: all edits but those that set ancestors do no more than that.
* `Draft.Reachable.mem_visibleNames_apply`: what is visible stays so, unless ancestors are set that
  the workspace draws on.
-/

namespace TypeCatalog

/-! ## Wider workspaces -/

namespace Workspace

variable {home middle later : Workspace}

/-- The later workspace has the same ancestors, and declares and uses what the earlier one did. -/
structure Widens (home later : Workspace) : Prop where
  ancestors : later.ancestors = home.ancestors
  used : home.used ⊆ later.used
  locals : ∀ name ∈ home.locals, name ∈ later.locals

theorem Widens.refl (home : Workspace) : home.Widens home := ⟨rfl, List.Subset.refl _, fun _ => id⟩

theorem Widens.trans (first : home.Widens middle) (second : middle.Widens later) :
    home.Widens later where
  ancestors := second.ancestors.trans first.ancestors
  used := List.Subset.trans first.used second.used
  locals name listed := second.locals name (first.locals name listed)

theorem widens_addLocal (home : Workspace) (name : QName) : home.Widens (home.addLocal name) :=
  ⟨rfl, List.Subset.refl _, fun _ listed => mem_locals_addLocal.mpr (.inr listed)⟩

theorem widens_addUsed (home : Workspace) (name : QName) : home.Widens (home.addUsed name) := by
  unfold addUsed
  split
  next => exact .refl home
  next => exact ⟨rfl, List.subset_append_left _ _, fun _ => id⟩

theorem widens_foldl_addUsed (home : Workspace) (names : List QName) :
    home.Widens (names.foldl addUsed home) := by
  induction names generalizing home with
  | nil => exact .refl home
  | cons first rest ih => exact (home.widens_addUsed first).trans (ih _)

end Workspace

namespace TypeTable

variable {types middle after : TypeTable} {ws other name : QName}

/-- Every workspace of the earlier table is one of the later table, only wider. -/
def Widens (types after : TypeTable) : Prop :=
  ∀ (ws : QName) (home : Workspace), types.workspace? ws = some home →
    ∃ later, after.workspace? ws = some later ∧ home.Widens later

namespace Widens

theorem of_eq (same : after.workspace? = types.workspace?) : types.Widens after :=
  fun _ home isWorkspace => ⟨home, same ▸ isWorkspace, .refl home⟩

theorem refl (types : TypeTable) : types.Widens types := .of_eq rfl

theorem trans (first : types.Widens middle) (second : middle.Widens after) :
    types.Widens after := by
  intro ws home isWorkspace
  obtain ⟨home₁, isWorkspace₁, widens₁⟩ := first ws home isWorkspace
  obtain ⟨home₂, isWorkspace₂, widens₂⟩ := second ws home₁ isWorkspace₁
  exact ⟨home₂, isWorkspace₂, widens₁.trans widens₂⟩

variable (widens : types.Widens after)
include widens

theorem parents (leads : other ∈ types.parents ws) : other ∈ after.parents ws := by
  obtain ⟨home, isWorkspace⟩ := exists_workspace_of_mem_parents leads
  obtain ⟨later, isLater, wider⟩ := widens ws home isWorkspace
  rw [parents_of_workspace? isWorkspace] at leads
  rw [parents_of_workspace? isLater]
  unfold Workspace.ancestorsOf at leads ⊢
  rw [wider.ancestors]
  exact leads

theorem usedBy (uses : other ∈ types.usedBy ws) : other ∈ after.usedBy ws := by
  cases isWorkspace : types.workspace? ws with
  | none =>
      unfold TypeTable.usedBy at uses
      rw [isWorkspace] at uses
      cases uses
  | some home =>
      obtain ⟨later, isLater, wider⟩ := widens ws home isWorkspace
      rw [usedBy_of_workspace? isWorkspace] at uses
      rw [usedBy_of_workspace? isLater]
      exact wider.used uses

theorem localNames (listed : name ∈ types.localNames ws) : name ∈ after.localNames ws := by
  obtain ⟨home, isWorkspace, among⟩ := mem_localNames_iff.mp listed
  obtain ⟨later, isLater, wider⟩ := widens ws home isWorkspace
  exact mem_localNames_iff.mpr ⟨later, isLater, wider.locals name among⟩

theorem inherits (inherits : types.Inherits ws other) : after.Inherits ws other := by
  induction inherits with
  | refl => exact .refl
  | tail _ leads ih => exact ih.tail (widens.parents leads)

theorem drawsOn (draws : types.DrawsOn ws other) : after.DrawsOn ws other := by
  rcases draws with inherits | ⟨used, uses, inherits⟩
  · exact .inl (widens.inherits inherits)
  · exact .inr ⟨used, widens.usedBy uses, widens.inherits inherits⟩

/-- In a wider table a workspace sees at least as much. -/
theorem mem_visibleNames (visible : name ∈ types.visibleNames ws) :
    name ∈ after.visibleNames ws := by
  obtain ⟨other, draws, listed⟩ := mem_visibleNames_iff.mp visible
  exact mem_visibleNames_iff.mpr ⟨other, widens.drawsOn draws, widens.localNames listed⟩

end Widens

end TypeTable

/-! ## Edits that set no ancestors -/

namespace Draft

variable {draft : Draft} {name ws : QName} {t changed owner : TypeDef} {home later : Workspace}

theorem widens_withType_of_same (found : draft.types[name]? = some t)
    (same : changed.workspace? = t.workspace?) :
    draft.types.Widens (draft.withType name changed).types :=
  .of_eq (workspace?_withType_of_same found same)

/-- Only the workspace that is put into the table has to be looked at. -/
theorem widens_withType (found : draft.types[ws]? = some owner)
    (isWorkspace : owner.body = .workspace home) (becomes : changed.body = .workspace later)
    (wider : home.Widens later) : draft.types.Widens (draft.withType ws changed).types := by
  intro other body isOther
  rw [workspace?_withType, Function.update_apply]
  split
  next same =>
    rw [same, workspace?_eq_some_of_body found isWorkspace] at isOther
    cases isOther
    exact ⟨later, TypeDef.workspace?_eq_some_iff.mpr becomes, wider⟩
  next => exact ⟨body, isOther, .refl body⟩

theorem widens_withType_of_free (free : draft.isBound name = false) (t : TypeDef) :
    draft.types.Widens (draft.withType name t).types := by
  intro other body isOther
  have apart : other ≠ name := by
    intro same
    rw [same, TypeTable.workspace?_eq_none (getElem?_eq_none_of_isBound free).2] at isOther
    cases isOther
  rw [workspace?_withType, Function.update_of_ne apart]
  exact ⟨body, isOther, .refl body⟩

/-- Of the edits of a workspace only one takes ancestors away. -/
theorem run_within_widens {edit : WorkspaceEdit}
    (opened : draft.findWorkspace ws = .ok home)
    (keeps : ∀ ancestors, edit ≠ .setAncestors ancestors) :
    Build.Yields (edit.run ws) draft fun _ after => draft.types.Widens after.types := by
  obtain ⟨owner, foundOwner, isHome⟩ := findWorkspace_eq_ok_iff.mp opened
  cases edit with
  | declare name declaration =>
      refine Build.declare_yields fun kind body owner home valid free made found isWorkspace => ?_
      have listed : draft.types.Widens (draft.withType ws { owner with
          body := .workspace (home.addLocal name) }).types :=
        widens_withType found isWorkspace rfl (home.widens_addLocal name)
      exact listed.trans (widens_withType_of_free ((isBound_withType found _ name).trans free) _)
  | amend name edit =>
      refine Build.amend_yields fun t found _ _ => ?_
      refine edit.run_yields found (fun changed step => ?_) fun _ _ s changed body _ _ _ => ?_
      · exact widens_withType_of_same found step.workspace?_eq
      · refine widens_withType_of_same found ?_
        unfold TypeDef.workspace?
        rw [body]
  | setAncestors ancestors => exact absurd rfl (keeps ancestors)
  | useWorkspaces used =>
      exact Build.useWorkspaces_yields fun _ home found isWorkspace _ =>
        widens_withType found isWorkspace rfl (home.widens_foldl_addUsed used)
  | setDescriptor descriptor =>
      exact Build.setDescriptor_yields fun _ _ found isWorkspace _ _ =>
        widens_withType found isWorkspace rfl ⟨rfl, List.Subset.refl _, fun _ => id⟩
  | setAbstract | setComment _ =>
      refine Build.updateType_yields foundOwner fun changed made => ?_
      cases made
      exact widens_withType_of_same foundOwner rfl
  | addRule policy operations selector fields principal comment =>
      exact Build.addRule_yields fun _ _ => .refl _
  | addBlanketRule policy selector principal comment =>
      exact Build.addBlanketRule_yields fun _ _ => .refl _

theorem run_widens {edit : Edit}
    (keeps : ∀ ws ancestors, edit ≠ .within ws (.setAncestors ancestors)) :
    Build.Yields edit.run draft fun _ after => draft.types.Widens after.types := by
  refine edit.run_yields_of (.refl _) (fun _ => .refl _)
    (fun _ _ free => widens_withType_of_free free _) (fun isWithin opened => ?_)
    fun _ found => widens_withType_of_same found rfl
  refine run_within_widens opened fun ancestors same => ?_
  exact keeps _ ancestors (same ▸ isWithin)

/-- Of all edits only those that set ancestors take some away. -/
theorem apply_widens {edit : Edit}
    (keeps : ∀ ws ancestors, edit ≠ .within ws (.setAncestors ancestors)) :
    draft.types.Widens (draft.apply edit).2.types :=
  apply_of_yields (run_widens keeps) (.refl _)

/-! ## Edits that set ancestors -/

/-- Setting the ancestors of a workspace is not felt where nothing is drawn from it. -/
theorem Reachable.visibleNames_apply_of_apart (reached : Reachable draft)
    (isWorkspace : draft.types.workspace? ws = some home) {target : QName} {edit : WorkspaceEdit}
    (apart : ¬ draft.types.DrawsOn ws target) :
    (draft.apply (.within target edit)).2.types.visibleNames ws = draft.types.visibleNames ws := by
  have registered : ∀ name, draft.types.DrawsOn ws name → draft.types[name]? ≠ none := by
    intro name draws free
    obtain ⟨body, isBody⟩ := reached.rooted.workspace_of_drawsOn isWorkspace draws
    rw [TypeTable.workspace?_eq_none free] at isBody
    cases isBody
  have spared := apply_spared reached.owned registered
    (show Edit.Spares (draft.types.DrawsOn ws) (.within target edit) from apart)
  exact spared.types.visibleNames_eq reached.owned (reached.apply _).owned

/-- What a workspace sees it sees after an edit as well, unless the edit sets the ancestors of a
workspace that it draws on. -/
theorem Reachable.mem_visibleNames_apply (reached : Reachable draft)
    (isWorkspace : draft.types.workspace? ws = some home)
    (visible : name ∈ draft.types.visibleNames ws) (edit : Edit) :
    name ∈ (draft.apply edit).2.types.visibleNames ws ∨
      ∃ target ancestors, edit = .within target (.setAncestors ancestors) ∧
        draft.types.DrawsOn ws target := by
  by_cases sets : ∃ target ancestors, edit = .within target (.setAncestors ancestors)
  · obtain ⟨target, ancestors, rfl⟩ := sets
    by_cases draws : draft.types.DrawsOn ws target
    · exact .inr ⟨target, ancestors, rfl, draws⟩
    · left
      rw [reached.visibleNames_apply_of_apart isWorkspace draws]
      exact visible
  · left
    have keeps : ∀ target ancestors, edit ≠ .within target (.setAncestors ancestors) :=
      fun target ancestors same => sets ⟨target, ancestors, same⟩
    exact (apply_widens keeps).mem_visibleNames visible

end Draft

end TypeCatalog
