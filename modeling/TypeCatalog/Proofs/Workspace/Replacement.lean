import TypeCatalog.Proofs.Draft.Refusal
import TypeCatalog.Proofs.Workspace.Ancestors

/-!
# Replacing the ancestors of a workspace

Candidates for new ancestors are checked against the graph as it is, with the edges that the
workspace is about to lose.  This refuses neither too much nor too little: a path that comes back
to the workspace comes back for the first time before it takes any of these edges.

* `acyclic_update_iff`: replacing the steps from one name closes a cycle just if one of the new
  steps leads to a name that led back before.
* `Draft.checkAncestors_eq_ok_iff`, `Draft.checkAncestors_eq_error`: which candidates are accepted
  and in what order, and which of them a refusal is about.
* `Draft.Reachable.replaced_iff_acyclic`: ancestors can be replaced just if no cycle comes about.
-/

namespace TypeCatalog

open Relation (ReflTransGen TransGen)

/-! ## Acyclic graphs -/

/-- No name is come back to. -/
def Acyclic (step : QName → List QName) : Prop := ∀ name, ¬ TransGen (StepsTo step) name name

theorem acyclic_update_iff {step : QName → List QName} {hub : QName} {targets : List QName}
    (acyclic : Acyclic step) :
    Acyclic (Function.update step hub targets) ↔
      ∀ next ∈ targets, ¬ ReflTransGen (StepsTo step) next hub := by
  have same : ∀ name, name ≠ hub → Function.update step hub targets name = step name :=
    fun name apart => Function.update_of_ne apart ..
  have atHub : Function.update step hub targets hub = targets := Function.update_self ..
  constructor
  · intro stays next listed back
    have leads : StepsTo (Function.update step hub targets) hub next := by
      unfold StepsTo
      rw [atHub]
      exact listed
    exact stays hub (.head' leads (reaches_hub same back))
  · intro away
    rw [← atHub] at away
    exact acyclic_of_redirected same acyclic away

/-! ## Accepted candidates -/

namespace Draft

variable {draft : Draft} {ws : QName} {home : Workspace}

/-- A candidate that was accepted before is not entered again. -/
theorem eraseDups_entered (accepted rest : List QName) (candidate : QName) :
    accepted ++ ((candidate :: rest).removeAll accepted).eraseDups =
      (if accepted.contains candidate then accepted else accepted ++ [candidate]) ++
        (rest.removeAll (if accepted.contains candidate then accepted
          else accepted ++ [candidate])).eraseDups := by
  by_cases entered : candidate ∈ accepted
  · simp [List.cons_removeAll, entered]
  · have later : rest.removeAll (accepted ++ [candidate]) =
        (rest.removeAll accepted).filter fun other => !other == candidate := by
      unfold List.removeAll
      rw [List.filter_filter]
      refine List.filter_congr fun other _ => ?_
      by_cases same : other = candidate <;> simp [same]
    simp [List.cons_removeAll, List.eraseDups_cons, entered, later]

/-- Candidates are accepted if they are workspaces that do not inherit from the workspace, and
they are entered in order, each when it comes up first. -/
theorem checkAncestors_eq_ok_iff {accepted candidates result : List QName} :
    Build.checkAncestors draft ws accepted candidates = .ok result ↔
      (∀ candidate ∈ candidates, (∃ home, draft.types.workspace? candidate = some home) ∧
        ¬ draft.types.Inherits candidate ws) ∧
      accepted ++ (candidates.removeAll accepted).eraseDups = result := by
  induction candidates generalizing accepted with
  | nil => simp [Build.checkAncestors, List.removeAll]
  | cons candidate rest ih =>
      unfold Build.checkAncestors
      simp only [Check.bind_eq_ok_iff, Check.unless_eq_ok_iff, ih,
        findWorkspace_eq_ok_iff_workspace?, Std.ExtTreeSet.contains_iff_mem,
        TypeTable.mem_ancestry_iff, List.forall_mem_cons, eraseDups_entered]
      grind

/-- Among workspaces the first that inherits from the workspace is refused. -/
theorem checkAncestors_eq_error {accepted candidates : List QName} {error : DefinitionError}
    (workspaces : ∀ candidate ∈ candidates, ∃ home, draft.types.workspace? candidate = some home)
    (refused : Build.checkAncestors draft ws accepted candidates = .error error) :
    ∃ candidate, candidates.find? (fun other => draft.types.Inherits other ws) = some candidate ∧
      error = .circularInheritance ws candidate := by
  induction candidates generalizing accepted with
  | nil => cases refused
  | cons candidate rest ih =>
      obtain ⟨⟨home, isHome⟩, others⟩ := List.forall_mem_cons.mp workspaces
      have opened := findWorkspace_eq_ok_iff_workspace?.mpr isHome
      unfold Build.checkAncestors at refused
      rw [opened] at refused
      by_cases inherits : draft.types.Inherits candidate ws
      · have contained : (draft.types.ancestry candidate).contains ws = true :=
          Std.ExtTreeSet.contains_iff_mem.mpr (TypeTable.mem_ancestry_iff.mpr inherits)
        change (if (draft.types.ancestry candidate).contains ws = true then _ else _) = _ at refused
        rw [if_pos contained] at refused
        cases refused
        exact ⟨candidate, by simp [inherits], rfl⟩
      · have apart : ¬ (draft.types.ancestry candidate).contains ws = true := by
          rwa [Std.ExtTreeSet.contains_iff_mem, TypeTable.mem_ancestry_iff]
        change (if (draft.types.ancestry candidate).contains ws = true then _ else _) = _ at refused
        rw [if_neg apart] at refused
        obtain ⟨first, isFirst, same⟩ := ih others refused
        exact ⟨first, by simp [inherits, isFirst], same⟩

/-! ## Replaced ancestors -/

/-- What comes of giving a workspace other ancestors. -/
def replaceAncestors (draft : Draft) (ws : QName) (candidates : List QName) :
    Except DefinitionError Unit × Draft :=
  draft.apply (.within ws (.setAncestors candidates))

section

variable {owner : TypeDef} {candidates : List QName} (found : draft.types[ws]? = some owner)
  (isWorkspace : owner.body = .workspace home) (nonempty : candidates ≠ [])
include found isWorkspace nonempty

/-- Once the workspace is opened, the candidates are all that can be wrong. -/
theorem run_setAncestors :
    (Edit.within ws (.setAncestors candidates)).run draft =
      (liftM (Build.checkAncestors draft ws [] candidates) >>= fun accepted =>
        Build.updateWorkspace ws fun body => { body with ancestors := accepted }) draft := by
  have opened := findWorkspace_eq_ok_iff.mpr ⟨owner, found, isWorkspace⟩
  have some : ¬ candidates.isEmpty = true := by simpa using nonempty
  change (get >>= fun draft => liftM (draft.findWorkspace ws) >>= fun _ =>
    Build.setAncestors ws candidates) draft = _
  rw [Build.run_get, Build.run_check opened]
  unfold Build.setAncestors
  rw [if_neg some]
  exact Build.run_check opened

theorem replaceAncestors_of_ok {accepted : List QName}
    (checked : Build.checkAncestors draft ws [] candidates = .ok accepted) :
    draft.replaceAncestors ws candidates = (.ok (), draft.withType ws { owner with
      body := .workspace { home with ancestors := accepted } }) := by
  unfold replaceAncestors apply
  rw [run_setAncestors found isWorkspace nonempty, Build.run_check checked,
    Build.updateWorkspace_run found isWorkspace]

theorem replaceAncestors_of_error {error : DefinitionError}
    (refused : Build.checkAncestors draft ws [] candidates = .error error) :
    draft.replaceAncestors ws candidates = (.error error, draft) := by
  unfold replaceAncestors apply
  rw [run_setAncestors found isWorkspace nonempty, refused]
  rfl

end

/-- The ancestors of a workspace can be replaced just if all candidates are workspaces and the graph
stays without cycles.  A refusal among workspaces is about the first candidate that inherits from
the workspace or is it.  Then nothing changes; otherwise nothing but the ancestors does, and they
are the candidates, each where it comes up first. -/
theorem Reachable.replaced_iff_acyclic (reached : draft.Reachable) {owner : TypeDef}
    (found : draft.types[ws]? = some owner) (isWorkspace : owner.body = .workspace home)
    {candidates : List QName} (nonempty : candidates ≠ []) :
    ((draft.replaceAncestors ws candidates).1 = .ok () ↔
      (∀ name ∈ candidates, ∃ body, draft.types.workspace? name = some body) ∧
        Acyclic (Function.update draft.types.parents ws candidates)) ∧
    ((∀ name ∈ candidates, ∃ body, draft.types.workspace? name = some body) →
      (draft.replaceAncestors ws candidates).1 ≠ .ok () →
      ∃ candidate, candidates.find? (fun name => draft.types.Inherits name ws) = some candidate ∧
        (draft.replaceAncestors ws candidates).1 = .error (.circularInheritance ws candidate) ∧
        (DefinitionError.circularInheritance ws candidate).kind = .cycle) ∧
    ((draft.replaceAncestors ws candidates).1 = .ok () →
      (draft.replaceAncestors ws candidates).2 = draft.withType ws { owner with
        body := .workspace { home with ancestors := candidates.eraseDups } }) ∧
    ((draft.replaceAncestors ws candidates).1 ≠ .ok () →
      (draft.replaceAncestors ws candidates).2 = draft) := by
  have stays : Acyclic (Function.update draft.types.parents ws candidates) ↔
      ∀ name ∈ candidates, ¬ draft.types.Inherits name ws :=
    acyclic_update_iff reached.rooted.acyclic
  cases checked : Build.checkAncestors draft ws [] candidates with
  | ok accepted =>
      rw [replaceAncestors_of_ok found isWorkspace nonempty checked]
      obtain ⟨fit, same⟩ := checkAncestors_eq_ok_iff.mp checked
      have unique : accepted = candidates.eraseDups := by simpa using same.symm
      subst unique
      have replaceable := stays.mpr fun next listed => (fit next listed).2
      exact ⟨iff_of_true rfl ⟨fun name listed => (fit name listed).1, replaceable⟩,
        fun _ refused => absurd rfl refused, fun _ => rfl, fun refused => absurd rfl refused⟩
  | error error =>
      rw [replaceAncestors_of_error found isWorkspace nonempty checked]
      refine ⟨iff_of_false (by simp) fun fit => ?_, fun workspaces _ => ?_, by simp, fun _ => rfl⟩
      · obtain ⟨workspaces, replaceable⟩ := fit
        have accepted : Build.checkAncestors draft ws [] candidates = .ok _ :=
          checkAncestors_eq_ok_iff.mpr
            ⟨fun name listed => ⟨workspaces name listed, stays.mp replaceable name listed⟩, rfl⟩
        rw [checked] at accepted
        cases accepted
      · obtain ⟨candidate, first, rfl⟩ := checkAncestors_eq_error workspaces checked
        exact ⟨candidate, first, rfl, rfl⟩

end Draft

namespace Library

/-- Three workspaces, of which `app` inherits from `base`. -/
def workspaces : Draft := (Draft.initial {}).applyAll [
  .addWorkspace (name "staff"), .addWorkspace (name "base"), .addWorkspace (name "app"),
  .within (name "app") (.setAncestors [name "base"])]

theorem reachable_workspaces : workspaces.Reachable := (Draft.Reachable.initial {}).applyAll _

/-- The workspace `app` inherits from `base`, so that it is the first of these that cannot be an
ancestor of `base`. -/
def belowBase : List QName := [name "staff", name "app", name "base"]

/-- Workspaces that `app` can inherit from, one of them twice. -/
def aboveApp : List QName := [name "staff", name "base", name "staff"]

end Library

/-- With `app` above it `base` would inherit from itself, and the refusal names `app`; but `app` can
come to inherit from `staff` first and then from `base`. -/
theorem Draft.Reachable.replaced_iff_acyclic_library :
    (¬ Acyclic (Function.update Library.workspaces.types.parents (Library.name "base")
        Library.belowBase) ∧
      (Library.workspaces.replaceAncestors (Library.name "base") Library.belowBase).1 =
        .error (.circularInheritance (Library.name "base") (Library.name "app"))) ∧
    Acyclic (Function.update Library.workspaces.types.parents (Library.name "app")
      Library.aboveApp) ∧
    ((Library.workspaces.replaceAncestors (Library.name "app") Library.aboveApp).2.types.workspace?
      (Library.name "app")).map Workspace.ancestors =
        some [Library.name "staff", Library.name "base"] := by
  have registered : ∀ name ∈ Library.belowBase,
      ∃ body, Library.workspaces.types.workspace? name = some body := by
    simp only [← Option.isSome_iff_exists]
    decide +kernel
  have opened : ∀ name ∈ [Library.name "base", Library.name "app"],
      (Library.workspaces.types.workspace? name).isSome = true := by decide +kernel
  obtain ⟨base, isBase⟩ := Option.isSome_iff_exists.mp (opened (Library.name "base") (by simp))
  obtain ⟨app, isApp⟩ := Option.isSome_iff_exists.mp (opened (Library.name "app") (by simp))
  obtain ⟨baseType, foundBase, baseBody⟩ := TypeTable.workspace?_eq_some_iff.mp isBase
  obtain ⟨appType, foundApp, appBody⟩ := TypeTable.workspace?_eq_some_iff.mp isApp
  have refused : ¬ (Library.workspaces.replaceAncestors (Library.name "base")
      Library.belowBase).1 = .ok () := by
    rw [← Check.isOk_iff]
    decide +kernel
  have passed : (Library.workspaces.replaceAncestors (Library.name "app") Library.aboveApp).1 =
      .ok () := by
    rw [← Check.isOk_iff]
    decide +kernel
  have someBelow : Library.belowBase ≠ [] := by decide
  have someAbove : Library.aboveApp ≠ [] := by decide
  obtain ⟨decided, named, _, _⟩ := Draft.Reachable.replaced_iff_acyclic Library.reachable_workspaces
    foundBase (TypeDef.workspace?_eq_some_iff.mp baseBody) someBelow
  obtain ⟨replaceable, _, changed, _⟩ := Draft.Reachable.replaced_iff_acyclic
    Library.reachable_workspaces foundApp (TypeDef.workspace?_eq_some_iff.mp appBody) someAbove
  obtain ⟨first, isFirst, answer, _⟩ := named registered refused
  have isNamed : Library.belowBase.find? (fun name =>
      Library.workspaces.types.Inherits name (Library.name "base")) =
        some (Library.name "app") := by
    decide +kernel
  rw [isNamed, Option.some_inj] at isFirst
  subst isFirst
  refine ⟨⟨fun acyclic => refused (decided.mpr ⟨registered, acyclic⟩), answer⟩,
    (replaceable.mp passed).2, ?_⟩
  rw [changed passed, Draft.workspace?_withType, Function.update_self]
  rfl

end TypeCatalog
