import TypeCatalog.Proofs.Saturation

/-!
# The graph of workspaces

A workspace leads to its ancestors, and may use further workspaces.  What it sees is what the
workspaces declare that it draws on in one of these ways.

* `TypeTable.Inherits`, `TypeTable.mem_ancestry_iff`: the ancestry of a workspace is what its
  ancestors lead to, itself included.
* `TypeTable.DrawsOn`, `TypeTable.mem_visibleNames_iff`, `TypeTable.sees_iff_mem_visibleNames`: the
  list of visible names and the test for one of them agree.
* `reaches_of_closed`: what can be reached from a region depends on the region only.
* `reaches_of_redirected`, `acyclic_of_redirected`: what becomes of reachability when the steps
  from a single name are replaced.
-/

namespace TypeCatalog

open Relation (ReflTransGen TransGen)

/-- A path from inside a region that no step leaves is still there as long as the steps of the
region are. -/
theorem reaches_of_closed {step changed : QName → List QName} {region : QName → Prop} {a b : QName}
    (closed : ∀ a, region a → ∀ b ∈ step a, region b)
    (same : ∀ a, region a → changed a = step a) (inside : region a)
    (reaches : ReflTransGen (StepsTo step) a b) : ReflTransGen (StepsTo changed) a b := by
  induction reaches using ReflTransGen.head_induction_on with
  | refl => exact .refl
  | @head a c leads rest ih =>
      have still : StepsTo changed a c := by
        unfold StepsTo
        rw [same a inside]
        exact leads
      exact .head still (ih (closed a inside c leads))

/-! ## Other steps from one name -/

section Redirected

variable {step changed : QName → List QName} {hub a b : QName}
  (same : ∀ name, name ≠ hub → changed name = step name)
include same

/-- A path that cannot come to the name whose steps are replaced is still there. -/
theorem reaches_of_avoids (reaches : ReflTransGen (StepsTo step) a b)
    (avoids : ¬ ReflTransGen (StepsTo step) a hub) : ReflTransGen (StepsTo changed) a b := by
  have closed : ∀ a, ¬ ReflTransGen (StepsTo step) a hub →
      ∀ b ∈ step a, ¬ ReflTransGen (StepsTo step) b hub :=
    fun a away b leads back => away (.head leads back)
  have kept : ∀ a, ¬ ReflTransGen (StepsTo step) a hub → changed a = step a :=
    fun a away => same a fun isHub => away (isHub ▸ .refl)
  exact reaches_of_closed closed kept avoids reaches

/-- Up to the name whose steps are replaced, every path is still there. -/
theorem reaches_hub (reaches : ReflTransGen (StepsTo step) a hub) :
    ReflTransGen (StepsTo changed) a hub := by
  induction reaches using ReflTransGen.head_induction_on with
  | refl => exact .refl
  | @head a c leads rest ih =>
      by_cases isHub : a = hub
      · rw [isHub]
      · have still : StepsTo changed a c := by
          unfold StepsTo
          rw [same a isHub]
          exact leads
        exact .head still ih

/-- What reached a root before still does, if the new steps lead on from names that reach it
without coming back. -/
theorem reaches_of_redirected {root next : QName} (reaches : ReflTransGen (StepsTo step) a root)
    (leads : next ∈ changed hub) (onward : ReflTransGen (StepsTo step) next root)
    (away : ¬ ReflTransGen (StepsTo step) next hub) : ReflTransGen (StepsTo changed) a root := by
  by_cases through : ReflTransGen (StepsTo step) a hub
  · have fromHub : ReflTransGen (StepsTo changed) hub root :=
      .head leads (reaches_of_avoids same onward away)
    exact (reaches_hub same through).trans fromHub
  · exact reaches_of_avoids same reaches through

/-- A new path is an old one as far as it does not come to the name whose steps are replaced. -/
theorem reaches_or_reaches_hub (reaches : ReflTransGen (StepsTo changed) a b) :
    ReflTransGen (StepsTo step) a b ∨ ReflTransGen (StepsTo step) a hub := by
  induction reaches using ReflTransGen.head_induction_on with
  | refl => exact .inl .refl
  | @head a c leads rest ih =>
      by_cases isHub : a = hub
      · exact .inr (isHub ▸ .refl)
      · have before : StepsTo step a c := by
          unfold StepsTo at leads ⊢
          rwa [same a isHub] at leads
        rcases ih with old | toHub
        · exact .inl (.head before old)
        · exact .inr (.head before toHub)

/-- The same for paths of at least one step, with the way on from that name. -/
theorem follows_or_through_hub (follows : TransGen (StepsTo changed) a b) :
    TransGen (StepsTo step) a b ∨
      ReflTransGen (StepsTo changed) a hub ∧ TransGen (StepsTo changed) hub b := by
  induction follows using TransGen.head_induction_on with
  | @single a leads =>
      by_cases isHub : a = hub
      · subst isHub
        exact .inr ⟨.refl, .single leads⟩
      · unfold StepsTo at leads
        rw [same a isHub] at leads
        exact .inl (.single leads)
  | @head a c leads rest ih =>
      by_cases isHub : a = hub
      · subst isHub
        exact .inr ⟨.refl, .head leads rest⟩
      · rcases ih with old | ⟨toHub, onward⟩
        · unfold StepsTo at leads
          rw [same a isHub] at leads
          exact .inl (.head leads old)
        · exact .inr ⟨.head leads toHub, onward⟩

/-- Replacing the steps from one name closes no cycle if none of the new ones leads to a name
that led back to it before. -/
theorem acyclic_of_redirected (acyclic : ∀ name, ¬ TransGen (StepsTo step) name name)
    (away : ∀ next ∈ changed hub, ¬ ReflTransGen (StepsTo step) next hub) :
    ∀ name, ¬ TransGen (StepsTo changed) name name := by
  have notAtHub : ¬ TransGen (StepsTo changed) hub hub := by
    intro cycle
    obtain ⟨next, leads, back⟩ := TransGen.head'_iff.mp cycle
    rcases reaches_or_reaches_hub same back with old | old
    · exact away next leads old
    · exact away next leads old
  intro name cycle
  rcases follows_or_through_hub same cycle with old | ⟨toHub, onward⟩
  · exact acyclic name old
  · exact notAtHub (onward.trans_left toHub)

end Redirected

/-! ## Ancestors -/

namespace TypeTable

variable {types : TypeTable} {ws other name : QName}

theorem workspace?_eq_some_iff {home : Workspace} :
    types.workspace? name = some home ↔
      ∃ owner, types[name]? = some owner ∧ owner.workspace? = some home := by
  unfold workspace?
  exact Option.bind_eq_some_iff

theorem parents_of_workspace? {home : Workspace} (isWorkspace : types.workspace? ws = some home) :
    types.parents ws = home.ancestorsOf ws := by
  unfold parents
  rw [isWorkspace]

theorem usedBy_of_workspace? {home : Workspace} (isWorkspace : types.workspace? ws = some home) :
    types.usedBy ws = home.used := by
  unfold usedBy
  rw [isWorkspace]

theorem mem_localNames_iff :
    name ∈ types.localNames ws ↔ ∃ home, types.workspace? ws = some home ∧ name ∈ home.locals := by
  unfold localNames
  cases types.workspace? ws with
  | none => simp
  | some home => simp

/-- Only workspaces have ancestors. -/
theorem exists_workspace_of_mem_parents (leads : other ∈ types.parents ws) :
    ∃ home, types.workspace? ws = some home := by
  unfold parents at leads
  cases isWorkspace : types.workspace? ws with
  | none =>
      rw [isWorkspace] at leads
      cases leads
  | some home => exact ⟨home, rfl⟩

theorem mem_keys_of_mem_parents (leads : other ∈ types.parents ws) : ws ∈ types.keys := by
  obtain ⟨home, isWorkspace⟩ := exists_workspace_of_mem_parents leads
  obtain ⟨owner, found, _⟩ := workspace?_eq_some_iff.mp isWorkspace
  rw [Std.ExtTreeMap.mem_keys, Std.ExtTreeMap.mem_iff_isSome_getElem?, found]
  rfl

/-- One workspace is the other or inherits from it. -/
def Inherits (types : TypeTable) : QName → QName → Prop := ReflTransGen (StepsTo types.parents)

/-- The ancestry of a workspace is the workspace itself with all that it inherits from. -/
theorem mem_ancestry_iff : other ∈ types.ancestry ws ↔ types.Inherits ws other := by
  have inPool : ∀ a, ∀ b ∈ types.parents a, b ∈ types.keys.flatMap types.parents := by
    intro a b leads
    exact List.mem_flatMap.mpr ⟨a, mem_keys_of_mem_parents leads, leads⟩
  have enough : (types.keys.flatMap types.parents).length ≤ types.edgeCount := Nat.le_refl _
  unfold ancestry reachable
  rw [mem_saturate_iff inPool enough]
  simp [Inherits, Std.ExtTreeSet.mem_insert]

/-! ## What a workspace sees -/

/-- The first workspace has what the other declares: it is the other or inherits from it, or it
uses a workspace of which this is true. -/
def DrawsOn (types : TypeTable) (ws other : QName) : Prop :=
  types.Inherits ws other ∨ ∃ used ∈ types.usedBy ws, types.Inherits used other

instance : Decidable (types.Inherits ws other) :=
  decidable_of_iff (other ∈ types.ancestry ws) mem_ancestry_iff

instance : Decidable (types.DrawsOn ws other) :=
  inferInstanceAs (Decidable (_ ∨ _))

theorem mem_inheritedNames_iff :
    name ∈ types.inheritedNames ws ↔
      ∃ other, types.Inherits ws other ∧ name ∈ types.localNames other := by
  unfold inheritedNames
  rw [Std.ExtTreeSet.mem_ofList, List.contains_iff_mem, List.mem_flatMap]
  simp only [Std.ExtTreeSet.mem_toList, mem_ancestry_iff]

/-- A name is visible from a workspace if one of those that it draws on declares it. -/
theorem mem_visibleNames_iff :
    name ∈ types.visibleNames ws ↔
      ∃ other, types.DrawsOn ws other ∧ name ∈ types.localNames other := by
  unfold visibleNames DrawsOn
  rw [Std.ExtTreeSet.mem_insertMany_list, List.contains_iff_mem, List.mem_flatMap]
  simp only [Std.ExtTreeSet.mem_toList, mem_inheritedNames_iff]
  constructor
  · intro visible
    rcases visible with ⟨other, inherits, declared⟩ | ⟨used, uses, other, inherits, declared⟩
    · exact ⟨other, .inl inherits, declared⟩
    · exact ⟨other, .inr ⟨used, uses, inherits⟩, declared⟩
  · intro visible
    obtain ⟨other, inherits | ⟨used, uses, inherits⟩, declared⟩ := visible
    · exact .inl ⟨other, inherits, declared⟩
    · exact .inr ⟨used, uses, other, inherits, declared⟩

theorem declaredIn_iff {workspaces : NameSet} :
    types.declaredIn workspaces name = true ↔ ∃ ws ∈ workspaces, name ∈ types.localNames ws := by
  unfold declaredIn
  rw [List.any_eq_true]
  refine exists_congr fun ws => and_congr Std.ExtTreeSet.mem_toList ?_
  rw [mem_localNames_iff]
  cases types.workspace? ws with
  | none => simp
  | some home => simp

/-- Asking for one name finds out whether it is among the visible names. -/
theorem sees_iff_mem_visibleNames : types.sees ws name = true ↔ name ∈ types.visibleNames ws := by
  unfold sees
  rw [Bool.or_eq_true, List.any_eq_true, mem_visibleNames_iff]
  simp only [declaredIn_iff, mem_ancestry_iff]
  constructor
  · intro seen
    rcases seen with ⟨other, inherits, declared⟩ | ⟨used, uses, other, inherits, declared⟩
    · exact ⟨other, .inl inherits, declared⟩
    · exact ⟨other, .inr ⟨used, uses, inherits⟩, declared⟩
  · intro visible
    obtain ⟨other, inherits | ⟨used, uses, inherits⟩, declared⟩ := visible
    · exact .inl ⟨other, inherits, declared⟩
    · exact .inr ⟨used, uses, other, inherits, declared⟩

end TypeTable

end TypeCatalog
