import TypeCatalog.Proofs.Workspace.Search

/-!
# What a workspace sees

What other workspaces use is of no account for what a workspace sees, whether it inherits from them
or uses them itself.  This is so in all tables, whatever workspaces lead to.

* `TypeTable.withUsesOf`: the table in which one workspace only uses others.
* `TypeTable.visibleNames_exact`: the list of visible names, the test for one of them and what it
  means to be visible.
-/

namespace TypeCatalog

open Relation (ReflTransGen)

/-- The type, or if it is a workspace, the workspace without those that it uses. -/
def TypeDef.withoutUses (t : TypeDef) : TypeDef :=
  match t.body with
  | .workspace home => { t with body := .workspace { home with used := [] } }
  | _ => t

namespace TypeTable

variable {types : TypeTable} {ws name : QName}

/-- The table in which no other workspace than the given one uses any. -/
def withUsesOf (types : TypeTable) (ws : QName) : TypeTable :=
  types.map fun name t => if name = ws then t else t.withoutUses

theorem workspace?_withoutUses (t : TypeDef) :
    t.withoutUses.workspace? = t.workspace?.map fun home => { home with used := [] } := by
  unfold TypeDef.withoutUses TypeDef.workspace?
  cases body : t.body with
  | workspace home => rfl
  | _ => rw [body]; rfl

theorem workspace?_withUsesOf (types : TypeTable) (ws name : QName) :
    (types.withUsesOf ws).workspace? name = (types.workspace? name).map fun home =>
      if name = ws then home else { home with used := [] } := by
  unfold workspace? withUsesOf
  rw [Std.ExtTreeMap.getElem?_map]
  cases types[name]? with
  | none => rfl
  | some t =>
      by_cases isSelf : name = ws
      · simp [isSelf]
      · simp [isSelf, workspace?_withoutUses]

theorem parents_withUsesOf (types : TypeTable) (ws : QName) :
    (types.withUsesOf ws).parents = types.parents := by
  funext name
  unfold parents
  rw [workspace?_withUsesOf]
  cases types.workspace? name with
  | none => rfl
  | some home =>
      dsimp only [Option.map_some]
      split <;> rfl

theorem localNames_withUsesOf (types : TypeTable) (ws name : QName) :
    (types.withUsesOf ws).localNames name = types.localNames name := by
  unfold localNames
  rw [workspace?_withUsesOf]
  cases types.workspace? name with
  | none => rfl
  | some home =>
      dsimp only [Option.map_some]
      split <;> rfl

theorem usedBy_withUsesOf (types : TypeTable) (ws : QName) :
    (types.withUsesOf ws).usedBy ws = types.usedBy ws := by
  unfold usedBy
  rw [workspace?_withUsesOf]
  cases types.workspace? ws with
  | none => rfl
  | some home => simp

theorem drawsOn_withUsesOf {other : QName} :
    (types.withUsesOf ws).DrawsOn ws other ↔ types.DrawsOn ws other := by
  unfold DrawsOn Inherits
  rw [parents_withUsesOf, usedBy_withUsesOf]

theorem visibleNames_withUsesOf (types : TypeTable) (ws : QName) :
    (types.withUsesOf ws).visibleNames ws = types.visibleNames ws := by
  refine Std.ExtTreeSet.ext_mem fun name => ?_
  rw [mem_visibleNames_iff, mem_visibleNames_iff]
  simp only [drawsOn_withUsesOf, localNames_withUsesOf]

theorem inherits_iff {other : QName} :
    types.Inherits ws other ↔ ReflTransGen types.Ancestor ws other := by
  unfold Inherits
  rw [stepsTo_parents]

theorem mem_usedBy_iff {used : QName} :
    used ∈ types.usedBy ws ↔ ∃ home, types.workspace? ws = some home ∧ used ∈ home.used := by
  unfold usedBy
  cases types.workspace? ws with
  | none => simp
  | some home => simp

/-- The test for a visible name and the list of them agree.  What is visible is declared by a
workspace that can be reached by going to ancestors, from the workspace itself or from one that it
uses.  Nothing is added by what other workspaces use. -/
theorem visibleNames_exact (types : TypeTable) (ws name : QName) :
    (types.sees ws name = true ↔ name ∈ types.visibleNames ws) ∧
    (name ∈ types.visibleNames ws ↔
      (∃ other home, ReflTransGen types.Ancestor ws other ∧ types.workspace? other = some home ∧
        name ∈ home.locals) ∨
      ∃ body used other home, types.workspace? ws = some body ∧ used ∈ body.used ∧
        ReflTransGen types.Ancestor used other ∧ types.workspace? other = some home ∧
        name ∈ home.locals) ∧
    (types.withUsesOf ws).visibleNames ws = types.visibleNames ws := by
  refine ⟨sees_iff_mem_visibleNames, ?_, visibleNames_withUsesOf types ws⟩
  rw [mem_visibleNames_iff]
  unfold DrawsOn
  simp only [mem_localNames_iff, mem_usedBy_iff, inherits_iff]
  constructor
  · intro visible
    obtain ⟨other, inherits | ⟨used, ⟨body, isBody, uses⟩, inherits⟩, home, isHome, declared⟩ :=
      visible
    · exact .inl ⟨other, home, inherits, isHome, declared⟩
    · exact .inr ⟨body, used, other, home, isBody, uses, inherits, isHome, declared⟩
  · intro visible
    rcases visible with ⟨other, home, inherits, isHome, declared⟩ |
      ⟨body, used, other, home, isBody, uses, inherits, isHome, declared⟩
    · exact ⟨other, .inl inherits, home, isHome, declared⟩
    · exact ⟨other, .inr ⟨used, ⟨body, isBody, uses⟩, inherits⟩, home, isHome, declared⟩

/-- Workspaces `a` and `b` inherit from each other, and `b` from one that is not there.  `a` uses
`c`, and both `b` and `c` use `d`. -/
def ring : TypeTable :=
  let workspace (name : QName) (ancestors used : List QName) (declared : QName) : QName × TypeDef :=
    (name, {
      name, kind := .workspace, workspace := name
      body := .workspace { ancestors, used, locals := .ofList [declared] } })
  .ofList [
    workspace ⟨"ring", "a"⟩ [⟨"ring", "b"⟩] [⟨"ring", "c"⟩] ⟨"ring", "ofA"⟩,
    workspace ⟨"ring", "b"⟩ [⟨"ring", "a"⟩, ⟨"ring", "gone"⟩] [⟨"ring", "d"⟩] ⟨"ring", "ofB"⟩,
    workspace ⟨"ring", "c"⟩ [] [⟨"ring", "d"⟩] ⟨"ring", "ofC"⟩,
    workspace ⟨"ring", "d"⟩ [] [] ⟨"ring", "ofD"⟩]

/-- What `c` declares is seen from `a`, which uses `c`.  What `d` declares is seen from `c`, which
uses `d`, but not from `a`, for which `d` is one used workspace too far. -/
theorem visibleNames_exact_ring :
    let a : QName := ⟨"ring", "a"⟩
    let c : QName := ⟨"ring", "c"⟩
    (∃ body, ring.workspace? a = some body ∧ c ∈ body.used) ∧
    ⟨"ring", "ofC"⟩ ∈ ring.visibleNames a ∧ ring.sees a ⟨"ring", "ofC"⟩ = true ∧
    (∃ body, ring.workspace? c = some body ∧ ⟨"ring", "d"⟩ ∈ body.used) ∧
    ⟨"ring", "ofD"⟩ ∈ ring.visibleNames c ∧
    ⟨"ring", "ofD"⟩ ∉ ring.visibleNames a ∧ ring.sees a ⟨"ring", "ofD"⟩ = false := by
  intro a c
  have byA : ∃ body, ring.workspace? a = some body ∧ c ∈ body.used :=
    mem_usedBy_iff.mp (by decide +kernel)
  have byC : ∃ body, ring.workspace? c = some body ∧ ⟨"ring", "d"⟩ ∈ body.used :=
    mem_usedBy_iff.mp (by decide +kernel)
  have ofC : ∃ home, ring.workspace? c = some home ∧ ⟨"ring", "ofC"⟩ ∈ home.locals :=
    mem_localNames_iff.mp (by decide +kernel)
  have ofD : ∃ home, ring.workspace? ⟨"ring", "d"⟩ = some home ∧ ⟨"ring", "ofD"⟩ ∈ home.locals :=
    mem_localNames_iff.mp (by decide +kernel)
  have hidden : ring.sees a ⟨"ring", "ofD"⟩ = false := by decide +kernel
  have seenC : ⟨"ring", "ofC"⟩ ∈ ring.visibleNames a := by
    obtain ⟨body, isBody, uses⟩ := byA
    obtain ⟨home, isHome, declared⟩ := ofC
    exact (visibleNames_exact ring a _).2.1.mpr
      (.inr ⟨body, c, c, home, isBody, uses, .refl, isHome, declared⟩)
  have seenD : ⟨"ring", "ofD"⟩ ∈ ring.visibleNames c := by
    obtain ⟨body, isBody, uses⟩ := byC
    obtain ⟨home, isHome, declared⟩ := ofD
    exact (visibleNames_exact ring c _).2.1.mpr
      (.inr ⟨body, _, _, home, isBody, uses, .refl, isHome, declared⟩)
  refine ⟨byA, seenC, (visibleNames_exact ring a _).1.mpr seenC, byC, seenD, fun seen => ?_, hidden⟩
  rw [(visibleNames_exact ring a _).1.mpr seen] at hidden
  cases hidden

end TypeTable

end TypeCatalog
