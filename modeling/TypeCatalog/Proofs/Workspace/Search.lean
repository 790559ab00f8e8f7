import Mathlib.Logic.Function.Iterate
import TypeCatalog.Proofs.Workspace.Graph

/-!
# Searching for the ancestors of a workspace

What can be reached from a name is also found by looking at one name after the other, with those
still to be looked at on a stack.  The stack may grow while nothing new is seen, and names may be
on it many times.  But a name is looked into once only: each look uses up a pending name, or takes
steps that are never taken again.

* `Search.look`: one look at the name on top of the stack.
* `Search.Sound`, `Search.Sound.iterate`: what holds throughout a search.  Once nothing is pending,
  the names seen are those that can be reached (`Search.Sound.mem_seen_iff`).
* `Search.ahead_look_lt`, `Search.pending_iterate`: the names pending together with the steps not
  yet taken become fewer with each look, so that the search ends.
* `TypeTable.search_finds_ancestry`: in every table the search for ancestors ends and finds the
  ancestry, which does not depend on the order in which ancestors are listed.
-/

namespace TypeCatalog

open Relation (ReflTransGen)

/-! ## Looks -/

/-- A search under way: the names seen, and those still to be looked at, the next one first. -/
structure Search where
  seen : NameSet
  pending : List QName

namespace Search

variable {step : QName → List QName} {seen : NameSet} {name other origin : QName}
  {later : List QName} {search : Search}

/-- Nothing is seen yet, and a single name is to be looked at. -/
def initial (name : QName) : Search := { seen := ∅, pending := [name] }

/-- Looks at the next pending name.  One that was seen before is dropped.  From any other steps
lead on, to names that are looked at before those already pending, the last of them first. -/
def look (step : QName → List QName) (search : Search) : Search :=
  match search.pending with
  | [] => search
  | name :: later =>
    if search.seen.contains name then { search with pending := later }
    else { seen := search.seen.insert name, pending := (step name).reverse ++ later }

theorem look_of_mem (known : name ∈ seen) : look step ⟨seen, name :: later⟩ = ⟨seen, later⟩ :=
  if_pos (Std.ExtTreeSet.contains_iff_mem.mpr known)

theorem look_of_not_mem (unknown : name ∉ seen) :
    look step ⟨seen, name :: later⟩ = ⟨seen.insert name, (step name).reverse ++ later⟩ :=
  if_neg fun known => unknown (Std.ExtTreeSet.contains_iff_mem.mp known)

/-! ## What is found -/

/-- The name was seen or is still to be looked at. -/
def Found (search : Search) (name : QName) : Prop := name ∈ search.seen ∨ name ∈ search.pending

/-- To drop a name that was seen loses nothing. -/
theorem found_drop_iff (known : name ∈ seen) :
    Found ⟨seen, later⟩ other ↔ Found ⟨seen, name :: later⟩ other := by
  unfold Found
  rw [List.mem_cons]
  constructor
  · intro found
    rcases found with old | pending
    · exact .inl old
    · exact .inr (.inr pending)
  · intro found
    rcases found with old | rfl | pending
    · exact .inl old
    · exact .inl known
    · exact .inr pending

/-- To look into a name adds what steps lead to from it, and nothing else. -/
theorem found_enter_iff :
    Found ⟨seen.insert name, (step name).reverse ++ later⟩ other ↔
      Found ⟨seen, name :: later⟩ other ∨ other ∈ step name := by
  unfold Found
  rw [mem_insert_key_iff, List.mem_append, List.mem_reverse, List.mem_cons]
  constructor
  · intro found
    rcases found with (rfl | old) | led | pending
    · exact .inl (.inr (.inl rfl))
    · exact .inl (.inl old)
    · exact .inr led
    · exact .inl (.inr (.inr pending))
  · intro found
    rcases found with (old | rfl | pending) | led
    · exact .inl (.inr old)
    · exact .inl (.inl rfl)
    · exact .inr (.inr pending)
    · exact .inr (.inl led)

/-- What holds throughout a search: the name that it begins with is found, and so is all that steps
lead to from names seen; and what is found can be reached. -/
structure Sound (step : QName → List QName) (origin : QName) (search : Search) : Prop where
  began : search.Found origin
  followed : ∀ a ∈ search.seen, ∀ b ∈ step a, search.Found b
  reached : ∀ name, search.Found name → ReflTransGen (StepsTo step) origin name

theorem sound_initial : Sound step origin (initial origin) where
  began := .inr (List.mem_singleton.mpr rfl)
  followed := fun _ seen => (Std.ExtTreeSet.not_mem_empty seen).elim
  reached := by
    intro name found
    rcases found with seen | pending
    · exact (Std.ExtTreeSet.not_mem_empty seen).elim
    · rw [List.mem_singleton.mp pending]

/-- Each look keeps the search sound. -/
theorem Sound.look (sound : Sound step origin search) : Sound step origin (look step search) := by
  rcases search with ⟨seen, _ | ⟨name, later⟩⟩
  · exact sound
  · by_cases known : name ∈ seen
    · rw [look_of_mem known]
      exact {
        began := (found_drop_iff known).mpr sound.began
        followed := fun a mem b leads => (found_drop_iff known).mpr (sound.followed a mem b leads)
        reached := fun other found => sound.reached other ((found_drop_iff known).mp found) }
    · rw [look_of_not_mem known]
      have reachedName := sound.reached name (.inr List.mem_cons_self)
      refine {
        began := found_enter_iff.mpr (.inl sound.began)
        followed := fun a mem b leads => ?_
        reached := fun other found => ?_ }
      · rcases mem_insert_key_iff.mp mem with rfl | old
        · exact found_enter_iff.mpr (.inr leads)
        · exact found_enter_iff.mpr (.inl (sound.followed a old b leads))
      · rcases found_enter_iff.mp found with old | led
        · exact sound.reached other old
        · exact reachedName.tail led

theorem Sound.iterate (sound : Sound step origin search) (looks : Nat) :
    Sound step origin ((Search.look step)^[looks] search) := by
  induction looks generalizing search with
  | zero => exact sound
  | succ looks ih =>
      rw [Function.iterate_succ_apply]
      exact ih sound.look

/-- A search that is over has seen exactly the names that can be reached. -/
theorem Sound.mem_seen_iff (sound : Sound step origin search) (ended : search.pending = []) :
    name ∈ search.seen ↔ ReflTransGen (StepsTo step) origin name := by
  have found_iff : ∀ other, search.Found other ↔ other ∈ search.seen := by
    intro other
    unfold Found
    rw [ended, or_iff_left List.not_mem_nil]
  have closed : Closed step search.seen := by
    intro a mem b leads
    exact (found_iff b).mp (sound.followed a mem b leads)
  constructor
  · intro mem
    exact sound.reached name (.inl mem)
  · intro reaches
    exact mem_of_reaches closed ((found_iff origin).mp sound.began) reaches

/-! ## The end of a search -/

/-- The steps from those names of a list that were not seen yet. -/
def untaken (step : QName → List QName) (pool : List QName) (seen : NameSet) : List QName :=
  (pool.filter (· ∉ seen)).flatMap step

theorem untaken_empty (pool : List QName) : untaken step pool ∅ = pool.flatMap step := by
  unfold untaken
  rw [List.filter_eq_self.mpr fun _ _ => decide_eq_true Std.ExtTreeSet.not_mem_empty]

/-- A bound on the looks that are still to come: the names pending, and the steps not yet taken. -/
def ahead (step : QName → List QName) (pool : List QName) (search : Search) : Nat :=
  search.pending.length + (untaken step pool search.seen).length

section Ends

variable {pool : List QName} (distinct : pool.Nodup) (fromPool : ∀ a, ∀ b ∈ step a, a ∈ pool)
include distinct fromPool

/-- The steps from a name are taken when it is looked into, and are not counted any more. -/
theorem length_untaken_insert (unknown : name ∉ seen) :
    (step name).length + (untaken step pool (seen.insert name)).length =
      (untaken step pool seen).length := by
  unfold untaken
  have insert_iff : ∀ a, a ∉ seen.insert name ↔ a ≠ name ∧ a ∉ seen := by
    intro a
    rw [mem_insert_key_iff, not_or]
  by_cases inPool : name ∈ pool
  · have left : pool.filter (· ∉ seen.insert name) = (pool.filter (· ∉ seen)).erase name := by
      rw [List.Nodup.erase_eq_filter (distinct.filter _), List.filter_filter]
      refine List.filter_congr fun a _ => ?_
      rw [Bool.eq_iff_iff, decide_eq_true_iff, insert_iff, Bool.and_eq_true, bne_iff_ne,
        decide_eq_true_iff]
    have listed : name ∈ pool.filter (· ∉ seen) :=
      List.mem_filter.mpr ⟨inPool, decide_eq_true unknown⟩
    have counted := ((List.perm_cons_erase listed).flatMap_right step).length_eq
    rw [List.flatMap_cons, List.length_append] at counted
    rw [left]
    omega
  · -- Nothing leads on from a name outside of the pool, and the names of the pool stay as they are.
    have nothing : step name = [] :=
      List.eq_nil_iff_forall_not_mem.mpr fun b leads => inPool (fromPool name b leads)
    have same : pool.filter (· ∉ seen.insert name) = pool.filter (· ∉ seen) := by
      refine List.filter_congr fun a mem => decide_eq_decide.mpr ?_
      have apart : a ≠ name := fun isName => inPool (isName ▸ mem)
      rw [insert_iff, and_iff_right apart]
    rw [nothing, same, List.length_nil]
    omega

/-- Each look uses up a pending name or steps not yet taken. -/
theorem ahead_look_lt (more : search.pending ≠ []) :
    (look step search).ahead step pool < search.ahead step pool := by
  rcases search with ⟨seen, _ | ⟨name, later⟩⟩
  · exact absurd rfl more
  · unfold ahead
    by_cases known : name ∈ seen
    · rw [look_of_mem known]
      dsimp only
      rw [List.length_cons]
      omega
    · rw [look_of_not_mem known]
      have counted := length_untaken_insert distinct fromPool known
      dsimp only
      rw [List.length_append, List.length_reverse, List.length_cons]
      omega

/-- After as many looks as were to come at most, nothing is pending. -/
theorem pending_iterate {looks : Nat} (enough : search.ahead step pool ≤ looks) :
    ((look step)^[looks] search).pending = [] := by
  induction looks generalizing search with
  | zero =>
      unfold ahead at enough
      have none : search.pending.length = 0 := by omega
      exact List.eq_nil_of_length_eq_zero none
  | succ looks ih =>
      by_cases ended : search.pending = []
      · -- Where nothing is pending, looks change nothing.
        have idle : look step search = search := by
          unfold look
          rw [ended]
        rw [Function.iterate_fixed idle]
        exact ended
      · have fewer := ahead_look_lt distinct fromPool ended
        rw [Function.iterate_succ_apply]
        exact ih (by omega)

end Ends

end Search

/-! ## Ancestors -/

namespace TypeTable

variable {types others : TypeTable} {ws other : QName}

/-- The second name is listed as an ancestor of the first, a workspace; or it is the root, and no
ancestors are listed for the first, another workspace. -/
def Ancestor (types : TypeTable) (ws other : QName) : Prop :=
  ∃ home, types.workspace? ws = some home ∧
    (other ∈ home.ancestors ∨
      home.ancestors = [] ∧ ws ≠ .sysWorkspace ∧ other = .sysWorkspace)

/-- The tables have the same workspaces, and these list the same ancestors, in whatever order and
however often. -/
def SameAncestors (types others : TypeTable) : Prop :=
  ∀ name, Option.Rel (fun home other => ∀ a, a ∈ home.ancestors ↔ a ∈ other.ancestors)
    (types.workspace? name) (others.workspace? name)

theorem mem_ancestorsOf_iff {home : Workspace} :
    other ∈ home.ancestorsOf ws ↔
      other ∈ home.ancestors ∨
        home.ancestors = [] ∧ ws ≠ .sysWorkspace ∧ other = .sysWorkspace := by
  unfold Workspace.ancestorsOf
  cases home.ancestors with
  | nil => by_cases isRoot : ws = .sysWorkspace <;> simp [isRoot]
  | cons first rest => simp

theorem stepsTo_parents : StepsTo types.parents = types.Ancestor := by
  funext ws other
  unfold StepsTo Ancestor parents
  cases types.workspace? ws with
  | none => simp
  | some home => simp [mem_ancestorsOf_iff]

theorem SameAncestors.ancestor_eq (same : types.SameAncestors others) :
    others.Ancestor = types.Ancestor := by
  funext ws other
  have alike := same ws
  unfold Ancestor
  revert alike
  generalize types.workspace? ws = home?
  generalize others.workspace? ws = body?
  intro alike
  cases alike with
  | none => rfl
  | some listed => simp [listed, List.eq_nil_iff_forall_not_mem]

/-- What a name inherits from does not depend on the order in which ancestors are listed. -/
theorem SameAncestors.ancestry_eq (same : types.SameAncestors others) :
    others.ancestry ws = types.ancestry ws := by
  refine Std.ExtTreeSet.ext_mem fun other => ?_
  rw [mem_ancestry_iff, mem_ancestry_iff]
  unfold Inherits
  rw [stepsTo_parents, stepsTo_parents, same.ancestor_eq]

/-- A search that looks once more often than there are edges is over, and has seen the ancestry. -/
theorem iterate_look_initial {start : QName} {looks : Nat} (enough : types.edgeCount < looks) :
    (Search.look types.parents)^[looks] (.initial start) =
      { seen := types.ancestry start, pending := [] } := by
  have bound : (Search.initial start).ahead types.parents types.keys = 1 + types.edgeCount := by
    change 1 + (Search.untaken types.parents types.keys ∅).length = 1 + types.edgeCount
    rw [Search.untaken_empty]
    rfl
  have fromKeys : ∀ a, ∀ b ∈ types.parents a, a ∈ types.keys := fun _ _ => mem_keys_of_mem_parents
  have ended : ((Search.look types.parents)^[looks] (.initial start)).pending = [] :=
    Search.pending_iterate Std.ExtTreeMap.nodup_keys fromKeys (by omega)
  have sound : Search.Sound types.parents start
      ((Search.look types.parents)^[looks] (.initial start)) := Search.sound_initial.iterate looks
  have seen : ((Search.look types.parents)^[looks] (.initial start)).seen =
      types.ancestry start := by
    refine Std.ExtTreeSet.ext_mem fun name => ?_
    rw [sound.mem_seen_iff ended, mem_ancestry_iff]
    rfl
  rw [← seen, ← ended]

/-- Whatever workspaces lead to, in circles as well or to names that stand for none: a search for
the ancestors of a name is over when it has looked as often as there are edges and once more, and
it has then seen the ancestry of the name.  The ancestry consists of all names that are reached by
going to ancestors, and is the same in whatever order they are listed. -/
theorem search_finds_ancestry (types : TypeTable) (start : QName) :
    (∀ looks, types.edgeCount < looks →
      (Search.look types.parents)^[looks] (.initial start) =
        { seen := types.ancestry start, pending := [] }) ∧
    (∀ name, name ∈ types.ancestry start ↔ ReflTransGen types.Ancestor start name) ∧
    ∀ others : TypeTable, types.SameAncestors others →
      others.ancestry start = types.ancestry start := by
  refine ⟨fun _ => iterate_look_initial, fun name => ?_, fun _ => SameAncestors.ancestry_eq⟩
  rw [mem_ancestry_iff, ← stepsTo_parents]
  rfl

/-- The workspaces `a` and `b` with the ancestors that are given. -/
def knot (ofA ofB : List QName) : TypeTable :=
  let workspace (name : QName) (ancestors : List QName) : TypeDef := {
    name, kind := .workspace, workspace := name
    body := .workspace { ancestors } }
  ((∅ : TypeTable).insert ⟨"knot", "a"⟩ (workspace ⟨"knot", "a"⟩ ofA)).insert ⟨"knot", "b"⟩
    (workspace ⟨"knot", "b"⟩ ofB)

theorem workspace?_knot (ofA ofB : List QName) (name : QName) :
    (knot ofA ofB).workspace? name =
      if ⟨"knot", "b"⟩ = name then some { ancestors := ofB }
      else if ⟨"knot", "a"⟩ = name then some { ancestors := ofA } else none := by
  unfold knot workspace?
  rw [getElem?_insert, getElem?_insert, Std.ExtTreeMap.getElem?_empty]
  split
  · rfl
  · split <;> rfl

/-- Here `a` lists itself and twice `b`, which lists `a` and a name that stands for no workspace.
The search is over after six looks, and other lists of the same names make no difference. -/
theorem search_finds_ancestry_knot :
    let a : QName := ⟨"knot", "a"⟩
    let b : QName := ⟨"knot", "b"⟩
    let gone : QName := ⟨"knot", "gone"⟩
    (knot [a, b, b] [a, gone]).edgeCount < 6 ∧
    (Search.look (knot [a, b, b] [a, gone]).parents)^[6] (.initial a) =
      { seen := (knot [a, b, b] [a, gone]).ancestry a, pending := [] } ∧
    ((knot [a, b, b] [a, gone]).ancestry a).toList = [a, b, gone] ∧
    (knot [a, b, b] [a, gone]).SameAncestors (knot [b, a] [gone, gone, a]) ∧
    (knot [b, a] [gone, gone, a]).ancestry a = (knot [a, b, b] [a, gone]).ancestry a ∧
    ReflTransGen (knot [a, b, b] [a, gone]).Ancestor a gone := by
  intro a b gone
  obtain ⟨ends, reached, ordered⟩ := search_finds_ancestry (knot [a, b, b] [a, gone]) a
  have edges : (knot [a, b, b] [a, gone]).edgeCount < 6 := by decide +kernel
  have found : ((knot [a, b, b] [a, gone]).ancestry a).toList = [a, b, gone] := by decide +kernel
  have same : (knot [a, b, b] [a, gone]).SameAncestors (knot [b, a] [gone, gone, a]) := by
    intro name
    rw [workspace?_knot, workspace?_knot]
    split
    · exact .some (by simp [or_comm])
    · split
      · exact .some (by simp [or_comm])
      · exact .none
  have listed : gone ∈ (knot [a, b, b] [a, gone]).ancestry a := by
    rw [← Std.ExtTreeSet.mem_toList, found]
    simp
  exact ⟨edges, ends 6 edges, found, same, ordered _ same, (reached gone).mp listed⟩

end TypeTable

end TypeCatalog
