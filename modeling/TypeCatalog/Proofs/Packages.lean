import Mathlib.Data.Set.Function
import TypeCatalog.Packages
import TypeCatalog.Proofs.Checks
import TypeCatalog.Proofs.Identifier
import TypeCatalog.Proofs.Table

/-!
# One to one bindings of packages

The two tables of bindings are filled side by side, and only under keys that are free in both.
Whatever is asked of them, they stay inverse to each other, so that names are carried there and
back without loss.

* `Packages.add_eq_ok_iff`: which bindings are accepted, and what comes of them.
* `Packages.Paired`: the two directions say the same; kept by every attempt.
* `Packages.OneToOne`: what follows for qualified names and full names.
* `Packages.attemptAll_oneToOne`: all of this after any attempts, accepted or refused.
-/

namespace TypeCatalog

namespace Packages

variable {packages after : Packages} {limit : Nat} {pkg path : String}

/-! ## One binding -/

/-- Both tables with an entry more. -/
def bind (packages : Packages) (pkg path : String) : Packages :=
  ⟨packages.paths.insert pkg path, packages.names.insert path pkg⟩

theorem path?_bind (packages : Packages) (pkg path other : String) :
    (packages.bind pkg path).path? other =
      if pkg = other then some path else packages.path? other := by
  unfold path? bind
  rw [Std.ExtTreeMap.getElem?_insert]
  simp only [Std.LawfulEqCmp.compare_eq_iff_eq]

theorem name?_bind (packages : Packages) (pkg path other : String) :
    (packages.bind pkg path).name? other =
      if path = other then some pkg else packages.name? other := by
  unfold name? bind
  rw [Std.ExtTreeMap.getElem?_insert]
  simp only [Std.LawfulEqCmp.compare_eq_iff_eq]

/-- A binding is accepted if it is made already, or if both of its sides are free. -/
theorem add_eq_ok_iff :
    packages.add limit pkg path = .ok after ↔
      IsIdentifier limit pkg ∧ path ≠ "" ∧
        (packages.path? pkg = some path ∧ packages = after ∨
          (packages.path? pkg = none ∧ packages.name? path = none) ∧
            packages.bind pkg path = after) := by
  unfold add
  rw [Check.guard_eq_ok_iff, Check.unless_eq_ok_iff, checkIdentifier_eq_ok_iff]
  refine and_congr_right fun _ => and_congr_right fun _ => ?_
  cases boundPath : packages.path? pkg with
  | some bound =>
      by_cases same : bound = path
      · simp [same, Check.pure_eq_ok_iff]
      · simp [same]
  | none =>
      cases boundName : packages.name? path with
      | some bound => simp
      | none => simp [Check.pure_eq_ok_iff, bind]

/-! ## Inverse tables -/

/-- The two directions say the same, and neither side of a binding is empty. -/
structure Paired (packages : Packages) : Prop where
  inverse : ∀ pkg path, packages.path? pkg = some path ↔ packages.name? path = some pkg
  named : ∀ pkg path, packages.path? pkg = some path → pkg ≠ "" ∧ path ≠ ""

theorem paired_empty : Paired .empty where
  inverse pkg path := by simp [path?, name?, empty]
  named pkg path bound := by simp [path?, empty] at bound

/-- Two free sides can be bound. -/
theorem Paired.bind (paired : packages.Paired) (namedPkg : pkg ≠ "") (namedPath : path ≠ "")
    (freePkg : packages.path? pkg = none) (freePath : packages.name? path = none) :
    (packages.bind pkg path).Paired where
  inverse other place := by
    have same := paired.inverse other place
    rw [path?_bind, name?_bind]
    by_cases isPkg : pkg = other <;> by_cases isPath : path = place
    · simp [isPkg, isPath]
    · subst isPkg
      rw [freePkg] at same
      simp [isPath, ← same]
    · subst isPath
      rw [freePath] at same
      simp [isPkg, same]
    · simp [isPkg, isPath, same]
  named other place bound := by
    rw [path?_bind] at bound
    split at bound
    next same =>
      cases bound
      exact ⟨same ▸ namedPkg, namedPath⟩
    next => exact paired.named other place bound

theorem paired_system : Paired .system := by
  change (empty.bind QName.sysPackage QName.sysPackagePath).Paired
  refine paired_empty.bind (by decide) (by decide) ?_ ?_
  · simp [path?, empty]
  · simp [name?, empty]

theorem Paired.add (paired : packages.Paired) (added : packages.add limit pkg path = .ok after) :
    after.Paired := by
  obtain ⟨isIdentifier, namedPath, outcome⟩ := add_eq_ok_iff.mp added
  rcases outcome with ⟨_, same⟩ | ⟨⟨freePkg, freePath⟩, same⟩
  · exact same ▸ paired
  · exact same ▸ paired.bind isIdentifier.ne_empty namedPath freePkg freePath

/-! ## Names carried across -/

/-- Bindings give each name one full name and take it back. -/
structure OneToOne (packages : Packages) : Prop where
  inverse : ∀ pkg path, packages.path? pkg = some path ↔ packages.name? path = some pkg
  localName_fullName : ∀ name path, packages.path? name.pkg = some path →
    packages.localName (packages.fullName name) = name
  fullName_localName : ∀ name pkg, packages.name? name.path = some pkg →
    packages.fullName (packages.localName name) = name
  fullName_injOn : Set.InjOn packages.fullName {name | packages.path? name.pkg ≠ none}
  localName_injOn : Set.InjOn packages.localName {name | packages.name? name.path ≠ none}
  fullName_eq_null_iff : ∀ name, packages.fullName name = .null ↔ packages.path? name.pkg = none
  localName_eq_null_iff : ∀ name, packages.localName name = .null ↔
    packages.name? name.path = none

theorem fullName_of_bound {name : QName} (bound : packages.path? name.pkg = some path) :
    packages.fullName name = ⟨path, name.entity⟩ := by
  unfold fullName
  rw [bound]

theorem localName_of_bound {name : FullName} (bound : packages.name? name.path = some pkg) :
    packages.localName name = ⟨pkg, name.entity⟩ := by
  unfold localName
  rw [bound]

theorem Paired.oneToOne (paired : packages.Paired) : packages.OneToOne := by
  have back : ∀ name path, packages.path? name.pkg = some path →
      packages.localName (packages.fullName name) = name := by
    intro name path bound
    rw [fullName_of_bound bound]
    exact localName_of_bound ((paired.inverse name.pkg path).mp bound)
  have forth : ∀ name pkg, packages.name? name.path = some pkg →
      packages.fullName (packages.localName name) = name := by
    intro name pkg bound
    rw [localName_of_bound bound]
    exact fullName_of_bound ((paired.inverse pkg name.path).mpr bound)
  refine ⟨paired.inverse, back, forth, ?_, ?_, ?_, ?_⟩
  · have leftInverse : Set.LeftInvOn packages.localName packages.fullName
        {name | packages.path? name.pkg ≠ none} := by
      intro name bound
      obtain ⟨path, bound⟩ := Option.ne_none_iff_exists'.mp bound
      exact back name path bound
    exact leftInverse.injOn
  · have leftInverse : Set.LeftInvOn packages.fullName packages.localName
        {name | packages.name? name.path ≠ none} := by
      intro name bound
      obtain ⟨pkg, bound⟩ := Option.ne_none_iff_exists'.mp bound
      exact forth name pkg bound
    exact leftInverse.injOn
  · intro name
    unfold fullName
    cases bound : packages.path? name.pkg with
    | none => simp
    | some path => simp [FullName.null, (paired.named name.pkg path bound).2]
  · intro name
    unfold localName
    cases bound : packages.name? name.path with
    | none => simp
    | some pkg =>
        simp [QName.null, (paired.named pkg name.path ((paired.inverse _ _).mpr bound)).1]

/-! ## Runs of attempts -/

/-- A binding that is asked for, with the limit on identifiers that is in force. -/
structure Attempt where
  limit : Nat
  pkg : String
  path : String
  deriving DecidableEq, Repr

/-- What is bound after an attempt; one that is refused changes nothing. -/
def attempt (packages : Packages) (asked : Attempt) : Packages :=
  match packages.add asked.limit asked.pkg asked.path with
  | .ok after => after
  | .error _ => packages

def attemptAll (packages : Packages) (attempts : List Attempt) : Packages :=
  attempts.foldl attempt packages

/-- The bindings that were there are still there. -/
structure Keeps (packages after : Packages) : Prop where
  paths : ∀ pkg path, packages.path? pkg = some path → after.path? pkg = some path
  names : ∀ path pkg, packages.name? path = some pkg → after.name? path = some pkg

theorem Keeps.refl (packages : Packages) : packages.Keeps packages :=
  ⟨fun _ _ => id, fun _ _ => id⟩

theorem Keeps.trans {later : Packages} (first : packages.Keeps after) (second : after.Keeps later) :
    packages.Keeps later :=
  ⟨fun pkg path bound => second.paths pkg path (first.paths pkg path bound),
    fun path pkg bound => second.names path pkg (first.names path pkg bound)⟩

theorem keeps_of_add (added : packages.add limit pkg path = .ok after) : packages.Keeps after := by
  obtain ⟨_, _, ⟨_, rfl⟩ | ⟨⟨freePkg, freePath⟩, rfl⟩⟩ := add_eq_ok_iff.mp added
  · exact .refl packages
  · exact ⟨fun _ _ => getElem?_insert_of_free freePkg,
      fun _ _ => getElem?_insert_of_free freePath⟩

/-- Whatever holds of the packages and is kept by accepted bindings holds after any attempts. -/
theorem attemptAll_of {holds : Packages → Prop}
    (kept : ∀ {packages after : Packages} {limit : Nat} {pkg path : String},
      packages.add limit pkg path = .ok after → holds packages → holds after)
    (attempts : List Attempt) (begins : holds packages) : holds (packages.attemptAll attempts) := by
  unfold attemptAll
  induction attempts generalizing packages with
  | nil => exact begins
  | cons asked rest ih =>
      refine ih ?_
      unfold attempt
      split
      next after added => exact kept added begins
      next => exact begins

theorem paired_attemptAll (begins : packages = .empty ∨ packages = .system)
    (attempts : List Attempt) : (packages.attemptAll attempts).Paired := by
  have paired : packages.Paired := by
    rcases begins with rfl | rfl
    · exact paired_empty
    · exact paired_system
  exact attemptAll_of (fun added paired => paired.add added) attempts paired

theorem keeps_attemptAll (packages : Packages) (attempts : List Attempt) :
    packages.Keeps (packages.attemptAll attempts) :=
  attemptAll_of (fun added kept => kept.trans (keeps_of_add added)) attempts (.refl packages)

/-- After any attempts the bindings are one to one, and names are carried across and back by them;
no later attempt takes a binding away; and a binding is accepted just if its local name is an
identifier, its path is not empty and it is either made already or free on both sides.  It is then
the only one that is new. -/
theorem attemptAll_oneToOne (begins : packages = .empty ∨ packages = .system)
    (attempts : List Attempt) :
    (packages.attemptAll attempts).OneToOne ∧
    (∀ later, (packages.attemptAll attempts).Keeps (packages.attemptAll (attempts ++ later))) ∧
    ∀ limit pkg path,
      ((∃ after, (packages.attemptAll attempts).add limit pkg path = .ok after) ↔
        IsIdentifier limit pkg ∧ path ≠ "" ∧
          ((packages.attemptAll attempts).path? pkg = some path ∨
            (packages.attemptAll attempts).path? pkg = none ∧
              (packages.attemptAll attempts).name? path = none)) ∧
      ∀ after, (packages.attemptAll attempts).add limit pkg path = .ok after → ∀ other,
        after.path? other =
          if pkg = other then some path else (packages.attemptAll attempts).path? other := by
  refine ⟨(paired_attemptAll begins attempts).oneToOne, ?_, fun limit pkg path => ⟨?_, ?_⟩⟩
  · intro later
    have further : packages.attemptAll (attempts ++ later) =
        (packages.attemptAll attempts).attemptAll later := List.foldl_append ..
    rw [further]
    exact keeps_attemptAll _ later
  · simp only [add_eq_ok_iff, exists_and_left, exists_or, exists_eq', and_true]
  · intro after added other
    obtain ⟨_, _, ⟨bound, rfl⟩ | ⟨_, rfl⟩⟩ := add_eq_ok_iff.mp added
    · by_cases same : pkg = other
      · rw [if_pos same, ← same, bound]
      · rw [if_neg same]
    · exact path?_bind ..

/-- A binding that is made twice, among others that are refused for each of the reasons. -/
def twiceBound : List Attempt :=
  [⟨255, "shop", "example.com/shop"⟩, ⟨255, "1bad", "example.com/bad"⟩,
    ⟨255, "shop", "example.com/other"⟩, ⟨255, "other", "example.com/shop"⟩, ⟨255, "empty", ""⟩,
    ⟨255, "shop", "example.com/shop"⟩]

/-- Of these attempts one binding is left beside that of the system, under which names are carried
across and back, and the path that was refused is free. -/
theorem attemptAll_oneToOne_twiceBound :
    (system.attemptAll twiceBound).toList =
      [("shop", "example.com/shop"), (QName.sysPackage, QName.sysPackagePath)] ∧
    (system.attemptAll twiceBound).localName
      ((system.attemptAll twiceBound).fullName ⟨"shop", "Order"⟩) = ⟨"shop", "Order"⟩ ∧
    (system.attemptAll twiceBound).fullName ⟨"other", "Order"⟩ = .null ∧
    ∃ after, (system.attemptAll twiceBound).add 255 "other" "example.com/other" = .ok after := by
  have bound : (system.attemptAll twiceBound).path? "shop" = some "example.com/shop" := by
    decide +kernel
  have freePkg : (system.attemptAll twiceBound).path? "other" = none := by decide +kernel
  have freePath : (system.attemptAll twiceBound).name? "example.com/other" = none := by
    decide +kernel
  have isIdentifier : IsIdentifier 255 "other" :=
    checkIdentifier_eq_ok_iff.mp (Check.isOk_iff.mp (by decide +kernel))
  obtain ⟨oneToOne, _, accepted⟩ := attemptAll_oneToOne (.inr rfl) twiceBound
  exact ⟨by decide +kernel, oneToOne.localName_fullName ⟨"shop", "Order"⟩ _ bound,
    (oneToOne.fullName_eq_null_iff ⟨"other", "Order"⟩).mpr freePkg,
    (accepted 255 "other" "example.com/other").1.mpr
      ⟨isIdentifier, by decide, .inr ⟨freePkg, freePath⟩⟩⟩

end Packages

end TypeCatalog
