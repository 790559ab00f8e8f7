import TypeCatalog.DefinitionError

/-!
# Checks that succeed

A check is a sequence of refusals that ends in an answer.  The rules below read from the success of
a check that none of its refusals came about.
-/

namespace TypeCatalog

namespace Check

variable {ε α β : Type} {b : β}

/-- A sequence succeeds if its parts do. -/
theorem bind_eq_ok_iff {check : Except ε α} {next : α → Except ε β} :
    (check >>= next) = .ok b ↔ ∃ a, check = .ok a ∧ next a = .ok b := by
  cases check with
  | ok a =>
      constructor
      · intro passed
        exact ⟨a, rfl, passed⟩
      · intro holds
        obtain ⟨_, same, passed⟩ := holds
        cases same
        exact passed
  | error error =>
      constructor
      · intro passed
        cases passed
      · intro holds
        obtain ⟨_, same, _⟩ := holds
        cases same

/-- A check without an answer of its own stands before what is done next. -/
theorem guard_eq_ok_iff {check : Except ε Unit} {next : Unit → Except ε β} :
    (check >>= next) = .ok b ↔ check = .ok () ∧ next () = .ok b := by
  rw [bind_eq_ok_iff]
  constructor
  · intro passed
    obtain ⟨_, passed⟩ := passed
    exact passed
  · intro passed
    exact ⟨(), passed⟩

/-- A line that refuses under a condition is crossed if the condition does not hold. -/
theorem unless_eq_ok_iff {refused : Prop} [Decidable refused] {error : ε}
    {next : Unit → Except ε β} :
    (if refused then throw error >>= next else next ()) = .ok b ↔
      ¬ refused ∧ next () = .ok b := by
  by_cases condition : refused
  · rw [if_pos condition]
    constructor
    · intro passed
      cases passed
    · intro holds
      obtain ⟨crossed, _⟩ := holds
      exact absurd condition crossed
  · rw [if_neg condition]
    exact ⟨fun passed => ⟨condition, passed⟩, And.right⟩

theorem pure_eq_ok_iff {a : β} : (pure a : Except ε β) = .ok b ↔ a = b := by
  constructor
  · intro same
    cases same
    rfl
  · intro same
    subst same
    rfl

theorem map_eq_ok_iff {check : Except ε α} {f : α → β} :
    check.map f = .ok b ↔ ∃ a, check = .ok a ∧ f a = b := by
  cases check with
  | ok a => simp [Except.map]
  | error error => simp [Except.map]

theorem isOk_iff {check : Except ε Unit} : check.isOk = true ↔ check = .ok () := by
  cases check with
  | ok _ => exact iff_of_true rfl rfl
  | error _ => exact iff_of_false Bool.false_ne_true (by simp)

end Check

end TypeCatalog
