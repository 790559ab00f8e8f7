import TypeCatalog.Draft.Edit

/-!
# Outcomes of changes

`Build.Yields action draft post` is what the specifications of edits say: the action either fails
and leaves the draft as it found it, or succeeds with an answer and a draft that `post` accepts.
An action is walked from its first check on; each rule below crosses one line of it.

* `yields_get`, `yields_check`, `yields_unless` cross lines that only look at the draft.
* `yields_modify`, `yields_set` end a walk at the line that changes the draft.  An action that
  goes on from there (`yields_bind`) has to show that it succeeds.
-/

namespace TypeCatalog

namespace Build

variable {α β : Type} {draft : Draft} {post : α → Draft → Prop}

/-- The action fails and leaves the draft alone, or it succeeds and `post` holds of its answer and
the draft that it leaves. -/
def Yields (action : Build α) (draft : Draft) (post : α → Draft → Prop) : Prop :=
  match action draft with
  | .ok a after => post a after
  | .error _ after => after = draft

theorem Yields.mono {action : Build α} {post' : α → Draft → Prop}
    (yields : Yields action draft post) (weaker : ∀ a after, post a after → post' a after) :
    Yields action draft post' := by
  unfold Yields at yields ⊢
  cases run : action draft with
  | ok a after =>
      rw [run] at yields
      exact weaker a after yields
  | error error after =>
      rw [run] at yields
      exact yields

/-! ## Lines that look at the draft -/

theorem yields_throw {error : DefinitionError} : Yields (throw error) draft post := rfl

theorem yields_get {next : Draft → Build α} (yields : Yields (next draft) draft post) :
    Yields (get >>= next) draft post := yields

/-- A check whose success is taken into account. -/
theorem yields_check {check : Except DefinitionError β} {next : β → Build α}
    (yields : ∀ b, check = .ok b → Yields (next b) draft post) :
    Yields (liftM check >>= next) draft post := by
  cases outcome : check with
  | ok b => exact yields b outcome
  | error error => exact rfl

/-- A refusal under a condition. -/
theorem yields_unless {refused : Prop} [Decidable refused] {error : DefinitionError}
    {next : Unit → Build α} (yields : ¬ refused → Yields (next ()) draft post) :
    Yields (if refused then throw error >>= next else next ()) draft post := by
  by_cases condition : refused
  · rw [if_pos condition]
    exact rfl
  · rw [if_neg condition]
    exact yields condition

/-! ## Lines that change the draft -/

theorem yields_pure {a : α} (holds : post a draft) : Yields (pure a) draft post := holds

theorem yields_modify {change : Draft → Draft} {post : Unit → Draft → Prop}
    (holds : post () (change draft)) : Yields (modify change) draft post := holds

theorem yields_set {after : Draft} {post : PUnit → Draft → Prop} (holds : post ⟨⟩ after) :
    Yields (set after) draft post := holds

/-- A change that nothing can fail after. -/
theorem yields_bind {action : Build β} {next : β → Build α} {middle : β → Draft → Prop}
    (first : Yields action draft middle)
    (second : ∀ b changed, middle b changed →
      ∃ a after, next b changed = .ok a after ∧ post a after) :
    Yields (action >>= next) draft post := by
  unfold Yields at first ⊢
  change match EStateM.bind action next draft with
    | .ok a after => post a after
    | .error _ after => after = draft
  unfold EStateM.bind
  cases run : action draft with
  | ok b changed =>
      rw [run] at first
      obtain ⟨a, after, continued, holds⟩ := second b changed first
      simp only [continued]
      exact holds
  | error error changed =>
      rw [run] at first
      exact first

/-! ## Runs that are known to succeed -/

theorem run_get {next : Draft → Build α} : (get >>= next) draft = next draft draft := rfl

theorem run_check {check : Except DefinitionError β} {b : β} {next : β → Build α}
    (passed : check = .ok b) : (liftM check >>= next) draft = next b draft := by
  rw [passed]
  rfl

end Build

end TypeCatalog
