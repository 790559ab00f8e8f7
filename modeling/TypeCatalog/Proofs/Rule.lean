import TypeCatalog.Proofs.Checks
import TypeCatalog.Rule

/-!
# Rules that are accepted

* `Rule.Shaped`, `Rule.checkShape_eq_ok_iff`: what the check of a rule by itself comes to.
* `Rule.FitsOn`, `Rule.checkOn_eq_ok_iff`: what the check of a rule on one selected type comes to.
-/

namespace TypeCatalog

theorem Fields.has_iff_mem_names {fields : Fields} {name : String} :
    fields.has name = true ↔ name ∈ fields.names := by
  simp [Fields.has, Fields.get?, Fields.names]

namespace Rule

variable {policy : Policy} {operations : OperationSet} {fields : List String} {t : TypeDef}

/-- There are operations; inheritance is granted, and by itself; and where there are fields, all
the operations can be narrowed to fields. -/
structure Shaped (policy : Policy) (operations : OperationSet) (fields : List String) : Prop where
  given : operations.isEmpty = false
  alone : Operation.inherits ∈ operations → operations.size ≤ 1 ∧ policy = .allow
  narrowed : fields ≠ [] → ∀ op ∈ operations, op.hasFields = true

/-- The last part of the check, which is about fields. -/
theorem narrowed_iff :
    (if (!fields.isEmpty) = true then
      match operations.toList.find? fun op => !op.hasFields with
      | some op => throw (DefinitionError.operationWithFields op)
      | none => pure ()
    else pure ()) = (Except.ok () : Except DefinitionError Unit) ↔
      (fields ≠ [] → ∀ op ∈ operations, op.hasFields = true) := by
  cases fields with
  | nil => simp [pure, Except.pure]
  | cons field rest =>
      rw [if_pos (by simp)]
      cases refused : operations.toList.find? fun op => !op.hasFields with
      | none =>
          refine iff_of_true rfl fun _ => ?_
          simpa using refused
      | some op =>
          refine iff_of_false (fun passed => by cases passed) fun narrowed => ?_
          have isRefused := List.find?_some refused
          have listed := Std.ExtTreeSet.mem_toList.mp (List.mem_of_find?_eq_some refused)
          rw [narrowed (List.cons_ne_nil _ _) op listed] at isRefused
          cases isRefused

theorem checkShape_eq_ok_iff :
    checkShape policy operations fields = .ok () ↔ Shaped policy operations fields := by
  unfold checkShape
  constructor
  · intro passed
    obtain ⟨given, passed⟩ := Check.unless_eq_ok_iff.mp passed
    rw [Bool.not_eq_true] at given
    dsimp only at passed
    by_cases isInherits : operations.contains .inherits = true
    · rw [if_pos isInherits] at passed
      obtain ⟨single, passed⟩ := Check.unless_eq_ok_iff.mp passed
      obtain ⟨grants, passed⟩ := Check.unless_eq_ok_iff.mp passed
      have allows : policy = .allow := by
        cases policy with
        | allow => rfl
        | deny => exact absurd rfl grants
      exact ⟨given, fun _ => ⟨Nat.not_lt.mp single, allows⟩, narrowed_iff.mp passed⟩
    · rw [if_neg isInherits] at passed
      exact ⟨given, fun mem => absurd (Std.ExtTreeSet.mem_iff_contains.mp mem) isInherits,
        narrowed_iff.mp passed⟩
  · intro shaped
    have narrowed := narrowed_iff.mpr shaped.narrowed
    dsimp only
    rw [shaped.given, if_neg Bool.false_ne_true]
    by_cases isInherits : operations.contains .inherits = true
    · obtain ⟨single, rfl⟩ := shaped.alone (Std.ExtTreeSet.mem_iff_contains.mpr isInherits)
      rw [if_pos isInherits, if_neg (Nat.not_lt.mpr single), if_neg (by simp)]
      exact narrowed
    · rw [if_neg isInherits]
      exact narrowed

/-- The type is a resource that all the operations apply to, and has the fields unless it has no
fields at all. -/
structure FitsOn (operations : OperationSet) (fields : List String) (t : TypeDef) : Prop where
  resource : t.kind.operations ≠ []
  applies : ∀ op ∈ operations, op ∈ t.kind.operations
  known : ∀ known, t.fields? = some known → ∀ f ∈ fields, f ∈ known.names

theorem checkOn_eq_ok_iff : checkOn operations fields t = .ok () ↔ FitsOn operations fields t := by
  unfold checkOn
  constructor
  · intro passed
    obtain ⟨resource, passed⟩ := Check.unless_eq_ok_iff.mp passed
    dsimp only at passed
    split at passed
    next => cases passed
    next applies =>
      refine ⟨by simpa using resource, by simpa using applies, fun known has f listed => ?_⟩
      rw [has] at passed
      dsimp only at passed
      split at passed
      next => cases passed
      next clean =>
        have isKnown : known.has f = true := by simpa using List.find?_eq_none.mp clean f listed
        exact Fields.has_iff_mem_names.mp isKnown
  · intro fits
    have applies : (operations.toList.find? fun op => !t.kind.operations.contains op) = none := by
      simpa using fits.applies
    rw [if_neg (by simpa using fits.resource), applies]
    dsimp only
    cases has : t.fields? with
    | none => rfl
    | some known =>
        have clean : (fields.find? fun f => !known.has f) = none := by
          rw [List.find?_eq_none]
          intro f listed
          rw [Fields.has_iff_mem_names.mpr (fits.known known has f listed)]
          exact Bool.false_ne_true
        dsimp only
        rw [clean]
        rfl

end Rule

end TypeCatalog
