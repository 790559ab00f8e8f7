import Mathlib.Data.List.Basic
import TypeCatalog.Proofs.Access.Inheritance
import TypeCatalog.Proofs.Access.LastDecision

/-!
# One rule more

The rules in scope are gone through with a flag and a set of fields, and a revoke of fields works
the flag out anew from the fields that are left.  A rule that is put somewhere into the list may
therefore change what later rules do with the flag.  It never turns less into more: a revoke
allows nothing that was not allowed without it, and a grant takes nothing away.

* `Verdict.Within`: one verdict allows no more than another.  Every rule keeps this
  (`Verdict.Within.apply`), and so does a list of rules (`Verdict.Within.foldl`).
* `Verdict.Flagged`: fields are allowed only together with the operation.  This is what a revoke
  of fields relies on (`Verdict.apply_within_of_deny`).
* `Scope.query_insert`: what a rule in the middle of the list does to answers.
-/

namespace TypeCatalog

/-! ## Verdicts that allow no more than others -/

namespace Verdict

variable {t : TypeDef} {verdict small large : Verdict} {rule : Rule}

/-- One verdict allows no more than another. -/
structure Within (small large : Verdict) : Prop where
  allowed : small.allowed = true → large.allowed = true
  fields : ∀ field ∈ small.fields, field ∈ large.fields

/-- Fields are allowed only together with the operation. -/
def Flagged (verdict : Verdict) : Prop :=
  ∀ field ∈ verdict.fields, verdict.allowed = true

theorem Within.refl : verdict.Within verdict := ⟨id, fun _ => id⟩

theorem flagged_empty : Flagged {} := fun _ mem => absurd mem Std.ExtTreeSet.not_mem_empty

/-- Whatever comes before it, a rule leaves no field allowed without the operation. -/
theorem flagged_apply : (verdict.apply t rule).Flagged := by
  intro field mem
  cases policy : rule.policy with
  | allow => exact allowed_apply_of_allow policy
  | deny => exact (allowed_apply_iff_of_deny policy).mpr ⟨field, mem⟩

theorem flagged_foldl (flagged : verdict.Flagged) (rules : List Rule) :
    (rules.foldl (apply t) verdict).Flagged := by
  induction rules generalizing verdict with
  | nil => exact flagged
  | cons rule rest ih => exact ih flagged_apply

/-- A rule makes no difference between two verdicts that was not there before. -/
theorem Within.apply (within : small.Within large) (rule : Rule) :
    (small.apply t rule).Within (large.apply t rule) := by
  have fields : ∀ field ∈ (small.apply t rule).fields, field ∈ (large.apply t rule).fields := by
    intro field mem
    rw [mem_fields_apply] at mem ⊢
    exact mem.imp_right (And.imp_left (within.fields field))
  refine ⟨fun allowed => ?_, fields⟩
  cases policy : rule.policy with
  | allow => exact allowed_apply_of_allow policy
  | deny =>
      obtain ⟨field, mem⟩ := (allowed_apply_iff_of_deny policy).mp allowed
      exact (allowed_apply_iff_of_deny policy).mpr ⟨field, fields field mem⟩

theorem Within.foldl (within : small.Within large) (rules : List Rule) :
    (rules.foldl (Verdict.apply t) small).Within (rules.foldl (Verdict.apply t) large) := by
  induction rules generalizing small large with
  | nil => exact within
  | cons rule rest ih => exact ih (within.apply rule)

theorem within_apply_of_allow (grants : rule.policy = .allow) :
    verdict.Within (verdict.apply t rule) where
  allowed _ := allowed_apply_of_allow grants
  fields field mem := by
    refine mem_fields_apply.mpr (.inr ⟨mem, fun revokes => ?_⟩)
    cases grants.symm.trans revokes.1

/-- A revoke that leaves a field allowed found it allowed, and the operation with it. -/
theorem apply_within_of_deny (flagged : verdict.Flagged) (revokes : rule.policy = .deny) :
    (verdict.apply t rule).Within verdict := by
  have fields : ∀ field ∈ (verdict.apply t rule).fields, field ∈ verdict.fields := by
    intro field mem
    rcases mem_fields_apply.mp mem with grants | ⟨former, _⟩
    · cases grants.1.symm.trans revokes
    · exact former
  refine ⟨fun allowed => ?_, fields⟩
  obtain ⟨field, mem⟩ := (allowed_apply_iff_of_deny revokes).mp allowed
  exact flagged field (fields field mem)

end Verdict

/-! ## Answers that allow no more than others -/

/-- One answer allows no more than another. -/
structure Access.Within (small large : Access) : Prop where
  allowed : small.allowed = true → large.allowed = true
  fields : Option.Rel List.Sublist small.fields large.fields

namespace Scope

variable {scope small large : Scope} {operation : Operation} {resource : QName}
  {fields : List String} {principals : List QName} {t : TypeDef} {roles : NameSet}
  {before after : List Rule} {rule : Rule}

/-- A query is refused twice for the same reason, or it is answered twice and the first answer
allows no more than the second. -/
inductive AnswersWithin : Except AccessError Access → Except AccessError Access → Prop
  | refused (error : AccessError) : AnswersWithin (.error error) (.error error)
  | answered {small large : Access} :
    small.Within large → AnswersWithin (.ok small) (.ok large)

/-- What a query reads off a verdict that allows no more. -/
theorem access_within {small large : Verdict} (within : small.Within large) :
    Access.Within ⟨small.allowed && fields.all small.fields.contains, allowedFields t small⟩
      ⟨large.allowed && fields.all large.fields.contains, allowedFields t large⟩ where
  allowed isAllowed := by
    simp only [Bool.and_eq_true, List.all_eq_true, Std.ExtTreeSet.contains_iff_mem] at isAllowed ⊢
    exact ⟨within.allowed isAllowed.1, fun f asked => within.fields f (isAllowed.2 f asked)⟩
  fields := by
    unfold allowedFields
    cases t.fields? with
    | none => exact .none
    | some known =>
        refine .some (List.monotone_filter_right _ fun f allowed => ?_)
        rw [Std.ExtTreeSet.contains_iff_mem] at allowed ⊢
        exact within.fields f allowed

/-- Where names mean the same, answers compare as the verdicts of the rules do. -/
theorem query_within (same : small.resolve = large.resolve)
    (within : ∀ t, (small.verdict operation t (small.expand principals)).Within
      (large.verdict operation t (large.expand principals))) :
    AnswersWithin (small.query operation resource fields principals)
      (large.query operation resource fields principals) := by
  unfold query
  rw [checkQuery_congr same]
  cases large.checkQuery operation resource fields principals with
  | error error => exact .refused error
  | ok t => exact .answered (access_within (within t))

/-! ## A rule in the middle of the list -/

theorem verdict_insert_within_of_deny (revokes : rule.policy = .deny) :
    ({ scope with rules := before ++ rule :: after }.verdict operation t roles).Within
      ({ scope with rules := before ++ after }.verdict operation t roles) := by
  unfold verdict
  dsimp only
  rw [List.filter_append, List.filter_append, List.foldl_append, List.foldl_append]
  by_cases applicable : applies operation t roles rule = true
  · rw [List.filter_cons_of_pos applicable, List.foldl_cons]
    have flagged := Verdict.flagged_foldl (t := t) Verdict.flagged_empty
      (before.filter (applies operation t roles))
    exact (Verdict.apply_within_of_deny flagged revokes).foldl _
  · rw [List.filter_cons_of_neg applicable]
    exact .refl

theorem verdict_within_insert_of_allow (grants : rule.policy = .allow) :
    ({ scope with rules := before ++ after }.verdict operation t roles).Within
      ({ scope with rules := before ++ rule :: after }.verdict operation t roles) := by
  unfold verdict
  dsimp only
  rw [List.filter_append, List.filter_append, List.foldl_append, List.foldl_append]
  by_cases applicable : applies operation t roles rule = true
  · rw [List.filter_cons_of_pos applicable, List.foldl_cons]
    exact (Verdict.within_apply_of_allow grants).foldl _
  · rw [List.filter_cons_of_neg applicable]
    exact .refl

/-- Only grants of inheritance lead from role to role. -/
theorem leads_insert (idle : rule.policy = .allow → .inherits ∉ rule.operations) :
    { scope with rules := before ++ rule :: after }.Leads =
      { scope with rules := before ++ after }.Leads := by
  funext a b
  refine propext (exists_congr fun r => ?_)
  simp only [List.mem_append, List.mem_cons]
  constructor
  · intro leads
    obtain ⟨listed, grants, inherits, rest⟩ := leads
    refine ⟨?_, grants, inherits, rest⟩
    rcases listed with earlier | rfl | later
    · exact .inl earlier
    · exact absurd inherits (idle grants)
    · exact .inr later
  · intro leads
    obtain ⟨listed, rest⟩ := leads
    exact ⟨listed.imp_right .inr, rest⟩

theorem expand_insert (idle : rule.policy = .allow → .inherits ∉ rule.operations) :
    { scope with rules := before ++ rule :: after }.expand principals =
      { scope with rules := before ++ after }.expand principals := by
  refine Std.ExtTreeSet.ext_mem fun name => ?_
  rw [mem_expand_iff, mem_expand_iff, leads_insert idle]

/-- A revoke may be put anywhere into the rules: what is allowed with it was allowed without it.
A grant may be put anywhere, unless it grants inheritance: what was allowed without it is allowed
with it.  Queries are refused in the same way with it and without it. -/
theorem query_insert (scope : Scope) (before after : List Rule) (rule : Rule)
    (operation : Operation) (resource : QName) (fields : List String) (principals : List QName) :
    (rule.policy = .deny →
      AnswersWithin
        ({ scope with rules := before ++ rule :: after }.query operation resource fields principals)
        ({ scope with rules := before ++ after }.query operation resource fields principals)) ∧
    (rule.policy = .allow → .inherits ∉ rule.operations →
      AnswersWithin
        ({ scope with rules := before ++ after }.query operation resource fields principals)
        ({ scope with rules := before ++ rule :: after }.query operation resource fields
          principals)) := by
  constructor
  · intro revokes
    refine query_within rfl fun t => ?_
    rw [expand_insert fun grants => by cases grants.symm.trans revokes]
    exact verdict_insert_within_of_deny revokes
  · intro grants idle
    refine query_within rfl fun t => ?_
    rw [expand_insert fun _ => idle]
    exact verdict_within_insert_of_allow grants

end Scope

namespace Shop

/-- Gives all articles to readers, or takes all of them away. -/
def onArticles (policy : Policy) : Rule where
  position := 2
  policy
  operations := .ofList [Operation.select]
  selector := .names (.ofList [name "article"])
  fields := []
  principal := name "reader"
  workspace := name "base"

/-- The shop, with some rules after its first two. -/
def scopeWith (later : List Rule) : Scope :=
  { catalog.scope with rules := catalog.rules.take 2 ++ later }

end Shop

namespace Scope

/-- Readers keep the titles of articles, which a later rule grants, when all articles are taken
from them in between; and they keep them when all articles are given to them. -/
theorem query_insert_onArticles :
    let later := Shop.catalog.rules.drop 2
    let query (rules : List Rule) := (Shop.scopeWith rules).query .select (Shop.name "article")
      ["title"] [Shop.name "reader"]
    query (Shop.onArticles .deny :: later) = .ok ⟨true, some ["title"]⟩ ∧
      AnswersWithin (query (Shop.onArticles .deny :: later)) (query later) ∧
      AnswersWithin (query later) (query (Shop.onArticles .allow :: later)) := by
  have insert (policy : Policy) := query_insert Shop.catalog.scope (Shop.catalog.rules.take 2)
    (Shop.catalog.rules.drop 2) (Shop.onArticles policy) .select (Shop.name "article") ["title"]
    [Shop.name "reader"]
  exact ⟨by decide +kernel, (insert .deny).1 rfl, (insert .allow).2 rfl (by decide +kernel)⟩

end Scope

end TypeCatalog
