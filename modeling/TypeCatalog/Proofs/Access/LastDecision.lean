import Mathlib.Data.List.Induction
import TypeCatalog.Proofs.Access.Query

/-!
# The last rule decides

The rules in scope are gone through one by one, with a flag and a set of fields.  This module
says the same without going through them: a field is allowed if some applicable rule grants it
and no later one revokes it.

* `Rule.Stands`: some rule of a list does something that no later rule undoes.
* `Verdict.mem_fields_apply`, `Verdict.allowed_apply_iff`: one rule more.
* `Scope.mem_fields_verdict_iff`, `Scope.allowed_verdict_iff_exists`: all rules in scope.
* `Scope.query_last_decision`: what an answered query says, for built catalogs.
-/

namespace TypeCatalog

/-! ## Rules that grant and revoke -/

namespace Rule

/-- The rule grants a field of a type, or a field of that name if it lists fields. -/
def Grants (t : TypeDef) (field : String) (rule : Rule) : Prop :=
  rule.policy = .allow ∧ (rule.fields = [] ∧ field ∈ t.fieldNames ∨ field ∈ rule.fields)

/-- The rule revokes a field: it lists it, or it lists none and revokes all of them. -/
def Revokes (field : String) (rule : Rule) : Prop :=
  rule.policy = .deny ∧ (rule.fields = [] ∨ field ∈ rule.fields)

/-- Some rule of the list does something, and no later rule undoes it. -/
def Stands (does undoes : Rule → Prop) (rules : List Rule) : Prop :=
  ∃ earlier rule later, rules = earlier ++ rule :: later ∧ does rule ∧ ∀ r ∈ later, ¬ undoes r

variable {does undoes : Rule → Prop} {rules : List Rule} {rule : Rule}

theorem not_stands_nil : ¬ Stands does undoes [] := by
  intro holds
  obtain ⟨earlier, rule, later, split, _⟩ := holds
  cases earlier <;> cases split

theorem Stands.exists_mem (stands : Stands does undoes rules) : ∃ rule ∈ rules, does rule := by
  obtain ⟨earlier, rule, later, rfl, made, _⟩ := stands
  exact ⟨rule, List.mem_append_right _ List.mem_cons_self, made⟩

/-- What stands after one rule more. -/
theorem stands_concat_iff :
    Stands does undoes (rules ++ [rule]) ↔
      does rule ∨ Stands does undoes rules ∧ ¬ undoes rule := by
  constructor
  · intro holds
    obtain ⟨earlier, r, later, split, made, kept⟩ := holds
    -- Either the added rule is the one that stands, or it comes after that one.
    rcases List.eq_nil_or_concat later with rfl | ⟨before, last, rfl⟩
    · obtain ⟨_, same⟩ := List.append_inj' split rfl
      cases same
      exact .inl made
    · rw [List.concat_eq_append] at split kept
      rw [← List.cons_append, ← List.append_assoc] at split
      obtain ⟨same, sameLast⟩ := List.append_inj' split rfl
      cases sameLast
      refine .inr ⟨⟨earlier, r, before, same, made, fun r' listed => ?_⟩, ?_⟩
      · exact kept r' (List.mem_append_left _ listed)
      · exact kept rule List.mem_concat_self
  · intro holds
    rcases holds with made | ⟨⟨earlier, r, later, rfl, made, kept⟩, spared⟩
    · exact ⟨rules, rule, [], rfl, made, fun _ listed => absurd listed List.not_mem_nil⟩
    · refine ⟨earlier, r, later ++ [rule], by simp, made, fun r' listed => ?_⟩
      rcases List.mem_append.mp listed with old | new
      · exact kept r' old
      · cases List.mem_singleton.mp new
        exact spared

end Rule

/-! ## One rule more -/

namespace Verdict

variable {t : TypeDef} {verdict : Verdict} {rule : Rule} {field : String}

theorem mem_fields_apply :
    field ∈ (verdict.apply t rule).fields ↔
      rule.Grants t field ∨ field ∈ verdict.fields ∧ ¬ rule.Revokes field := by
  unfold apply Rule.Grants Rule.Revokes
  -- Granting or revoking, all fields or some: the four branches of the scan.
  cases policy : rule.policy <;> cases fields : rule.fields
  · simp [Std.ExtTreeSet.mem_insertMany_list, or_comm]
  · simp [Std.ExtTreeSet.mem_insertMany_list, or_comm]
  · simp
  · simp [mem_eraseMany]

theorem allowed_apply_of_allow (grants : rule.policy = .allow) :
    (verdict.apply t rule).allowed = true := by
  unfold apply
  rw [grants]
  cases rule.fields <;> rfl

/-- After a revoke, the operation is allowed if some field is. -/
theorem allowed_apply_iff_of_deny (revokes : rule.policy = .deny) :
    (verdict.apply t rule).allowed = true ↔ ∃ field, field ∈ (verdict.apply t rule).fields := by
  unfold apply
  rw [revokes]
  cases rule.fields with
  | nil => simp
  | cons listed rest =>
      rw [← isEmpty_eq_false_iff_exists_mem]
      exact iff_of_eq (Bool.not_eq_true' _)

/-- On a type with fields, the operation is allowed if some field is. -/
theorem allowed_apply_iff (hasFields : t.fieldNames ≠ []) :
    (verdict.apply t rule).allowed = true ↔ ∃ field, field ∈ (verdict.apply t rule).fields := by
  obtain ⟨known, isKnown⟩ := List.exists_mem_of_ne_nil _ hasFields
  cases policy : rule.policy with
  | deny => exact allowed_apply_iff_of_deny policy
  | allow =>
      refine iff_of_true (allowed_apply_of_allow policy) ?_
      cases fields : rule.fields with
      | nil => exact ⟨known, mem_fields_apply.mpr (.inl ⟨policy, .inl ⟨fields, isKnown⟩⟩)⟩
      | cons listed rest =>
          exact ⟨listed, mem_fields_apply.mpr (.inl ⟨policy, .inr (by rw [fields]; simp)⟩)⟩

/-- A rule without fields decides about the operation by itself. -/
theorem allowed_apply_iff_allow (noFields : rule.fields = []) :
    (verdict.apply t rule).allowed = true ↔ rule.policy = .allow := by
  unfold apply
  rw [noFields]
  cases rule.policy <;> simp

end Verdict

/-! ## All rules in scope -/

namespace Scope

variable {scope : Scope} {operation : Operation} {t : TypeDef} {roles : NameSet} {field : String}

/-- Some applicable rule grants the field, and no later applicable rule revokes it. -/
def GrantStands (scope : Scope) (operation : Operation) (t : TypeDef) (roles : NameSet)
    (field : String) : Prop :=
  Rule.Stands
    (fun rule => rule.Applicable operation t roles ∧ rule.Grants t field)
    (fun rule => rule.Applicable operation t roles ∧ rule.Revokes field) scope.rules

/-- Some rule is applicable, and the last one that is grants. -/
def LastGrants (scope : Scope) (operation : Operation) (t : TypeDef) (roles : NameSet) : Prop :=
  Rule.Stands
    (fun rule => rule.Applicable operation t roles ∧ rule.policy = .allow)
    (fun rule => rule.Applicable operation t roles) scope.rules

/-- The verdict of a list of rules, of which only the applicable ones count. -/
theorem foldl_filter_concat (rules : List Rule) (rule : Rule) (verdict : Verdict) :
    ((rules ++ [rule]).filter (applies operation t roles)).foldl (Verdict.apply t) verdict =
      if applies operation t roles rule = true then
        ((rules.filter (applies operation t roles)).foldl (Verdict.apply t) verdict).apply t rule
      else (rules.filter (applies operation t roles)).foldl (Verdict.apply t) verdict := by
  rw [List.filter_append, List.foldl_append]
  by_cases applicable : applies operation t roles rule = true
  · rw [if_pos applicable, List.filter_cons_of_pos applicable]
    rfl
  · rw [if_neg applicable, List.filter_cons_of_neg applicable]
    rfl

theorem mem_fields_verdict_iff :
    field ∈ (scope.verdict operation t roles).fields ↔
      scope.GrantStands operation t roles field := by
  unfold verdict GrantStands
  simp only [← applies_iff]
  generalize scope.rules = rules
  -- The last rule has the last word, so the induction takes rules off the end of the list.
  induction rules using List.reverseRecOn with
  | nil => simp [Rule.not_stands_nil]
  | append_singleton rules rule ih =>
      rw [foldl_filter_concat, Rule.stands_concat_iff, ← ih]
      split
      next applicable => rw [Verdict.mem_fields_apply]; simp [applicable]
      next applicable => simp [applicable]

/-- On a type with fields, the flag and the set of fields go together. -/
theorem allowed_verdict_iff_exists (hasFields : t.fieldNames ≠ []) :
    (scope.verdict operation t roles).allowed = true ↔
      ∃ field, field ∈ (scope.verdict operation t roles).fields := by
  unfold verdict
  generalize scope.rules = rules
  -- An applicable rule sets the flag and the set anew, whatever they were before it.
  induction rules using List.reverseRecOn with
  | nil => simp
  | append_singleton rules rule ih =>
      rw [foldl_filter_concat]
      split
      next => exact Verdict.allowed_apply_iff hasFields
      next => exact ih

/-- Where no applicable rule lists fields, the last one decides about the operation. -/
theorem allowed_verdict_iff_lastGrants
    (noFields : ∀ rule ∈ scope.rules, rule.Applicable operation t roles → rule.fields = []) :
    (scope.verdict operation t roles).allowed = true ↔ scope.LastGrants operation t roles := by
  unfold verdict LastGrants
  simp only [← applies_iff] at noFields ⊢
  revert noFields
  generalize scope.rules = rules
  intro noFields
  induction rules using List.reverseRecOn with
  | nil => simp [Rule.not_stands_nil]
  | append_singleton rules rule ih =>
      have before := ih fun r listed => noFields r (List.mem_append_left _ listed)
      rw [foldl_filter_concat, Rule.stands_concat_iff, ← before]
      split
      next applicable =>
        have bare := noFields rule List.mem_concat_self applicable
        rw [Verdict.allowed_apply_iff_allow bare]
        simp [applicable]
      next applicable => simp [applicable]

/-! ## Queries -/

theorem fieldNames_ne_nil (fits : t.body.Fits t.kind) (some : t.fields?.isSome = true) :
    t.fieldNames ≠ [] := by
  obtain ⟨known, has⟩ := Option.isSome_iff_exists.mp some
  unfold TypeDef.fieldNames
  rw [has]
  simpa [Fields.names] using TypeDef.fields_ne_nil_of_fits fits has

/-- Rules about a type without fields list no fields: the only operation that can be asked for is
one that cannot be narrowed. -/
theorem fields_eq_nil_of_applicable {rule : Rule} (fits : t.body.Fits t.kind)
    (none : t.fields? = none) (has : operation ∈ t.kind.operations)
    (asked : operation ≠ .inherits) (shaped : Rule.Shaped rule.policy rule.operations rule.fields)
    (applicable : rule.Applicable operation t roles) : rule.fields = [] := by
  have execute := TypeDef.eq_execute_of_fields?_eq_none fits none has asked
  subst execute
  refine Classical.byContradiction fun listed => ?_
  cases shaped.narrowed listed _ applicable.1

theorem exists_grants {rule : Rule} (nonempty : t.fieldNames ≠ []) (grants : rule.policy = .allow) :
    ∃ field, rule.Grants t field := by
  cases listed : rule.fields with
  | nil =>
      obtain ⟨known, isKnown⟩ := List.exists_mem_of_ne_nil _ nonempty
      exact ⟨known, grants, .inl ⟨listed, isKnown⟩⟩
  | cons first rest => exact ⟨first, grants, .inr (by rw [listed]; exact List.mem_cons_self)⟩

/-- With or without fields, an operation is allowed if the last applicable rule grants it or if
the grant of some field stands. -/
theorem allowed_verdict_iff_stands (fits : t.body.Fits t.kind)
    (has : operation ∈ t.kind.operations) (asked : operation ≠ .inherits)
    (shaped : ∀ rule ∈ scope.rules, Rule.Shaped rule.policy rule.operations rule.fields) :
    (scope.verdict operation t roles).allowed = true ↔
      scope.LastGrants operation t roles ∨ ∃ field, scope.GrantStands operation t roles field := by
  cases known : t.fields? with
  | none =>
      have bare : ∀ rule ∈ scope.rules, rule.Applicable operation t roles → rule.fields = [] :=
        fun rule inRules => fields_eq_nil_of_applicable fits known has asked (shaped rule inRules)
      rw [allowed_verdict_iff_lastGrants bare]
      refine (or_iff_left fun stands => ?_).symm
      obtain ⟨field, stands⟩ := stands
      obtain ⟨rule, inRules, applicable, _, own | listed⟩ := stands.exists_mem
      · have none : t.fieldNames = [] := by
          unfold TypeDef.fieldNames
          rw [known]
        rw [none] at own
        cases own.2
      · rw [bare rule inRules applicable] at listed
        cases listed
  | some fields =>
      have nonempty := fieldNames_ne_nil fits (by rw [known]; rfl)
      rw [allowed_verdict_iff_exists nonempty]
      simp only [mem_fields_verdict_iff]
      refine (or_iff_right_of_imp fun last => ?_).symm
      obtain ⟨earlier, rule, later, split, ⟨applicable, grants⟩, kept⟩ := last
      obtain ⟨field, grantsField⟩ := exists_grants nonempty grants
      exact ⟨field, earlier, rule, later, split, ⟨applicable, grantsField⟩,
        fun r listed undone => kept r listed undone.1⟩

/-- An answered query in a built catalog: a field is allowed if a grant of it stands; on a type
with fields the rules allow the operation if some field is allowed, on any other type if the last
applicable rule grants; and the answer takes the fields that were asked for into account. -/
theorem query_last_decision {catalog : Catalog} {resource : QName} {fields : List String}
    {principals : List QName} {access : Access} (built : catalog.Built)
    (inScope : catalog.HasScope scope)
    (answered : scope.query operation resource fields principals = .ok access) :
    let t := scope.resolve resource
    let roles := scope.expand principals
    let verdict := scope.verdict operation t roles
    (∀ field, field ∈ verdict.fields ↔ scope.GrantStands operation t roles field) ∧
    (t.fields?.isSome = true →
      (verdict.allowed = true ↔ ∃ field, field ∈ verdict.fields)) ∧
    (t.fields? = none → (verdict.allowed = true ↔ scope.LastGrants operation t roles)) ∧
    (access.allowed = true ↔ verdict.allowed = true ∧ ∀ field ∈ fields, field ∈ verdict.fields) ∧
    access.fields =
      t.fields?.map fun known => (Fields.names known).filter verdict.fields.contains := by
  intro t roles verdict
  obtain ⟨answerable, allowed, listed⟩ := query_eq_ok_iff.mp answered
  have found := inScope.getElem?_of_mem_operations built answerable.applies
  have fits := built.types_fit found
  refine ⟨fun field => mem_fields_verdict_iff, fun some => ?_, fun none => ?_, ?_, listed⟩
  · exact allowed_verdict_iff_exists (fieldNames_ne_nil fits some)
  · refine allowed_verdict_iff_lastGrants fun rule inRules applicable => ?_
    have shaped := built.rule_shaped (inScope.rule_listed inRules)
    exact fields_eq_nil_of_applicable fits none answerable.applies answerable.asked shaped
      applicable
  · rw [allowed, Bool.and_eq_true, List.all_eq_true]
    simp only [Std.ExtTreeSet.contains_iff_mem]
    rfl

/-- A clerk reads titles: the grant of all fields is revoked for prices only. -/
theorem query_last_decision_clerk :
    Shop.catalog.scope.query .select (Shop.name "article") ["title"] [Shop.name "clerk"] =
      .ok ⟨true, some ["sys.QName", "sys.ID", "sys.IsActive", "title"]⟩ ∧
    ∀ field, field ∈ (Shop.catalog.scope.verdict .select
        (Shop.catalog.scope.resolve (Shop.name "article"))
        (Shop.catalog.scope.expand [Shop.name "clerk"])).fields ↔
      Shop.catalog.scope.GrantStands .select (Shop.catalog.scope.resolve (Shop.name "article"))
        (Shop.catalog.scope.expand [Shop.name "clerk"]) field := by
  have answered : Shop.catalog.scope.query .select (Shop.name "article") ["title"]
      [Shop.name "clerk"] =
        .ok ⟨true, some ["sys.QName", "sys.ID", "sys.IsActive", "title"]⟩ := by decide +kernel
  exact ⟨answered, (query_last_decision Shop.built_catalog .whole answered).1⟩

end Scope

end TypeCatalog
