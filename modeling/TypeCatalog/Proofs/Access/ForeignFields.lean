import TypeCatalog.Proofs.Access.LastDecision

/-!
# Grants of fields that a resource does not have

A rule that lists fields is checked on the types that are visible from the workspace that declares
it.  Workspaces that inherit from there may declare types of their own that the rule selects as
well, and these need not have the fields.  A grant of such a foreign field allows the operation
and no field of the resource.

* `Scope.not_forall_allowed_iff_listed`: so it is not so that an operation is allowed just if
  some field is listed in the answer.
* `Catalog.Built.not_mem_defs_of_foreign`: a rule with a foreign field comes from a workspace that
  does not see the resource.
* `Scope.allowed_iff_listed_or_foreign`: the answer to a query without fields, for all built
  catalogs.
-/

namespace TypeCatalog

/-- A rule that lists a field that a resource does not have was declared by a workspace that the
resource is not visible from. -/
theorem Catalog.Built.not_mem_defs_of_foreign {catalog : Catalog} (built : catalog.Built)
    {rule : Rule} {t : TypeDef} {known : Fields} {field : String} (inRules : rule ∈ catalog.rules)
    (selected : rule.selector.selects t = true) (has : t.fields? = some known)
    (listed : field ∈ rule.fields) (foreign : field ∉ t.fieldNames) :
    ∃ ws, catalog.workspace? rule.workspace = some ws ∧ t ∉ ws.defs := by
  obtain ⟨ws, viewed⟩ := built.rule_declared inRules
  refine ⟨ws, viewed, fun visible => foreign ?_⟩
  have fits := built.rule_fits inRules viewed visible selected
  unfold TypeDef.fieldNames
  rw [has]
  exact fits.known known has field listed

namespace Scope

variable {scope : Scope} {catalog : Catalog} {operation : Operation} {resource : QName}
  {principals : List QName} {access : Access}

/-- Readers may select notes, through the title that notes do not have, and no field of them. -/
theorem query_note : Shop.catalog.scope.query .select (Shop.name "note") [] [Shop.name "reader"] =
    .ok ⟨true, some []⟩ := by
  decide +kernel

/-- An operation may be allowed on a resource with fields although no field is listed. -/
theorem not_forall_allowed_iff_listed :
    ¬ ∀ (catalog : Catalog) (scope : Scope) (operation : Operation) (resource : QName)
        (principals : List QName) (access : Access) (listed : List String),
      catalog.Built → catalog.HasScope scope →
      scope.query operation resource [] principals = .ok access → access.fields = some listed →
      (access.allowed = true ↔ listed ≠ []) := by
  intro claim
  have allowed := claim Shop.catalog Shop.catalog.scope .select (Shop.name "note")
    [Shop.name "reader"] _ [] Shop.built_catalog .whole query_note rfl
  exact allowed.mp rfl rfl

/-- What a query lists are the allowed ones among the fields of the resource. -/
theorem exists_listed_iff {t : TypeDef} {verdict : Verdict} (hasFields : t.fields?.isSome = true) :
    (∃ listed, allowedFields t verdict = some listed ∧ listed ≠ []) ↔
      ∃ field ∈ t.fieldNames, field ∈ verdict.fields := by
  obtain ⟨known, has⟩ := Option.isSome_iff_exists.mp hasFields
  unfold allowedFields TypeDef.fieldNames
  simp [has, List.filter_eq_nil_iff]

/-- The set that goes with the flag may hold fields of the resource and others. -/
theorem allowed_verdict_iff_own_or_foreign {t : TypeDef} {roles : NameSet}
    (nonempty : t.fieldNames ≠ []) :
    (scope.verdict operation t roles).allowed = true ↔
      (∃ field ∈ t.fieldNames, field ∈ (scope.verdict operation t roles).fields) ∨
        ∃ field, field ∉ t.fieldNames ∧ scope.GrantStands operation t roles field := by
  rw [allowed_verdict_iff_exists nonempty]
  constructor
  · intro granted
    obtain ⟨field, mem⟩ := granted
    by_cases own : field ∈ t.fieldNames
    · exact .inl ⟨field, own, mem⟩
    · exact .inr ⟨field, own, mem_fields_verdict_iff.mp mem⟩
  · intro granted
    rcases granted with ⟨field, _, mem⟩ | ⟨field, _, stands⟩
    · exact ⟨field, mem⟩
    · exact ⟨field, mem_fields_verdict_iff.mpr stands⟩

/-- On a resource with fields, an operation is allowed if the answer lists a field or if the grant
of a foreign field stands.  Only workspaces that do not see the resource declare rules with
foreign fields; so where the grants of fields come from workspaces that see it, the operation is
allowed just if a field is listed. -/
theorem allowed_iff_listed_or_foreign (built : catalog.Built) (inScope : catalog.HasScope scope)
    (answered : scope.query operation resource [] principals = .ok access)
    (hasFields : (scope.resolve resource).fields?.isSome = true) :
    let t := scope.resolve resource
    let roles := scope.expand principals
    (access.allowed = true ↔
      (∃ listed, access.fields = some listed ∧ listed ≠ []) ∨
        ∃ field, field ∉ t.fieldNames ∧ scope.GrantStands operation t roles field) ∧
    (∀ rule ∈ scope.rules, rule.Applicable operation t roles →
      ∀ field ∈ rule.fields, field ∉ t.fieldNames →
        ∃ ws, catalog.workspace? rule.workspace = some ws ∧ t ∉ ws.defs) ∧
    ((∀ rule ∈ scope.rules, rule.Applicable operation t roles → rule.policy = .allow →
        rule.fields ≠ [] → ∀ ws, catalog.workspace? rule.workspace = some ws → t ∈ ws.defs) →
      (access.allowed = true ↔ ∃ listed, access.fields = some listed ∧ listed ≠ [])) := by
  intro t roles
  obtain ⟨answerable, allowed, listed⟩ := query_eq_ok_iff.mp answered
  have found := inScope.getElem?_of_mem_operations built answerable.applies
  obtain ⟨known, has⟩ := Option.isSome_iff_exists.mp hasFields
  have nonempty := fieldNames_ne_nil (built.types_fit found) hasFields
  have flag : access.allowed = true ↔
      (∃ listed, access.fields = some listed ∧ listed ≠ []) ∨
        ∃ field, field ∉ t.fieldNames ∧ scope.GrantStands operation t roles field := by
    -- No field is asked for, so the flag of the verdict is the answer.
    rw [allowed, List.all_nil, Bool.and_true, listed, exists_listed_iff hasFields]
    exact allowed_verdict_iff_own_or_foreign nonempty
  have foreign : ∀ rule ∈ scope.rules, rule.Applicable operation t roles →
      ∀ field ∈ rule.fields, field ∉ t.fieldNames →
        ∃ ws, catalog.workspace? rule.workspace = some ws ∧ t ∉ ws.defs := by
    intro rule inRules applicable field lists notOwn
    exact built.not_mem_defs_of_foreign (inScope.rule_listed inRules) applicable.2.2 has lists
      notOwn
  refine ⟨flag, foreign, fun seen => flag.trans (or_iff_left fun stale => ?_)⟩
  obtain ⟨field, notOwn, stands⟩ := stale
  obtain ⟨rule, inRules, applicable, grants⟩ := stands.exists_mem
  have lists : field ∈ rule.fields := by
    rcases grants.2 with ⟨_, own⟩ | lists
    · exact absurd own notOwn
    · exact lists
  obtain ⟨ws, viewed, hidden⟩ := foreign rule inRules applicable field lists notOwn
  exact hidden (seen rule inRules applicable grants.1 (List.ne_nil_of_mem lists) ws viewed)

/-- The grant of titles to readers stands for notes, which have no title. -/
theorem allowed_iff_listed_or_foreign_note :
    ∃ field, field ∉ (Shop.catalog.scope.resolve (Shop.name "note")).fieldNames ∧
      Shop.catalog.scope.GrantStands .select (Shop.catalog.scope.resolve (Shop.name "note"))
        (Shop.catalog.scope.expand [Shop.name "reader"]) field := by
  have hasFields : (Shop.catalog.scope.resolve (Shop.name "note")).fields?.isSome = true := by
    decide +kernel
  have decided := allowed_iff_listed_or_foreign Shop.built_catalog .whole query_note hasFields
  rcases decided.1.mp rfl with ⟨listed, same, nonempty⟩ | foreign
  · cases same
    exact absurd rfl nonempty
  · exact foreign

end Scope

end TypeCatalog
