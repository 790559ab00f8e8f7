import TypeCatalog.Access
import TypeCatalog.Proofs.BuiltCatalog
import TypeCatalog.Proofs.Checks

/-!
# Queries that have an answer

* `Rule.Applicable`: what it takes for a rule to count in a query.
* `Scope.Answerable`: all that is asked of a query before any rule is looked at.
* `Scope.checkQuery_eq_ok_iff`, `Scope.query_eq_ok_iff`: a query has an answer exactly if it is
  answerable, and the answer is read off the verdict of the rules.
* `Catalog.Built.answerable_of_visible`: what workspaces of built catalogs can be asked.
-/

namespace TypeCatalog

/-- The rule is about the operation and selects the type, and it is made to one of the roles. -/
def Rule.Applicable (operation : Operation) (t : TypeDef) (roles : NameSet) (rule : Rule) : Prop :=
  operation ∈ rule.operations ∧ rule.principal ∈ roles ∧ rule.selector.selects t = true

namespace Scope

variable {scope other : Scope} {operation : Operation} {resource : QName} {fields : List String}
  {principals others : List QName} {t : TypeDef} {roles : NameSet} {rule : Rule} {access : Access}

/-- The operation can be asked for and applies to the resource, which has the fields; there are
principals, and all of them are roles. -/
structure Answerable (scope : Scope) (operation : Operation) (resource : QName)
    (fields : List String) (principals : List QName) : Prop where
  asked : operation ≠ .inherits
  applies : operation ∈ (scope.resolve resource).kind.operations
  known : ∀ f ∈ fields, (scope.resolve resource).hasField f = true
  given : principals ≠ []
  roles : ∀ p ∈ principals, (scope.resolve p).kind = .role

/-- Nothing applies to the type that is not there. -/
theorem Answerable.isNull_eq_false
    (answerable : scope.Answerable operation resource fields principals) :
    (scope.resolve resource).isNull = false := by
  have applies := answerable.applies
  unfold TypeDef.isNull
  rw [beq_eq_false_iff_ne]
  intro isNull
  rw [isNull] at applies
  cases applies

theorem checkQuery_eq_ok_iff :
    scope.checkQuery operation resource fields principals = .ok t ↔
      scope.Answerable operation resource fields principals ∧ scope.resolve resource = t := by
  unfold checkQuery
  constructor
  · intro passed
    obtain ⟨asked, passed⟩ := Check.unless_eq_ok_iff.mp passed
    obtain ⟨_, passed⟩ := Check.unless_eq_ok_iff.mp passed
    obtain ⟨applies, passed⟩ := Check.unless_eq_ok_iff.mp passed
    dsimp only at passed
    split at passed
    next => cases passed
    next known =>
      obtain ⟨given, passed⟩ := Check.unless_eq_ok_iff.mp passed
      split at passed
      next => cases passed
      next roles =>
        cases passed
        simp only [List.find?_eq_none, Bool.not_eq_true, Bool.not_eq_false', bne_iff_ne, ne_eq,
          Decidable.not_not] at known roles
        refine ⟨⟨asked, ?_, known, ?_, roles⟩, rfl⟩
        · simpa using applies
        · simpa using given
  · intro holds
    obtain ⟨answerable, rfl⟩ := holds
    have known : (fields.find? fun f => !(scope.resolve resource).hasField f) = none := by
      simpa using answerable.known
    have roles : (principals.find? fun p => (scope.resolve p).kind != .role) = none := by
      simpa using answerable.roles
    have applies : ¬ (!(scope.resolve resource).kind.operations.contains operation) = true := by
      simpa using answerable.applies
    have given : ¬ principals.isEmpty = true := by simpa using answerable.given
    dsimp only
    rw [if_neg answerable.asked, answerable.isNull_eq_false, if_neg Bool.false_ne_true,
      if_neg applies, known, roles]
    exact if_neg given

/-- The check of a query looks at nothing but what names mean. -/
theorem checkQuery_congr (same : scope.resolve = other.resolve) :
    scope.checkQuery operation resource fields principals =
      other.checkQuery operation resource fields principals := by
  unfold checkQuery
  rw [same]

/-- The check of a query does not tell lists of roles apart. -/
theorem checkQuery_eq_of_roles (operation : Operation) (resource : QName) (fields : List String)
    (given : principals ≠ []) (givenOthers : others ≠ [])
    (known : ∀ p ∈ principals, (scope.resolve p).kind = .role)
    (knownOthers : ∀ p ∈ others, (scope.resolve p).kind = .role) :
    scope.checkQuery operation resource fields principals =
      scope.checkQuery operation resource fields others := by
  have roles : ∀ list : List QName, (∀ p ∈ list, (scope.resolve p).kind = .role) →
      (list.find? fun p => (scope.resolve p).kind != .role) = none := by
    intro list known
    simpa using known
  unfold checkQuery
  rw [roles principals known, roles others knownOthers, List.isEmpty_eq_false_iff.mpr given,
    List.isEmpty_eq_false_iff.mpr givenOthers]

theorem applies_iff :
    applies operation t roles rule = true ↔ rule.Applicable operation t roles := by
  unfold applies Rule.Applicable
  rw [Bool.and_eq_true, Bool.and_eq_true, Std.ExtTreeSet.contains_iff_mem,
    Std.ExtTreeSet.contains_iff_mem, and_assoc]

/-- What the rules in scope say to a query. -/
def ruling (scope : Scope) (operation : Operation) (resource : QName) (principals : List QName) :
    Verdict :=
  scope.verdict operation (scope.resolve resource) (scope.expand principals)

theorem query_of_refused {error : AccessError}
    (refused : scope.checkQuery operation resource fields principals = .error error) :
    scope.query operation resource fields principals = .error error := by
  unfold query
  rw [refused]
  rfl

theorem query_of_checked
    (checked : scope.checkQuery operation resource fields principals = .ok t) :
    scope.query operation resource fields principals =
      .ok ⟨(scope.verdict operation t (scope.expand principals)).allowed &&
          fields.all (scope.verdict operation t (scope.expand principals)).fields.contains,
        allowedFields t (scope.verdict operation t (scope.expand principals))⟩ := by
  unfold query
  rw [checked]
  rfl

theorem query_eq_ok_iff :
    scope.query operation resource fields principals = .ok access ↔
      scope.Answerable operation resource fields principals ∧
        access.allowed = ((scope.ruling operation resource principals).allowed &&
          fields.all (scope.ruling operation resource principals).fields.contains) ∧
        access.fields = allowedFields (scope.resolve resource)
          (scope.ruling operation resource principals) := by
  unfold query
  rw [Check.bind_eq_ok_iff]
  constructor
  · intro holds
    obtain ⟨t, passed, answered⟩ := holds
    obtain ⟨answerable, rfl⟩ := checkQuery_eq_ok_iff.mp passed
    cases answered
    exact ⟨answerable, rfl, rfl⟩
  · intro holds
    obtain ⟨answerable, allowed, listed⟩ := holds
    refine ⟨_, checkQuery_eq_ok_iff.mpr ⟨answerable, rfl⟩, Check.pure_eq_ok_iff.mpr ?_⟩
    cases access
    cases allowed
    cases listed
    rfl

end Scope

/-- In a built catalog, workspaces can be asked about what they see, for roles that they see. -/
theorem Catalog.Built.answerable_of_visible {catalog : Catalog} (built : catalog.Built)
    {name : QName} {ws : WorkspaceView} (viewed : catalog.workspace? name = some ws)
    {operation : Operation} {t : TypeDef} {fields : List String} {principals : List QName}
    (visible : t ∈ ws.defs) (asked : operation ≠ .inherits) (has : operation ∈ t.kind.operations)
    (known : ∀ f ∈ fields, t.hasField f = true) (given : principals ≠ [])
    (roles : ∀ p ∈ principals, p ∈ ws.scope.roles.map TypeDef.name) :
    ws.scope.Answerable operation t.name fields principals := by
  have resolved : ws.scope.resolve t.name = t := built.resolve_of_mem_defs viewed visible
  refine ⟨asked, ?_, ?_, given, fun p listed => ?_⟩
  · rw [resolved]
    exact has
  · rw [resolved]
    exact known
  · exact HasScope.kind_resolve_of_mem_roles (.within viewed) built (roles p listed)

end TypeCatalog
