import TypeCatalog.Proofs.Access.Inheritance
import TypeCatalog.Proofs.Access.LastDecision
import TypeCatalog.Proofs.Access.Publication

/-!
# Publication for roles that a workspace does not see

A query about a role that a workspace does not see is refused.  Publication does not look at the
role that it is asked for: it goes through the rules in scope, and these may be about roles that
only the workspace that declares them sees.

* `WorkspaceView.not_forall_published_eq_nil`: so something may be published for an unknown role.
* `Scope.exists_grant_of_mem_expand_singleton`: roles that no grant is about have nothing to
  inherit and nothing granted.
* `WorkspaceView.published_of_unknown`: when nothing is published for an unknown role, and where
  it comes from if something is.
-/

namespace TypeCatalog

open Relation (ReflTransGen)

namespace Scope

variable {scope : Scope} {operation : Operation} {t : TypeDef} {role : QName} {rule : Rule}

/-- Whatever is granted to a role or to one that it inherits from, some grant is about the role
itself. -/
theorem exists_grant_of_mem_expand_singleton (inRules : rule ∈ scope.rules)
    (grants : rule.policy = .allow) (mem : rule.principal ∈ scope.expand [role]) :
    ∃ r ∈ scope.rules, r.policy = .allow ∧ r.principal = role := by
  obtain ⟨start, listed, reaches⟩ := mem_expand_iff.mp mem
  cases List.mem_singleton.mp listed
  rcases ReflTransGen.cases_head reaches with same | ⟨next, leads, _⟩
  · exact ⟨rule, inRules, grants, same.symm⟩
  · obtain ⟨r, inRules, grants, _, principal, _⟩ := leads
    exact ⟨r, inRules, grants, principal⟩

end Scope

namespace WorkspaceView

open Scope

variable {catalog : Catalog} {name role : QName} {ws : WorkspaceView}

/-- The workspace `app` of the library does not see auditors. -/
theorem unknown_auditor : (Library.app.resolve (Library.name "auditor")).kind ≠ .role := by
  decide +kernel

/-- It inherits a rule that lets auditors see the prices of books. -/
theorem published_auditor : Library.app.published (Library.name "auditor") ≠ [] :=
  List.isEmpty_eq_false_iff.mp (by decide +kernel)

/-- Something may be published for an unknown role. -/
theorem not_forall_published_eq_nil :
    ¬ ∀ (catalog : Catalog) (name role : QName) (ws : WorkspaceView),
      catalog.Built → catalog.workspace? name = some ws → (ws.resolve role).kind ≠ .role →
      ws.published role = [] := by
  intro claim
  exact published_auditor (claim Library.catalog (Library.name "app") (Library.name "auditor")
    Library.app Library.built_catalog Library.viewed_app unknown_auditor)

/-- In a built catalog, queries about a role that a workspace does not see are never answered.
Something is published for it there exactly if a grant to it, or to a role that it inherits from,
stands on a visible type.  Some grant in scope is then about the role itself, which is a role of
the catalog, although not one that is visible. -/
theorem published_of_unknown (built : catalog.Built)
    (viewed : catalog.workspace? name = some ws) (unknown : (ws.resolve role).kind ≠ .role) :
    (∀ operation resource fields principals access, role ∈ principals →
      ws.scope.query operation resource fields principals ≠ .ok access) ∧
    (ws.published role ≠ [] ↔
      ∃ t ∈ ws.defs, isPublished t.kind = true ∧ ∃ operation ∈ t.kind.operations,
        ws.scope.LastGrants operation t (ws.scope.expand [role]) ∨
          ∃ field, ws.scope.GrantStands operation t (ws.scope.expand [role]) field) ∧
    (ws.published role ≠ [] →
      ∃ rule ∈ ws.rules, rule.policy = .allow ∧ rule.principal = role ∧
        ∃ known, catalog.types[role]? = some known ∧ known.kind = .role ∧ known ∉ ws.defs) := by
  have stands : ∀ t ∈ ws.defs, isPublished t.kind = true → ∀ operation ∈ t.kind.operations,
      ((ws.scope.verdict operation t (ws.scope.expand [role])).allowed = true ↔
        ws.scope.LastGrants operation t (ws.scope.expand [role]) ∨
          ∃ field, ws.scope.GrantStands operation t (ws.scope.expand [role]) field) := by
    intro t visible kind operation has
    have inCatalog := built.mem_catalog_of_mem_defs viewed visible
    have found := built.mem_catalog_iff.mp inCatalog
    exact allowed_verdict_iff_stands (built.types_fit found) has
      (ne_inherits_of_isPublished kind has)
      fun rule listed => built.rule_shaped (Catalog.HasScope.rule_listed (.within viewed) listed)
  refine ⟨fun operation resource fields principals access listed answered => ?_, ?_, ?_⟩
  · exact unknown ((query_eq_ok_iff.mp answered).1.roles role listed)
  · refine published_ne_nil_iff.trans (exists_congr fun t => and_congr_right fun visible =>
      and_congr_right fun kind => exists_congr fun operation => and_congr_right fun has => ?_)
    exact stands t visible kind operation has
  · intro some
    obtain ⟨t, visible, kind, operation, has, allowed⟩ := published_ne_nil_iff.mp some
    have granted : ∃ rule ∈ ws.scope.rules, rule.policy = .allow ∧
        rule.principal ∈ ws.scope.expand [role] := by
      rcases (stands t visible kind operation has).mp allowed with last | ⟨field, stands⟩
      · obtain ⟨rule, inRules, applicable, grants⟩ := last.exists_mem
        exact ⟨rule, inRules, grants, applicable.2.1⟩
      · obtain ⟨rule, inRules, applicable, grants⟩ := stands.exists_mem
        exact ⟨rule, inRules, grants.1, applicable.2.1⟩
    obtain ⟨_, inRules, grants, mem⟩ := granted
    obtain ⟨rule, inRules, grants, rfl⟩ := exists_grant_of_mem_expand_singleton inRules grants mem
    obtain ⟨known, found, isRole⟩ :=
      built.rule_principal (Catalog.HasScope.rule_listed (.within viewed) inRules)
    refine ⟨rule, inRules, grants, rfl, known, found, isRole, fun visible => unknown ?_⟩
    rw [← built.types_named found, built.resolve_of_mem_defs viewed visible]
    exact isRole

/-- The rule about auditors is in scope in `app`. -/
theorem published_of_unknown_auditor :
    ∃ rule ∈ Library.app.rules, rule.policy = .allow ∧ rule.principal = Library.name "auditor" ∧
      ∃ known, Library.catalog.types[Library.name "auditor"]? = some known ∧
        known.kind = .role ∧ known ∉ Library.app.defs :=
  (published_of_unknown Library.built_catalog Library.viewed_app unknown_auditor).2.2
    published_auditor

end WorkspaceView

end TypeCatalog
