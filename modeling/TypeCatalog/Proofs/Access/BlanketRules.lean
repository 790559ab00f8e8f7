import TypeCatalog.Proofs.Access.Inheritance
import TypeCatalog.Proofs.Access.LastDecision
import TypeCatalog.Proofs.Draft.Growth
import TypeCatalog.Proofs.Workspace.Graph

/-!
# Blanket rules take effect

A blanket rule is about all that a selector selects.  What it grants or revokes is settled when it
is declared, by the first of the selected types.  This module follows such a rule from there to the
answers of the catalog that is built.

* `Draft.exists_blanket`: the rule that is declared, with what was found out before.
* `Catalog.Built.settled_of_last`: a rule about all fields that nothing comes after settles all
  queries that it applies to.
* `Draft.Reachable.blanket_settles`: this is what a blanket rule comes to, whatever was declared
  before it.
* `Draft.Reachable.blanket_rules_take_effect`: blanket grants, and blanket revokes after them.
-/

namespace TypeCatalog

open Relation (ReflTransGen)

/-! ## Default operations -/

namespace TypeKind

variable {kind other : TypeKind} {operation : Operation}

theorem mem_defaultOperations_iff :
    operation ∈ kind.defaultOperations ↔
      operation ∈ kind.operations ∧ operation ≠ .activate ∧ operation ≠ .deactivate := by
  cases kind <;> cases operation <;> decide

/-- Operations that are granted by default on one kind are so on all kinds that have them. -/
theorem mem_defaultOperations_of_mem (granted : operation ∈ kind.defaultOperations)
    (has : operation ∈ other.operations) : operation ∈ other.defaultOperations :=
  mem_defaultOperations_iff.mpr ⟨has, (mem_defaultOperations_iff.mp granted).2⟩

theorem eq_role_of_inherits_mem (has : .inherits ∈ kind.operations) : kind = .role := by
  revert has
  cases kind <;> decide

end TypeKind

/-! ## Queries that are settled -/

/-- What a rule about all fields makes of a query about a type: all fields of the type, or none. -/
def Policy.answer (policy : Policy) (t : TypeDef) : Access :=
  match policy with
  | .allow => ⟨true, t.fields?.map Fields.names⟩
  | .deny => ⟨false, t.fields?.map fun _ => []⟩

/-- All queries about the operations on the selected types that can be asked, by roles among which
is a given one, have the answer of the policy. -/
def WorkspaceView.Settled (view : WorkspaceView) (policy : Policy) (operations : List Operation)
    (selector : Selector) (role : QName) : Prop :=
  ∀ t ∈ selector.select view.defs, ∀ operation ∈ operations, operation ≠ .inherits →
    ∀ principals, role ∈ principals → (∀ p ∈ principals, p ∈ view.scope.roles.map TypeDef.name) →
      ∀ fields, (∀ f ∈ fields, t.hasField f = true) →
        view.scope.query operation t.name fields principals = .ok (policy.answer t)

theorem WorkspaceView.Settled.mono {view : WorkspaceView} {policy : Policy}
    {operations others : List Operation} {selector : Selector} {role : QName}
    (settled : view.Settled policy operations selector role)
    (fewer : ∀ operation ∈ others, operation ∈ operations) :
    view.Settled policy others selector role :=
  fun t selected operation listed => settled t selected operation (fewer operation listed)

theorem TypeDef.mem_fieldNames_of_hasField {t : TypeDef} {field : String}
    (has : t.hasField field = true) : field ∈ t.fieldNames := by
  unfold hasField field? at has
  unfold fieldNames
  cases known : t.fields? with
  | none =>
      rw [known] at has
      cases has
  | some fields =>
      rw [known] at has
      exact Fields.has_iff_mem_names.mp has

namespace Verdict

variable {t : TypeDef} {verdict : Verdict} {rule : Rule}

/-- The answer that is read off the verdict of a rule about all fields does not depend on the
verdict before it. -/
theorem access_apply_of_whole (whole : rule.fields = []) {fields : List String}
    (known : ∀ f ∈ fields, t.hasField f = true) :
    (⟨(verdict.apply t rule).allowed && fields.all (verdict.apply t rule).fields.contains,
      Scope.allowedFields t (verdict.apply t rule)⟩ : Access) = rule.policy.answer t := by
  cases policy : rule.policy with
  | allow =>
      have granted : ∀ f ∈ t.fieldNames, (verdict.apply t rule).fields.contains f = true :=
        fun f own => Std.ExtTreeSet.contains_iff_mem.mpr
          (mem_fields_apply.mpr (.inl ⟨policy, .inl ⟨whole, own⟩⟩))
      have asked : fields.all (verdict.apply t rule).fields.contains = true :=
        List.all_eq_true.mpr fun f listed =>
          granted f (TypeDef.mem_fieldNames_of_hasField (known f listed))
      have listed : Scope.allowedFields t (verdict.apply t rule) = t.fields?.map Fields.names := by
        unfold Scope.allowedFields
        unfold TypeDef.fieldNames at granted
        cases has : t.fields? with
        | none => rfl
        | some own =>
            rw [has] at granted
            rw [Option.map_some, Option.map_some, List.filter_eq_self.mpr granted]
      rw [allowed_apply_of_allow policy, asked, listed]
      rfl
  | deny =>
      have nothing : verdict.apply t rule = ⟨false, ∅⟩ := by
        unfold apply
        rw [policy, whole]
      have listed : Scope.allowedFields t ⟨false, ∅⟩ = t.fields?.map fun _ => [] := by
        unfold Scope.allowedFields
        refine congrArg (Option.map · t.fields?) (funext fun own => ?_)
        exact List.filter_eq_nil_iff.mpr (by simp)
      rw [nothing, listed]
      rfl

end Verdict

namespace Scope

variable {scope : Scope} {operation : Operation} {resource : QName} {fields : List String}
  {principals : List QName} {rule : Rule} {earlier : List Rule}

/-- The last rule in scope settles the queries that it applies to, if it is about all fields. -/
theorem query_of_last (last : scope.rules = earlier ++ [rule]) (whole : rule.fields = [])
    (answerable : scope.Answerable operation resource fields principals)
    (applicable : rule.Applicable operation (scope.resolve resource) (scope.expand principals)) :
    scope.query operation resource fields principals =
      .ok (rule.policy.answer (scope.resolve resource)) := by
  rw [query_of_checked (checkQuery_eq_ok_iff.mpr ⟨answerable, rfl⟩)]
  unfold verdict
  rw [last, foldl_filter_concat, if_pos (applies_iff.mpr applicable)]
  exact congrArg _ (Verdict.access_apply_of_whole whole answerable.known)

end Scope

namespace Catalog.Built

open Scope (mem_expand_iff query_of_last)

variable {catalog : Catalog} {ws : QName} {view : WorkspaceView} {rule : Rule}
  {earlier : List Rule} {operations : List Operation}
  (built : catalog.Built) (viewed : catalog.workspace? ws = some view)
  (declared : rule.workspace = ws)
include built viewed declared

/-- In a built catalog, a rule about all fields settles the queries about what it selects, if its
workspace declares it and nothing comes after it there. -/
theorem settled_of_last (last : view.scope.rules = earlier ++ [rule]) (whole : rule.fields = [])
    (included : ∀ operation ∈ operations, operation ∈ rule.operations) :
    view.Settled rule.policy operations rule.selector rule.principal := by
  intro t isSelected operation listed asked principals given known fields has
  obtain ⟨visible, selected⟩ := List.mem_filter.mp isSelected
  have inScope : catalog.HasScope view.scope := .within viewed
  have inRules : rule ∈ view.scope.rules := by
    rw [last]
    exact List.mem_concat_self
  have fits := built.rule_fits (inScope.rule_listed inRules) (declared ▸ viewed) visible selected
  have resolved : view.scope.resolve t.name = t := built.resolve_of_mem_defs viewed visible
  have answerable := built.answerable_of_visible viewed visible asked
    (fits.applies operation (included operation listed)) has (List.ne_nil_of_mem given) known
  have applicable : rule.Applicable operation (view.scope.resolve t.name)
      (view.scope.expand principals) := by
    rw [resolved]
    exact ⟨included operation listed, mem_expand_iff.mpr ⟨rule.principal, given, .refl⟩, selected⟩
  have answered := query_of_last last whole answerable applicable
  rw [resolved] at answered
  exact answered

/-- A grant of inheritance selects roles only, and these are inherited. -/
theorem expand_of_inherits (listed : rule ∈ view.scope.rules) (grants : rule.policy = .allow)
    (inherits : .inherits ∈ rule.operations) {t : TypeDef}
    (isSelected : t ∈ rule.selector.select view.defs) :
    t.kind = .role ∧ t.name ∈ view.scope.expand [rule.principal] := by
  obtain ⟨visible, selected⟩ := List.mem_filter.mp isSelected
  have inRules := Catalog.HasScope.rule_listed (.within viewed) listed
  have fits := built.rule_fits inRules (declared ▸ viewed) visible selected
  have isRole := TypeKind.eq_role_of_inherits_mem (fits.applies .inherits inherits)
  have known : t ∈ view.scope.roles := List.mem_filter.mpr ⟨visible, beq_iff_eq.mpr isRole⟩
  have leads : view.scope.Leads rule.principal t.name :=
    ⟨rule, listed, grants, inherits, rfl, t, known, rfl, selected⟩
  exact ⟨isRole, mem_expand_iff.mpr ⟨_, List.mem_singleton_self _, ReflTransGen.single leads⟩⟩

end Catalog.Built

/-! ## From the edit to the catalog -/

/-- The first in name order of the types that are visible from the workspace and selected. -/
def TypeTable.FirstMatch (types : TypeTable) (ws : QName) (selector : Selector) (first : TypeDef) :
    Prop :=
  types.Matches ws selector first ∧
    ∀ t, types.Matches ws selector t → t = first ∨ compare first.name t.name = .lt

theorem TypeTable.Named.firstMatch_of_head? {types : TypeTable} (named : types.Named) {ws : QName}
    {selector : Selector} {first : TypeDef}
    (isFirst : (selector.select (types.visibleDefs ws)).head? = some first) :
    types.FirstMatch ws selector first := by
  obtain ⟨rest, selected⟩ := List.head?_eq_some_iff.mp isFirst
  have ordered : (first :: rest).Pairwise fun a b => compare a.name b.name = .lt := by
    rw [← selected]
    exact (named.pairwise_visibleDefs ws).filter _
  have mem_iff : ∀ t, types.Matches ws selector t ↔ t = first ∨ t ∈ rest := by
    intro t
    rw [← mem_select_iff, selected, List.mem_cons]
  refine ⟨(mem_iff first).mpr (.inl rfl), fun t isMatch => ?_⟩
  exact ((mem_iff t).mp isMatch).imp_right (List.rel_of_pairwise_cons ordered)

theorem Build.Blanket.mem_operations {draft : Draft} {ws role : QName} {policy : Policy}
    {selector : Selector} {first : TypeDef} {rule : Rule} {operation : Operation}
    (blanket : Build.Blanket draft ws policy selector role first rule)
    (isDefault : operation ∈ first.kind.defaultOperations) : operation ∈ rule.operations := by
  rw [blanket.operations]
  exact Std.ExtTreeSet.mem_ofList.mpr (List.contains_iff_mem.mpr isDefault)

namespace Draft

variable {draft : Draft} {ws role : QName} {selector : Selector} {policy : Policy}
  {comment : String}

theorem exists_blanket
    (accepted : (draft.apply (.within ws (.addBlanketRule policy selector role comment))).1 =
      .ok ()) :
    ∃ first rule, Build.Blanket draft ws policy selector role first rule ∧
      (draft.apply (.within ws (.addBlanketRule policy selector role comment))).2 =
        { draft with rules := draft.rules ++ [rule] } := by
  have yields : Build.Yields (Edit.within ws (.addBlanketRule policy selector role comment)).run
      draft fun _ after => ∃ first rule, Build.Blanket draft ws policy selector role first rule ∧
        after = { draft with rules := draft.rules ++ [rule] } := by
    refine Build.yields_get ?_
    refine Build.yields_check fun _ _ => ?_
    exact Build.addBlanketRule_appends fun first rule blanket _ => ⟨first, rule, blanket, rfl⟩
  exact of_apply_eq_ok yields accepted

namespace Reachable

/-- What is declared last comes last in the scope of its workspace. -/
theorem exists_scope_rules {after : Draft} (reached : after.Reachable) {view : WorkspaceView}
    (viewed : after.freeze.workspace? ws = some view) {rules : List Rule} {rule : Rule}
    (appended : after.rules = rules ++ [rule]) (declared : rule.workspace = ws) :
    ∃ earlier, view.scope.rules = earlier ++ [rule] := by
  obtain ⟨frozen, _, _⟩ := reached.workspace?_of_viewed viewed
  have own : view.ancestry.contains rule.workspace = true := by
    rw [reached.ancestry_freeze viewed, declared, Std.ExtTreeSet.contains_iff_mem,
      TypeTable.mem_ancestry_iff]
    exact .refl
  have inScope : [rule].filter (fun rule => view.ancestry.contains rule.workspace) = [rule] :=
    List.filter_cons_of_pos own
  refine ⟨rules.filter fun rule => view.ancestry.contains rule.workspace, ?_⟩
  change view.catalog.rules.filter _ = _
  rw [frozen]
  change after.rules.filter _ = _
  rw [appended, List.filter_append, inScope]

/-- What a blanket rule comes to if the catalog is built right after it, whatever was declared
before it. -/
theorem blanket_settles {first : TypeDef} {rule : Rule}
    (blanket : Build.Blanket draft ws policy selector role first rule)
    (reached : Reachable { draft with rules := draft.rules ++ [rule] }) {catalog : Catalog}
    (build : Draft.build { draft with rules := draft.rules ++ [rule] } = .ok catalog) :
    ∃ view, catalog.workspace? ws = some view ∧ view.defs = draft.types.visibleDefs ws ∧
      view.Settled policy first.kind.defaultOperations selector role ∧
      (policy = .allow → .inherits ∈ first.kind.defaultOperations →
        ∀ t ∈ selector.select view.defs,
          t.kind = .role ∧ t.name ∈ view.scope.expand [role]) := by
  have built : catalog.Built := ⟨_, reached, build⟩
  obtain ⟨_, rfl⟩ := build_eq_ok_iff.mp build
  have declared := blanket.workspace
  obtain ⟨view, viewed⟩ := built.rule_declared (List.mem_concat_self : rule ∈ draft.rules ++ [rule])
  rw [declared] at viewed
  obtain ⟨earlier, last⟩ := reached.exists_scope_rules viewed rfl declared
  have settled := built.settled_of_last viewed declared last blanket.whole
    fun _ => blanket.mem_operations
  rw [blanket.policy, blanket.selector, blanket.principal] at settled
  refine ⟨view, viewed, reached.defs_freeze viewed, settled, fun grants inherits t selected => ?_⟩
  rw [← blanket.selector] at selected
  rw [← blanket.principal]
  exact built.expand_of_inherits viewed declared (last ▸ List.mem_concat_self)
    (blanket.policy.trans grants) (blanket.mem_operations inherits) selected

/-- A blanket grant takes effect: let it be about the default operations of the first type in name
order that is visible and selected.  If the catalog is built right after it, then for all visible
types that are selected, these operations are allowed with all fields to any roles among which is
the given one; and if inheritance is granted, all that is selected are roles and are inherited by
this role.  If a blanket revoke of the same comes later on, then all these queries are denied with
no fields, whatever was declared before it and in between. -/
theorem blanket_rules_take_effect (reached : draft.Reachable)
    (granted : (draft.apply (.within ws (.addBlanketRule .allow selector role comment))).1 =
      .ok ()) :
    let after := (draft.apply (.within ws (.addBlanketRule .allow selector role comment))).2
    ∃ first, draft.types.FirstMatch ws selector first ∧ first.kind.defaultOperations ≠ [] ∧
      (∀ catalog : Catalog, after.build = .ok catalog →
        ∃ view, catalog.workspace? ws = some view ∧
          view.Settled .allow first.kind.defaultOperations selector role ∧
          (.inherits ∈ first.kind.defaultOperations → ∀ t ∈ selector.select view.defs,
            t.kind = .role ∧ t.name ∈ view.scope.expand [role])) ∧
      ∀ (edits : List Edit) (text : String),
        let revoke : Edit := .within ws (.addBlanketRule .deny selector role text)
        ((after.applyAll edits).apply revoke).1 = .ok () →
        ∀ catalog : Catalog, ((after.applyAll edits).apply revoke).2.build = .ok catalog →
          ∃ view, catalog.workspace? ws = some view ∧
            view.Settled .deny first.kind.defaultOperations selector role := by
  intro after
  obtain ⟨first, rule, blanket, appended⟩ := exists_blanket granted
  have later : after.Reachable := .apply _ reached
  refine ⟨first, reached.named.firstMatch_of_head? blanket.isFirst, blanket.isResource,
    fun catalog build => ?_, ?_⟩
  · change after = _ at appended
    rw [appended] at later build
    obtain ⟨view, viewed, _, settled, inherited⟩ := blanket_settles blanket later build
    exact ⟨view, viewed, settled, inherited rfl⟩
  · intro edits text revoke revoked catalog build
    have last := Reachable.apply revoke (later.applyAll edits)
    have built : catalog.Built := ⟨_, last, build⟩
    -- The rule of the grant is still there, and was checked again when the catalog was built.
    have kept : rule ∈ catalog.rules := by
      obtain ⟨_, rfl⟩ := build_eq_ok_iff.mp build
      have grown := (extends_applyAll after (edits ++ [revoke])).rules
      rw [applyAll_concat] at grown
      refine grown.subset ?_
      change rule ∈ (draft.apply _).2.rules
      rw [appended]
      exact List.mem_concat_self
    obtain ⟨next, rule', blanket', appended'⟩ := exists_blanket revoked
    rw [appended'] at last build
    obtain ⟨view, viewed, defs, settled, _⟩ := blanket_settles blanket' last build
    refine ⟨view, viewed, settled.mono fun operation isDefault => ?_⟩
    -- What is selected first may have changed, but has all that was granted.
    obtain ⟨visible, selected⟩ := List.mem_filter.mp (List.mem_of_head? blanket'.isFirst)
    rw [← defs] at visible
    rw [← blanket.selector] at selected
    have fits := built.rule_fits kept (blanket.workspace ▸ viewed) visible selected
    exact TypeKind.mem_defaultOperations_of_mem isDefault
      (fits.applies operation (blanket.mem_operations isDefault))

end Reachable

end Draft

/-! ## Grants and revokes in a library -/

namespace Library

def documents : Selector := .kinds (.ofList [TypeKind.cDoc])

def grantDocuments : Edit :=
  .within (name "base") (.addBlanketRule .allow documents (name "reader") "")

/-- The library with a grant of all documents to readers. -/
def granted : Draft := (draft.apply grantDocuments).2

/-- In between, readers are granted the titles of documents once more. -/
def editsBetween : List Edit := [
  .within (name "base") (.addRule .allow [.select] documents ["title"] (name "reader") "")]

def revokeDocuments : Edit :=
  .within (name "base") (.addBlanketRule .deny documents (name "reader") "")

/-- The library with a revoke after the grant. -/
def revoked : Draft := ((granted.applyAll editsBetween).apply revokeDocuments).2

/-- The documents that `base` sees, with what a policy answers about them, and its roles. -/
def seen (draft : Draft) (policy : Policy) :
    Option (List (QName × Access × Bool) × List QName) :=
  (draft.freeze.workspace? (name "base")).map fun view =>
    ((documents.select view.defs).map fun t => (t.name, policy.answer t, t.hasField "price"),
      view.scope.roles.map TypeDef.name)

/-- What is settled about documents is settled about books, for clerks together with readers. -/
theorem query_book_of_settled {draft : Draft} {view : WorkspaceView} {policy : Policy}
    {operations : List Operation} {access : Access}
    (viewed : draft.freeze.workspace? (name "base") = some view)
    (settled : view.Settled policy operations documents (name "reader"))
    (update : .update ∈ operations)
    (isThere : seen draft policy =
      some ([(name "book", access, true)], [name "auditor", name "clerk", name "reader"])) :
    view.scope.query .update (name "book") ["price"] [name "clerk", name "reader"] =
      .ok access := by
  unfold seen at isThere
  rw [viewed, Option.map_some, Option.some.injEq, Prod.mk.injEq] at isThere
  obtain ⟨listed, roles⟩ := isThere
  obtain ⟨book, selected, isBook⟩ := List.mem_map.mp (listed ▸ List.mem_singleton_self _)
  rw [Prod.mk.injEq, Prod.mk.injEq] at isBook
  obtain ⟨named, answer, priced⟩ := isBook
  have known : ∀ p ∈ [name "clerk", name "reader"], p ∈ view.scope.roles.map TypeDef.name := by
    rw [roles]
    decide
  have answered := settled book selected .update update (by decide)
    [name "clerk", name "reader"] (by decide) known ["price"] (by simpa using priced)
  rw [named, answer] at answered
  exact answered

end Library

namespace Draft.Reachable

open Library

/-- Readers may update the prices of books once they are granted all documents, and may not any more
after these are revoked, although titles were granted in between. -/
theorem blanket_rules_take_effect_books :
    (∃ catalog view, granted.build = .ok catalog ∧
      catalog.workspace? (name "base") = some view ∧
      view.scope.query .update (name "book") ["price"] [name "clerk", name "reader"] =
        .ok ⟨true, some ["sys.QName", "sys.ID", "sys.IsActive", "title", "price"]⟩) ∧
    ∃ catalog view, revoked.build = .ok catalog ∧
      catalog.workspace? (name "base") = some view ∧
      view.scope.query .update (name "book") ["price"] [name "clerk", name "reader"] =
        .ok ⟨false, some []⟩ := by
  obtain ⟨accepted, clean, seenGranted⟩ :
      (draft.apply grantDocuments).1.isOk = true ∧ granted.findings.isEmpty = true ∧
      seen granted .allow = some
        ([(name "book",
          ⟨true, some ["sys.QName", "sys.ID", "sys.IsActive", "title", "price"]⟩, true)],
        [name "auditor", name "clerk", name "reader"]) := by decide +kernel
  obtain ⟨acceptedRevoke, cleanRevoke, seenRevoked⟩ :
      ((granted.applyAll editsBetween).apply revokeDocuments).1.isOk = true ∧
      revoked.findings.isEmpty = true ∧
      seen revoked .deny = some
        ([(name "book", ⟨false, some []⟩, true)],
        [name "auditor", name "clerk", name "reader"]) := by decide +kernel
  have built : granted.build = .ok granted.freeze :=
    build_eq_ok_iff.mpr ⟨List.isEmpty_iff.mp clean, rfl⟩
  have builtLater : revoked.build = .ok revoked.freeze :=
    build_eq_ok_iff.mpr ⟨List.isEmpty_iff.mp cleanRevoke, rfl⟩
  obtain ⟨first, ⟨⟨_, selected⟩, _⟩, _, allowed, denied⟩ :=
    blanket_rules_take_effect ((Reachable.initial {}).applyAll edits) (Check.isOk_iff.mp accepted)
  have isDocument : TypeKind.cDoc = first.kind := by
    simpa [documents, Selector.selects] using selected
  have update : .update ∈ first.kind.defaultOperations := by
    rw [← isDocument]
    decide
  obtain ⟨view, viewed, settled, _⟩ := allowed _ built
  obtain ⟨later, viewedLater, settledLater⟩ :=
    denied editsBetween "" (Check.isOk_iff.mp acceptedRevoke) _ builtLater
  exact ⟨⟨_, view, built, viewed, query_book_of_settled viewed settled update seenGranted⟩,
    _, later, builtLater, viewedLater,
      query_book_of_settled viewedLater settledLater update seenRevoked⟩

end Draft.Reachable

end TypeCatalog
