import Mathlib.Control.Monad.Basic
import TypeCatalog.Proofs.Access.Query

/-!
# Publication agrees with queries

What a role may do can be listed as a whole, or asked for one operation and one type at a time.
The two ways have checks, tables and lists of fields of their own; this module says that they
come to the same.

* `Scope.mem_published_iff`, `Scope.mem_publishedOperations_iff`: what is listed.
* `Scope.publishedFields_eq`: the fields that an operation is listed with.
* `WorkspaceView.published_iff_query`: an operation is listed for a type that is visible from a
  workspace exactly if the query about it is answered and allowed.
-/

namespace TypeCatalog

namespace Scope

variable {scope : Scope} {operation : Operation} {t : TypeDef} {roles : NameSet}

theorem isPublished_iff {kind : TypeKind} :
    isPublished kind = true ↔
      kind.isRecord = true ∨ kind.isFunction = true ∨ kind = .object ∨ kind = .view := by
  unfold isPublished
  rw [Bool.or_eq_true, Bool.or_eq_true, Bool.or_eq_true, beq_iff_eq, beq_iff_eq, or_assoc, or_assoc]

/-- Published types are no roles, so that all their operations can be asked for. -/
theorem ne_inherits_of_isPublished (published : isPublished t.kind = true)
    (has : operation ∈ t.kind.operations) : operation ≠ .inherits := by
  intro same
  subst same
  revert published has
  cases t.kind <;> decide

theorem mem_publishedOperations_iff {fields : Option (List String)} :
    (operation, fields) ∈ scope.publishedOperations roles t ↔
      operation ∈ t.kind.operations ∧ (scope.verdict operation t roles).allowed = true ∧
        fields = publishedFields operation t (scope.verdict operation t roles) := by
  unfold publishedOperations
  rw [List.mem_filterMap]
  constructor
  · intro listed
    obtain ⟨op, has, made⟩ := listed
    dsimp only at made
    split at made
    next allowed =>
      cases made
      exact ⟨has, allowed, rfl⟩
    next => cases made
  · intro listed
    obtain ⟨has, allowed, rfl⟩ := listed
    refine ⟨operation, has, ?_⟩
    dsimp only
    rw [if_pos allowed]

/-- Operations are listed in the order of the kind. -/
theorem operations_sublist :
    ((scope.publishedOperations roles t).map Prod.fst).Sublist t.kind.operations := by
  unfold publishedOperations
  induction t.kind.operations with
  | nil => exact .slnil
  | cons op rest ih =>
      rw [List.filterMap_cons]
      dsimp only
      split
      next => exact ih.cons _
      next made =>
        split at made
        next =>
          cases made
          exact ih.cons_cons _
        next => cases made

theorem mem_published_iff {types : List TypeDef} {role : QName} {p : Publication} :
    p ∈ scope.published types role ↔
      p.type ∈ types ∧ isPublished p.type.kind = true ∧
        p.operations = scope.publishedOperations (scope.expand [role]) p.type ∧
        p.operations ≠ [] := by
  unfold published
  rw [List.mem_filterMap]
  constructor
  · intro listed
    obtain ⟨t, mem, made⟩ := listed
    obtain ⟨visible, kind⟩ := List.mem_filter.mp mem
    split at made
    next => cases made
    next some =>
      cases made
      exact ⟨visible, kind, rfl, some⟩
  · intro listed
    obtain ⟨visible, kind, operations, nonempty⟩ := listed
    refine ⟨p.type, List.mem_filter.mpr ⟨visible, kind⟩, ?_⟩
    rw [← operations]
    split
    next none => exact absurd none nonempty
    next => rfl

theorem published_ne_nil_iff {types : List TypeDef} {role : QName} :
    scope.published types role ≠ [] ↔
      ∃ t ∈ types, isPublished t.kind = true ∧ ∃ operation ∈ t.kind.operations,
        (scope.verdict operation t (scope.expand [role])).allowed = true := by
  constructor
  · intro nonempty
    obtain ⟨p, listed⟩ := List.exists_mem_of_ne_nil _ nonempty
    obtain ⟨mem, kind, operations, some⟩ := mem_published_iff.mp listed
    obtain ⟨⟨operation, fields⟩, lists⟩ := List.exists_mem_of_ne_nil _ some
    rw [operations] at lists
    obtain ⟨has, allowed, _⟩ := mem_publishedOperations_iff.mp lists
    exact ⟨p.type, mem, kind, operation, has, allowed⟩
  · intro granted
    obtain ⟨t, mem, kind, operation, has, allowed⟩ := granted
    have lists := mem_publishedOperations_iff.mpr ⟨has, allowed, rfl⟩
    exact List.ne_nil_of_mem
      (mem_published_iff.mpr ⟨mem, kind, rfl, List.ne_nil_of_mem lists⟩ : ⟨t, _⟩ ∈ _)

/-- An operation is listed without fields if it has none or is allowed on all of them. -/
theorem publishedFields_eq {verdict : Verdict} :
    publishedFields operation t verdict =
      if operation.hasFields = false ∨ allowedFields t verdict = t.fields?.map Fields.names then
        none
      else allowedFields t verdict := by
  have whole : allowedFields t verdict = t.fields?.map Fields.names ↔
      t.fieldNames.all verdict.fields.contains = true := by
    unfold allowedFields TypeDef.fieldNames
    cases t.fields? with
    | none => simp
    | some known => simp [List.filter_eq_self]
  unfold publishedFields
  simp only [whole]
  cases operation.hasFields <;> cases t.fieldNames.all verdict.fields.contains <;> simp

end Scope

namespace WorkspaceView

open Scope

variable {catalog : Catalog} {name : QName} {ws : WorkspaceView} {role t : TypeDef}

/-- Queries by a visible role about a published type are answerable for all operations of its
kind. -/
theorem answerable_of_isPublished (built : catalog.Built)
    (viewed : catalog.workspace? name = some ws) (known : role ∈ ws.defs)
    (isRole : role.kind = .role) (visible : t ∈ ws.defs) (published : isPublished t.kind = true)
    {operation : Operation} (has : operation ∈ t.kind.operations) :
    ws.scope.Answerable operation t.name [] [role.name] := by
  refine built.answerable_of_visible viewed visible (ne_inherits_of_isPublished published has) has
    (fun _ listed => nomatch listed) (List.cons_ne_nil _ _) fun p listed => ?_
  cases List.mem_singleton.mp listed
  exact List.mem_map_of_mem (List.mem_filter.mpr ⟨known, beq_iff_eq.mpr isRole⟩)

/-- What is listed for one type and one operation is what the query about them answers. -/
theorem publishedOperations_iff_query (built : catalog.Built)
    (viewed : catalog.workspace? name = some ws) (known : role ∈ ws.defs)
    (isRole : role.kind = .role) (visible : t ∈ ws.defs) (published : isPublished t.kind = true)
    {operation : Operation} {fields : Option (List String)} :
    (operation, fields) ∈ ws.scope.publishedOperations (ws.scope.expand [role.name]) t ↔
      operation ∈ t.kind.operations ∧
        ∃ access, ws.scope.query operation t.name [] [role.name] = .ok access ∧
          access.allowed = true ∧
          fields = if operation.hasFields = false ∨ access.fields = t.fields?.map Fields.names
            then none else access.fields := by
  -- The query finds the listed type under its name, and so goes through the same rules.
  have resolved : ws.scope.resolve t.name = t := built.resolve_of_mem_defs viewed visible
  rw [mem_publishedOperations_iff, publishedFields_eq]
  refine and_congr_right fun has => ?_
  have answerable := answerable_of_isPublished built viewed known isRole visible published has
  constructor
  · intro listed
    obtain ⟨allowed, narrowed⟩ := listed
    refine ⟨⟨true, _⟩, query_eq_ok_iff.mpr ⟨answerable, ?_, rfl⟩, rfl, ?_⟩
    · unfold ruling
      rw [resolved, allowed]
      rfl
    · unfold ruling
      rw [resolved]
      exact narrowed
  · intro asked
    obtain ⟨access, answered, allowed, narrowed⟩ := asked
    obtain ⟨_, decided, listed⟩ := query_eq_ok_iff.mp answered
    unfold ruling at decided listed
    rw [resolved] at decided listed
    rw [allowed, List.all_nil, Bool.and_true] at decided
    rw [listed] at narrowed
    exact ⟨decided.symm, narrowed⟩

theorem pairwise_published (built : catalog.Built) (viewed : catalog.workspace? name = some ws)
    (role : QName) :
    (ws.published role).Pairwise fun p q => compare p.type.name q.type.name = .lt := by
  refine List.Pairwise.filterMap _ (fun a b before p made q made' => ?_)
    ((built.pairwise_defs viewed).filter _)
  split at made
  next => cases made
  next =>
    split at made'
    next => cases made'
    next =>
      cases made
      cases made'
      exact before

/-- In a built catalog, a workspace lists a type with an operation for a visible role exactly if
the type is visible and of a published kind, and the query about the operation is answered and
allowed.  The fields are those of the answer, unless there are none to tell.  Types come in name
order, each with some of the operations of its kind in their order. -/
theorem published_iff_query (built : catalog.Built) (viewed : catalog.workspace? name = some ws)
    (known : role ∈ ws.defs) (isRole : role.kind = .role) :
    (∀ (t : TypeDef) (operation : Operation) (fields : Option (List String)),
      (∃ p ∈ ws.published role.name, p.type = t ∧ (operation, fields) ∈ p.operations) ↔
        t ∈ ws.defs ∧
        (t.kind.isRecord = true ∨ t.kind.isFunction = true ∨ t.kind = .object ∨ t.kind = .view) ∧
        operation ∈ t.kind.operations ∧
        ∃ access, ws.scope.query operation t.name [] [role.name] = .ok access ∧
          access.allowed = true ∧
          fields = if operation.hasFields = false ∨ access.fields = t.fields?.map Fields.names
            then none else access.fields) ∧
    (ws.published role.name).Pairwise (fun p q => compare p.type.name q.type.name = .lt) ∧
    ∀ p ∈ ws.published role.name, p.operations ≠ [] ∧
      (p.operations.map Prod.fst).Sublist p.type.kind.operations := by
  refine ⟨fun t operation fields => ?_, pairwise_published built viewed role.name, fun p mem => ?_⟩
  · rw [← isPublished_iff]
    constructor
    · intro listed
      obtain ⟨p, mem, rfl, lists⟩ := listed
      obtain ⟨visible, published, operations, _⟩ := mem_published_iff.mp mem
      rw [operations] at lists
      exact ⟨visible, published,
        (publishedOperations_iff_query built viewed known isRole visible published).mp lists⟩
    · intro asked
      obtain ⟨visible, published, answered⟩ := asked
      have lists :=
        (publishedOperations_iff_query built viewed known isRole visible published).mpr answered
      exact ⟨⟨t, _⟩, mem_published_iff.mpr ⟨visible, published, rfl, List.ne_nil_of_mem lists⟩,
        rfl, lists⟩
  · obtain ⟨_, _, operations, nonempty⟩ := mem_published_iff.mp mem
    refine ⟨nonempty, ?_⟩
    rw [operations]
    exact operations_sublist

/-- Clerks may select titles of articles in `app`, which the query about it answers. -/
theorem published_iff_query_clerk :
    ∃ p ∈ Shop.app.published Shop.clerk.name, p.type = Shop.article ∧
      (.select, some ["sys.QName", "sys.ID", "sys.IsActive", "title"]) ∈ p.operations := by
  have answered : Shop.app.scope.query .select Shop.article.name [] [Shop.clerk.name] =
      .ok ⟨true, some ["sys.QName", "sys.ID", "sys.IsActive", "title"]⟩ := by decide +kernel
  refine ((published_iff_query Shop.built_catalog Shop.viewed_app Shop.visible_clerk
    (by decide +kernel)).1 Shop.article .select _).mpr ⟨Shop.visible_article, ?_, ?_, ?_⟩
  · exact .inl (by decide +kernel)
  · decide +kernel
  · exact ⟨_, answered, rfl, by decide +kernel⟩

end WorkspaceView

end TypeCatalog
