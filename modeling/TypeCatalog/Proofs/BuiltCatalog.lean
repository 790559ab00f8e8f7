import TypeCatalog.Proofs.Draft.Freezing
import TypeCatalog.Proofs.Draft.Parts

/-!
# Built catalogs

A catalog is built if edits lead to a draft that passes validation and is frozen to it.  This
module says what such a catalog is like, as far as access queries rely on it.

* `Catalog.Built`: the catalogs that the theorems about queries are about.
* `Catalog.HasScope`: what a query looks at, the whole catalog or one of its workspaces.
* `Catalog.Built.types_fit`, `Catalog.Built.rule_shaped`, `Catalog.Built.rule_fits`: what was
  checked when types and rules were declared, and again when the catalog was built.
* `Catalog.Built.visible_getElem?_eq_some_iff`, `Catalog.Built.resolve_eq_of_viewed`: what a
  workspace sees of the types.
* `Shop`, `Library`: two small catalogs, with and without revokes.
-/

namespace TypeCatalog

/-- What operations apply to has been found; it is no stand-in. -/
theorem TypeDef.eq_some_of_mem_operations {name : QName} {found : Option TypeDef}
    {operation : Operation}
    (has : operation ∈ (if name = .any then .any else found.getD .null).kind.operations) :
    found = some (if name = .any then .any else found.getD .null) := by
  by_cases isAny : name = .any
  · rw [if_pos isAny] at has
    cases has
  · rw [if_neg isAny] at has ⊢
    cases found with
    | none => cases has
    | some t => rfl

namespace Catalog

/-- Edits lead to a draft that passes validation and is frozen to the catalog. -/
def Built (catalog : Catalog) : Prop :=
  ∃ draft : Draft, draft.Reachable ∧ draft.build = .ok catalog

/-- What queries may look at: the whole catalog, or one of its workspaces. -/
inductive HasScope (catalog : Catalog) : Scope → Prop
  | whole : HasScope catalog catalog.scope
  | within {name : QName} {ws : WorkspaceView} :
    catalog.workspace? name = some ws → HasScope catalog ws.scope

variable {catalog : Catalog} {name : QName} {t : TypeDef} {rule : Rule}

/-! ## What was checked before a catalog was built -/

namespace Built

variable (built : catalog.Built)
include built

theorem exists_draft :
    ∃ draft : Draft, draft.Reachable ∧ draft.findings = [] ∧ draft.freeze = catalog := by
  obtain ⟨draft, reached, made⟩ := built
  obtain ⟨clean, same⟩ := Draft.build_eq_ok_iff.mp made
  exact ⟨draft, reached, clean, same⟩

theorem types_named (found : catalog.types[name]? = some t) : t.name = name := by
  obtain ⟨draft, reached, _, rfl⟩ := built.exists_draft
  rw [reached.getElem?_freeze] at found
  exact reached.wellFormed.named found

theorem types_fit (found : catalog.types[name]? = some t) : t.body.Fits t.kind := by
  obtain ⟨draft, reached, _, rfl⟩ := built.exists_draft
  rw [reached.getElem?_freeze] at found
  exact reached.wellFormed.fits found

theorem any_free : catalog.types[QName.any]? = none := by
  obtain ⟨draft, reached, _, rfl⟩ := built.exists_draft
  rw [reached.getElem?_freeze]
  exact reached.wellFormed.wildcardFree

theorem mem_catalog_iff : t ∈ catalog.defs ↔ catalog.types[t.name]? = some t := by
  obtain ⟨draft, reached, _, rfl⟩ := built.exists_draft
  rw [reached.getElem?_freeze]
  exact reached.named.mem_defs_iff

theorem rule_shaped (listed : rule ∈ catalog.rules) :
    Rule.Shaped rule.policy rule.operations rule.fields := by
  obtain ⟨draft, reached, _, rfl⟩ := built.exists_draft
  exact Rule.checkShape_eq_ok_iff.mp (reached.wellFormed.shaped rule listed)

theorem rule_declared (listed : rule ∈ catalog.rules) :
    ∃ ws, catalog.workspace? rule.workspace = some ws := by
  obtain ⟨draft, reached, _, rfl⟩ := built.exists_draft
  obtain ⟨home, opened⟩ := reached.wellFormed.declared rule listed
  obtain ⟨owner, found, body⟩ := Draft.findWorkspace_eq_ok_iff.mp opened
  rw [← reached.getElem?_freeze] at found
  exact ⟨_, workspace?_eq_some_iff.mpr
    ⟨owner, home, found, TypeDef.workspace?_eq_some_iff.mpr body, rfl⟩⟩

/-- A rule is about a role, which need not be visible from where the rule is in scope. -/
theorem rule_principal (listed : rule ∈ catalog.rules) :
    ∃ role, catalog.types[rule.principal]? = some role ∧ role.kind = .role := by
  obtain ⟨draft, reached, _, rfl⟩ := built.exists_draft
  simp only [reached.getElem?_freeze]
  exact reached.principalsKnown rule listed

theorem ne_any (found : catalog.types[name]? = some t) : name ≠ .any := by
  intro isAny
  rw [isAny, built.any_free] at found
  cases found

theorem resolve_of_mem_catalog (listed : t ∈ catalog.defs) : catalog.resolve t.name = t := by
  have found := built.mem_catalog_iff.mp listed
  unfold Catalog.resolve TypeIndex.resolve
  rw [if_neg (built.ne_any found), found, Option.getD_some]

/-! ### What workspaces see -/

variable {ws : WorkspaceView} (viewed : catalog.workspace? name = some ws)
include viewed

theorem pairwise_defs : ws.defs.Pairwise fun a b => compare a.name b.name = .lt := by
  obtain ⟨draft, reached, _, rfl⟩ := built.exists_draft
  rw [reached.defs_freeze viewed]
  exact reached.named.pairwise_visibleDefs name

theorem getElem?_of_mem_defs (visible : t ∈ ws.defs) : catalog.types[t.name]? = some t := by
  obtain ⟨draft, reached, _, rfl⟩ := built.exists_draft
  rw [reached.defs_freeze viewed] at visible
  rw [reached.getElem?_freeze]
  exact (reached.named.mem_visibleDefs_iff.mp visible).2

theorem mem_catalog_of_mem_defs (visible : t ∈ ws.defs) : t ∈ catalog.defs :=
  built.mem_catalog_iff.mpr (built.getElem?_of_mem_defs viewed visible)

theorem visible_getElem?_eq_some_iff {other : QName} :
    ws.visible[other]? = some t ↔ t ∈ ws.defs ∧ t.name = other := by
  obtain ⟨draft, reached, _, rfl⟩ := built.exists_draft
  exact reached.visible_freeze viewed

/-- What a workspace finds under a name is in the catalog under that name. -/
theorem getElem?_of_visible {other : QName} (found : ws.visible[other]? = some t) :
    catalog.types[other]? = some t := by
  obtain ⟨visible, rfl⟩ := (built.visible_getElem?_eq_some_iff viewed).mp found
  exact built.getElem?_of_mem_defs viewed visible

/-- A type that is visible from a workspace is found there under its own name. -/
theorem resolve_of_mem_defs (visible : t ∈ ws.defs) : ws.resolve t.name = t := by
  have found := (built.visible_getElem?_eq_some_iff viewed).mpr ⟨visible, rfl⟩
  have apart := built.ne_any (built.getElem?_of_mem_defs viewed visible)
  unfold WorkspaceView.resolve Window.resolve
  rw [if_neg apart, found, Option.getD_some]

/-- What a workspace finds under a name is what the whole catalog has under it. -/
theorem resolve_eq_of_viewed {other : QName} (there : (ws.resolve other).kind ≠ .null) :
    catalog.resolve other = ws.resolve other := by
  unfold WorkspaceView.resolve Window.resolve at there ⊢
  unfold Catalog.resolve TypeIndex.resolve
  by_cases isAny : other = .any
  · rw [if_pos isAny, if_pos isAny]
  · rw [if_neg isAny] at there
    rw [if_neg isAny, if_neg isAny]
    cases found : ws.visible[other]? with
    | none =>
        rw [found] at there
        exact absurd rfl there
    | some t => rw [built.getElem?_of_visible viewed found]

omit viewed in
/-- A rule fits all the types that it selects and that are visible where it is declared. -/
theorem rule_fits (listed : rule ∈ catalog.rules)
    (declared : catalog.workspace? rule.workspace = some ws) (visible : t ∈ ws.defs)
    (selected : rule.selector.selects t = true) : Rule.FitsOn rule.operations rule.fields t := by
  obtain ⟨draft, reached, clean, rfl⟩ := built.exists_draft
  rw [reached.defs_freeze declared] at visible
  have rules := List.flatMap_eq_nil_iff.mp (List.append_eq_nil_iff.mp clean).2
  have silent := List.map_eq_nil_iff.mp (rules rule listed)
  exact (TypeTable.checkRule_eq_nil_iff.mp silent).fits t ⟨visible, selected⟩

end Built

/-! ## Scopes -/

namespace HasScope

variable {scope : Scope} (inScope : catalog.HasScope scope)
include inScope

theorem rule_listed (listed : rule ∈ scope.rules) : rule ∈ catalog.rules := by
  cases inScope with
  | whole => exact listed
  | within viewed =>
      obtain ⟨_, _, _, _, rfl⟩ := workspace?_eq_some_iff.mp viewed
      exact (List.mem_filter.mp listed).1

/-- What operations apply to is a type of the catalog. -/
theorem getElem?_of_mem_operations (built : catalog.Built) {operation : Operation}
    (has : operation ∈ (scope.resolve name).kind.operations) :
    catalog.types[name]? = some (scope.resolve name) := by
  cases inScope with
  | whole => exact TypeDef.eq_some_of_mem_operations has
  | within viewed =>
      have found := TypeDef.eq_some_of_mem_operations has
      exact built.getElem?_of_visible viewed found

/-- The name of a role in scope stands for a role. -/
theorem kind_resolve_of_mem_roles (built : catalog.Built)
    (known : name ∈ scope.roles.map TypeDef.name) : (scope.resolve name).kind = .role := by
  obtain ⟨role, listed, rfl⟩ := List.mem_map.mp known
  cases inScope with
  | whole =>
      obtain ⟨inTypes, isRole⟩ := List.mem_filter.mp listed
      change (catalog.resolve role.name).kind = .role
      rw [built.resolve_of_mem_catalog inTypes]
      exact beq_iff_eq.mp isRole
  | @within _ ws viewed =>
      obtain ⟨visible, isRole⟩ := List.mem_filter.mp listed
      change (ws.resolve role.name).kind = .role
      rw [built.resolve_of_mem_defs viewed visible]
      exact beq_iff_eq.mp isRole

end HasScope

end Catalog

/-! ## A small catalog -/

namespace Shop

def name (entity : String) : QName := ⟨"shop", entity⟩

/-- The workspace `base` declares articles, and readers that see their titles but not their
prices; clerks inherit from readers.  The workspace `app` inherits from `base` and declares
notes, which the rules of `base` do not know of when they are checked. -/
def edits : List Edit := [
  .addWorkspace (name "base"),
  .within (name "base") (.declare (name "article") (.structured .cDoc rfl)),
  .within (name "base") (.amend (name "article") (.addField "title" .string true)),
  .within (name "base") (.amend (name "article") (.addField "price" .int64 false)),
  .within (name "base") (.declare (name "reader") .role),
  .within (name "base") (.declare (name "clerk") .role),
  .within (name "base") (.addRule .allow [.select] (.names (.ofList [name "article"])) []
    (name "reader") ""),
  .within (name "base") (.addRule .deny [.select] (.kinds (.ofList [TypeKind.cDoc])) ["price"]
    (name "reader") ""),
  .within (name "base") (.addRule .allow [.select] (.kinds (.ofList [TypeKind.cDoc])) ["title"]
    (name "reader") ""),
  .within (name "base") (.addRule .allow [.inherits] (.names (.ofList [name "reader"])) []
    (name "clerk") ""),
  .addWorkspace (name "app"),
  .within (name "app") (.setAncestors [name "base"]),
  .within (name "app") (.declare (name "note") (.structured .cDoc rfl))]

def draft : Draft := (Draft.initial {}).applyAll edits

def catalog : Catalog := draft.freeze

theorem findings_draft : draft.findings = [] :=
  List.isEmpty_iff.mp (by decide +kernel)

theorem built_catalog : catalog.Built :=
  ⟨draft, (Draft.Reachable.initial {}).applyAll edits,
    Draft.build_eq_ok_iff.mpr ⟨findings_draft, rfl⟩⟩

/-- The view of `app`. -/
def app : WorkspaceView := (catalog.workspace? (name "app")).get (by decide +kernel)

theorem viewed_app : catalog.workspace? (name "app") = some app := (Option.some_get _).symm

/-- The role of clerks, which `app` inherits from `base`. -/
def clerk : TypeDef := (app.visible.find? (name "clerk")).get (by decide +kernel)

theorem visible_clerk : clerk ∈ app.defs :=
  (Window.mem_defs_of_find? (Option.some_get _).symm).1

/-- The type of articles, which `app` inherits from `base`. -/
def article : TypeDef := (app.visible.find? (name "article")).get (by decide +kernel)

theorem visible_article : article ∈ app.defs :=
  (Window.mem_defs_of_find? (Option.some_get _).symm).1

end Shop

/-! ## A catalog without revokes -/

namespace Library

def name (entity : String) : QName := ⟨"library", entity⟩

/-- The workspace `staff` declares auditors.  The workspace `base` uses it and declares books, the
titles of which readers see and the prices of which auditors see; clerks inherit from readers.
The workspace `app` inherits from `base`, but does not use `staff` and so does not see auditors. -/
def edits : List Edit := [
  .addWorkspace (name "staff"),
  .within (name "staff") (.declare (name "auditor") .role),
  .addWorkspace (name "base"),
  .within (name "base") (.useWorkspaces [name "staff"]),
  .within (name "base") (.declare (name "book") (.structured .cDoc rfl)),
  .within (name "base") (.amend (name "book") (.addField "title" .string true)),
  .within (name "base") (.amend (name "book") (.addField "price" .int64 false)),
  .within (name "base") (.declare (name "reader") .role),
  .within (name "base") (.declare (name "clerk") .role),
  .within (name "base") (.addRule .allow [.select] (.names (.ofList [name "book"])) ["title"]
    (name "reader") ""),
  .within (name "base") (.addRule .allow [.select] (.names (.ofList [name "book"])) ["price"]
    (name "auditor") ""),
  .within (name "base") (.addRule .allow [.inherits] (.names (.ofList [name "reader"])) []
    (name "clerk") ""),
  .addWorkspace (name "app"),
  .within (name "app") (.setAncestors [name "base"])]

def draft : Draft := (Draft.initial {}).applyAll edits

def catalog : Catalog := draft.freeze

theorem findings_draft : draft.findings = [] :=
  List.isEmpty_iff.mp (by decide +kernel)

theorem built_catalog : catalog.Built :=
  ⟨draft, (Draft.Reachable.initial {}).applyAll edits,
    Draft.build_eq_ok_iff.mpr ⟨findings_draft, rfl⟩⟩

theorem grants_catalog : ∀ rule ∈ catalog.rules, rule.policy = .allow := by
  have grants : (catalog.rules.all fun rule => decide (rule.policy = .allow)) = true := by
    decide +kernel
  simpa using grants

/-- The view of `app`. -/
def app : WorkspaceView := (catalog.workspace? (name "app")).get (by decide +kernel)

theorem viewed_app : catalog.workspace? (name "app") = some app := (Option.some_get _).symm

theorem isStructure_cDoc : TypeKind.cDoc.isStructure = true := rfl

end Library

end TypeCatalog
