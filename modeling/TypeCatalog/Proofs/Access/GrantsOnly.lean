import TypeCatalog.Proofs.Access.Monotone

/-!
# Catalogs without revokes

Where no rule revokes, the order of the rules does not matter: what is allowed is what some
applicable rule grants.  More roles and more rules then only allow more.

* `Scope.mem_fields_verdict_iff_granted`, `Scope.allowed_verdict_iff_applicable`: the verdict of
  rules that only grant.
* `Scope.query_append`: several roles may together do what one of them may do.
* `Scope.PartOf`: one scope has all that another has, and then it allows at least as much.
* `WorkspaceView.query_within_catalog`: a workspace allows no more than the whole catalog.
-/

namespace TypeCatalog

open Relation (ReflTransGen)

/-- What no rule undoes stands as soon as some rule does it. -/
theorem Rule.stands_iff_exists {does undoes : Rule → Prop} {rules : List Rule}
    (spared : ∀ rule ∈ rules, ¬ undoes rule) :
    Stands does undoes rules ↔ ∃ rule ∈ rules, does rule := by
  refine ⟨Stands.exists_mem, fun made => ?_⟩
  obtain ⟨rule, mem, does⟩ := made
  obtain ⟨earlier, later, rfl⟩ := List.append_of_mem mem
  refine ⟨earlier, rule, later, rfl, does, fun r listed => spared r ?_⟩
  exact List.mem_append_right _ (List.mem_cons_of_mem _ listed)

/-- Whether the answer lists a field. -/
def Access.lists (access : Access) (field : String) : Bool :=
  (access.fields.getD []).contains field

namespace Scope

variable {scope : Scope} {catalog : Catalog} {operation : Operation} {resource : QName}
  {t : TypeDef} {roles : NameSet} {field : String} {fields : List String}
  {principals others : List QName} {rule : Rule}

/-- No rule in scope revokes. -/
def GrantsOnly (scope : Scope) : Prop := ∀ rule ∈ scope.rules, rule.policy = .allow

theorem grantsOnly_of_catalog (inScope : catalog.HasScope scope)
    (grantsOnly : ∀ rule ∈ catalog.rules, rule.policy = .allow) : scope.GrantsOnly :=
  fun rule listed => grantsOnly rule (inScope.rule_listed listed)

theorem mem_fields_verdict_iff_granted (grantsOnly : scope.GrantsOnly) :
    field ∈ (scope.verdict operation t roles).fields ↔
      ∃ rule ∈ scope.rules, rule.Applicable operation t roles ∧ rule.Grants t field := by
  rw [mem_fields_verdict_iff]
  refine Rule.stands_iff_exists fun rule listed undone => ?_
  cases (grantsOnly rule listed).symm.trans undone.2.1

theorem allowed_verdict_iff_applicable (grantsOnly : scope.GrantsOnly) :
    (scope.verdict operation t roles).allowed = true ↔
      ∃ rule ∈ scope.rules, rule.Applicable operation t roles := by
  simp only [← applies_iff]
  unfold verdict
  rcases List.eq_nil_or_concat (scope.rules.filter (applies operation t roles)) with
    none | ⟨before, last, some⟩
  · rw [none]
    refine iff_of_false Bool.false_ne_true fun applicable => ?_
    obtain ⟨rule, listed, applies⟩ := applicable
    exact List.filter_eq_nil_iff.mp none rule listed applies
  · have mem : last ∈ scope.rules.filter (applies operation t roles) := by
      rw [some, List.concat_eq_append]
      exact List.mem_concat_self
    obtain ⟨listed, applies⟩ := List.mem_filter.mp mem
    rw [some, List.concat_eq_append, List.foldl_append]
    exact iff_of_true (Verdict.allowed_apply_of_allow (grantsOnly last listed))
      ⟨last, listed, applies⟩

/-! ## Several roles -/

/-- A rule applies to the roles of two lists if it applies to those of one. -/
theorem applicable_expand_append_iff :
    rule.Applicable operation t (scope.expand (principals ++ others)) ↔
      rule.Applicable operation t (scope.expand principals) ∨
        rule.Applicable operation t (scope.expand others) := by
  unfold Rule.Applicable
  rw [mem_expand_iff, mem_expand_iff, mem_expand_iff]
  simp only [List.mem_append, or_and_right, exists_or, and_or_left]

theorem allowed_verdict_append_iff (grantsOnly : scope.GrantsOnly) :
    (scope.verdict operation t (scope.expand (principals ++ others))).allowed = true ↔
      (scope.verdict operation t (scope.expand principals)).allowed = true ∨
        (scope.verdict operation t (scope.expand others)).allowed = true := by
  rw [allowed_verdict_iff_applicable grantsOnly, allowed_verdict_iff_applicable grantsOnly,
    allowed_verdict_iff_applicable grantsOnly]
  simp only [applicable_expand_append_iff, and_or_left, exists_or]

theorem mem_fields_verdict_append_iff (grantsOnly : scope.GrantsOnly) :
    field ∈ (scope.verdict operation t (scope.expand (principals ++ others))).fields ↔
      field ∈ (scope.verdict operation t (scope.expand principals)).fields ∨
        field ∈ (scope.verdict operation t (scope.expand others)).fields := by
  rw [mem_fields_verdict_iff_granted grantsOnly, mem_fields_verdict_iff_granted grantsOnly,
    mem_fields_verdict_iff_granted grantsOnly]
  simp only [applicable_expand_append_iff, or_and_right, and_or_left, exists_or]

/-- An answer lists the fields of a resource that are allowed. -/
theorem lists_allowedFields {verdict : Verdict} {known : Fields} {allowed : Bool}
    (has : t.fields? = some known) (listed : field ∈ known.names) :
    Access.lists ⟨allowed, allowedFields t verdict⟩ field = verdict.fields.contains field := by
  unfold Access.lists allowedFields
  rw [has, Bool.eq_iff_iff]
  simp [listed]

/-- What is allowed by one of two verdicts is listed by one of two answers. -/
theorem allowedFields_eq_of_join {first second both : Verdict} (a b : Bool)
    (join : ∀ field, field ∈ both.fields ↔ field ∈ first.fields ∨ field ∈ second.fields) :
    allowedFields t both = t.fields?.map fun known => (Fields.names known).filter fun field =>
      Access.lists ⟨a, allowedFields t first⟩ field ||
        Access.lists ⟨b, allowedFields t second⟩ field := by
  cases has : t.fields? with
  | none =>
      unfold allowedFields
      rw [has]
      rfl
  | some known =>
      have whole : allowedFields t both = some (known.names.filter both.fields.contains) := by
        unfold allowedFields
        rw [has]
        rfl
      rw [whole, Option.map_some]
      refine congrArg some (List.filter_congr fun field listed => ?_)
      rw [lists_allowedFields has listed, lists_allowedFields has listed,
        Bool.eq_iff_iff, Bool.or_eq_true]
      simp only [Std.ExtTreeSet.contains_iff_mem]
      exact join field

/-- In a built catalog that revokes nothing, a query about several roles that asks for no fields
is refused just as the queries about some of them are, or it is allowed if one of these is, and
lists the fields that they list. -/
theorem query_append (built : catalog.Built) (inScope : catalog.HasScope scope)
    (grantsOnly : ∀ rule ∈ catalog.rules, rule.policy = .allow)
    (given : principals ≠ []) (known : ∀ p ∈ principals, p ∈ scope.roles.map TypeDef.name)
    (givenOthers : others ≠ []) (knownOthers : ∀ p ∈ others, p ∈ scope.roles.map TypeDef.name)
    (operation : Operation) (resource : QName) :
    (∃ error, scope.query operation resource [] principals = .error error ∧
      scope.query operation resource [] others = .error error ∧
      scope.query operation resource [] (principals ++ others) = .error error) ∨
    ∃ first second both, scope.query operation resource [] principals = .ok first ∧
      scope.query operation resource [] others = .ok second ∧
      scope.query operation resource [] (principals ++ others) = .ok both ∧
      (both.allowed = true ↔ first.allowed = true ∨ second.allowed = true) ∧
      both.fields = (scope.resolve resource).fields?.map fun known =>
        (Fields.names known).filter fun field => first.lists field || second.lists field := by
  have roles : ∀ p ∈ principals, (scope.resolve p).kind = .role :=
    fun p listed => inScope.kind_resolve_of_mem_roles built (known p listed)
  have rolesOthers : ∀ p ∈ others, (scope.resolve p).kind = .role :=
    fun p listed => inScope.kind_resolve_of_mem_roles built (knownOthers p listed)
  have rolesBoth : ∀ p ∈ principals ++ others, (scope.resolve p).kind = .role := by
    intro p listed
    rcases List.mem_append.mp listed with one | other
    · exact roles p one
    · exact rolesOthers p other
  have sameOthers :=
    checkQuery_eq_of_roles operation resource [] givenOthers given rolesOthers roles
  have sameBoth := checkQuery_eq_of_roles operation resource []
    (List.append_ne_nil_of_left_ne_nil given others) given rolesBoth roles
  have grants := grantsOnly_of_catalog inScope grantsOnly
  cases checked : scope.checkQuery operation resource [] principals with
  | error error =>
      rw [checked] at sameOthers sameBoth
      exact .inl ⟨error, query_of_refused checked, query_of_refused sameOthers,
        query_of_refused sameBoth⟩
  | ok t =>
      rw [checked] at sameOthers sameBoth
      obtain ⟨_, rfl⟩ := checkQuery_eq_ok_iff.mp checked
      refine .inr ⟨_, _, _, query_of_checked checked, query_of_checked sameOthers,
        query_of_checked sameBoth, ?_, ?_⟩
      · simp only [List.all_nil, Bool.and_true]
        exact allowed_verdict_append_iff grants
      · exact allowedFields_eq_of_join _ _ fun _ => mem_fields_verdict_append_iff grants

/-- Clerks see the titles of books and auditors their prices; together they see both. -/
theorem query_append_clerk_auditor :
    ∃ both, Library.catalog.scope.query .select (Library.name "book") []
        ([Library.name "clerk"] ++ [Library.name "auditor"]) = .ok both ∧
      both.allowed = true ∧ both.lists "title" = true ∧ both.lists "price" = true := by
  obtain ⟨clerk, auditor, known, names⟩ :
      Library.catalog.scope.query .select (Library.name "book") [] [Library.name "clerk"] =
        .ok ⟨true, some ["title"]⟩ ∧
      Library.catalog.scope.query .select (Library.name "book") [] [Library.name "auditor"] =
        .ok ⟨true, some ["price"]⟩ ∧
      ((∀ p ∈ [Library.name "clerk"], p ∈ Library.catalog.scope.roles.map TypeDef.name) ∧
        ∀ p ∈ [Library.name "auditor"], p ∈ Library.catalog.scope.roles.map TypeDef.name) ∧
      (Library.catalog.scope.resolve (Library.name "book")).fields?.map Fields.names =
        some ["sys.QName", "sys.ID", "sys.IsActive", "title", "price"] := by
    decide +kernel
  rcases query_append Library.built_catalog .whole Library.grants_catalog (List.cons_ne_nil _ _)
      known.1 (List.cons_ne_nil _ _) known.2 .select (Library.name "book") with
    ⟨error, refused, _⟩ | ⟨first, second, both, one, other, answered, allowed, listed⟩
  · rw [clerk] at refused
    cases refused
  · rw [clerk] at one
    rw [auditor] at other
    cases one
    cases other
    obtain ⟨fields, has, same⟩ := Option.map_eq_some_iff.mp names
    rw [has, Option.map_some, same] at listed
    refine ⟨both, answered, allowed.mpr (.inl rfl), ?_⟩
    unfold Access.lists
    rw [listed]
    decide

/-! ## Parts of scopes -/

/-- One scope has all the types, roles and rules of another. -/
structure PartOf (part whole : Scope) : Prop where
  resolve : ∀ name, (part.resolve name).kind ≠ .null → whole.resolve name = part.resolve name
  roles : ∀ role ∈ part.roles, role ∈ whole.roles
  rules : ∀ rule ∈ part.rules, rule ∈ whole.rules

namespace PartOf

variable {part whole : Scope} (partOf : part.PartOf whole)
include partOf

theorem leads {a b : QName} (led : part.Leads a b) : whole.Leads a b := by
  obtain ⟨rule, listed, grants, inherits, principal, role, known, rest⟩ := led
  exact ⟨rule, partOf.rules rule listed, grants, inherits, principal, role,
    partOf.roles role known, rest⟩

theorem mem_expand {name : QName} (mem : name ∈ part.expand principals) :
    name ∈ whole.expand principals := by
  rw [mem_expand_iff] at mem ⊢
  obtain ⟨p, given, reaches⟩ := mem
  exact ⟨p, given, ReflTransGen.mono (fun _ _ => partOf.leads) _ _ reaches⟩

theorem applicable {rule : Rule}
    (applicable : rule.Applicable operation t (part.expand principals)) :
    rule.Applicable operation t (whole.expand principals) :=
  applicable.imp_right (And.imp_left partOf.mem_expand)

theorem resolve_of_mem_operations (has : operation ∈ (part.resolve resource).kind.operations) :
    whole.resolve resource = part.resolve resource := by
  refine partOf.resolve resource fun isNull => ?_
  rw [isNull] at has
  cases has

/-- What passes the check of a query in a part passes it in the whole. -/
theorem checkQuery_eq_ok (checked : part.checkQuery operation resource fields principals = .ok t) :
    whole.checkQuery operation resource fields principals = .ok t := by
  obtain ⟨answerable, rfl⟩ := checkQuery_eq_ok_iff.mp checked
  have same := partOf.resolve_of_mem_operations answerable.applies
  refine checkQuery_eq_ok_iff.mpr ⟨⟨answerable.asked, ?_, ?_, answerable.given, ?_⟩, same⟩
  · rw [same]
    exact answerable.applies
  · rw [same]
    exact answerable.known
  · intro p listed
    have isRole := answerable.roles p listed
    have samePrincipal := partOf.resolve p (by rw [isRole]; decide)
    rw [samePrincipal]
    exact isRole

/-- Without revokes, more roles and more rules only allow more. -/
theorem verdict_within (grantsOnly : whole.GrantsOnly) :
    (part.verdict operation t (part.expand principals)).Within
      (whole.verdict operation t (whole.expand principals)) := by
  have grantsPart : part.GrantsOnly := fun rule listed => grantsOnly rule (partOf.rules rule listed)
  constructor
  · rw [allowed_verdict_iff_applicable grantsPart, allowed_verdict_iff_applicable grantsOnly]
    intro allowed
    obtain ⟨rule, listed, applicable⟩ := allowed
    exact ⟨rule, partOf.rules rule listed, partOf.applicable applicable⟩
  · intro field mem
    rw [mem_fields_verdict_iff_granted grantsPart] at mem
    rw [mem_fields_verdict_iff_granted grantsOnly]
    obtain ⟨rule, listed, applicable, grants⟩ := mem
    exact ⟨rule, partOf.rules rule listed, partOf.applicable applicable, grants⟩

end PartOf

end Scope

namespace WorkspaceView

open Scope

variable {catalog : Catalog} {name : QName} {ws : WorkspaceView}

/-- A workspace has no types, roles and rules that the whole catalog does not have. -/
theorem partOf_catalog (built : catalog.Built) (viewed : catalog.workspace? name = some ws) :
    ws.scope.PartOf catalog.scope where
  resolve _ there := built.resolve_eq_of_viewed viewed there
  roles _ listed := by
    obtain ⟨visible, isRole⟩ := List.mem_filter.mp listed
    exact List.mem_filter.mpr ⟨built.mem_catalog_of_mem_defs viewed visible, isRole⟩
  rules _ listed := Catalog.HasScope.rule_listed (.within viewed) listed

/-- In a built catalog that revokes nothing, a query that a workspace answers is answered by the
whole catalog as well, and allowed there if it is allowed here, with at least the same fields. -/
theorem query_within_catalog (built : catalog.Built)
    (grantsOnly : ∀ rule ∈ catalog.rules, rule.policy = .allow)
    (viewed : catalog.workspace? name = some ws) {operation : Operation} {resource : QName}
    {fields : List String} {principals : List QName} {access : Access}
    (answered : ws.scope.query operation resource fields principals = .ok access) :
    ∃ wider, catalog.scope.query operation resource fields principals = .ok wider ∧
      access.Within wider := by
  have partOf := partOf_catalog built viewed
  obtain ⟨t, checked, answered⟩ := Check.bind_eq_ok_iff.mp answered
  cases answered
  exact ⟨_, query_of_checked (partOf.checkQuery_eq_ok checked),
    access_within (partOf.verdict_within grantsOnly)⟩

/-- Clerks see the titles of books in `app`, and so they do in the whole catalog. -/
theorem query_within_catalog_clerk :
    ∃ wider, Library.catalog.scope.query .select (Library.name "book") ["title"]
        [Library.name "clerk"] = .ok wider ∧
      Access.Within ⟨true, some ["title"]⟩ wider := by
  have answered : Library.app.scope.query .select (Library.name "book") ["title"]
      [Library.name "clerk"] = .ok ⟨true, some ["title"]⟩ := by decide +kernel
  exact query_within_catalog Library.built_catalog Library.grants_catalog Library.viewed_app
    answered

end WorkspaceView

end TypeCatalog
