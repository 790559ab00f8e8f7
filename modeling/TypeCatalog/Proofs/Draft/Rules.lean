import TypeCatalog.Proofs.Draft.Validation

/-!
# The list of access rules

Rules are checked when they are added, on the types that there are, and are never changed or taken
away.  What a rule says of itself stays true, since workspaces and roles stay; what it says of the
types that it selects may become wrong when other types are declared, and is checked again by
validation.

* `Rule.Sound`: what holds of a rule at any time.
* `Rule.Effective`: what holds of a rule and of the types that it selects once a catalog is built.
* `Draft.Reachable.rules_sound`: all rules of a reachable draft are sound and know their places, and
  the rules of a built catalog are effective.
-/

namespace TypeCatalog

/-- What can be narrowed to single fields. -/
theorem Operation.hasFields_iff {op : Operation} :
    op.hasFields = true ↔ op = .insert ∨ op = .update ∨ op = .select := by
  cases op <;> decide

namespace Rule

variable {rule : Rule} {t : TypeDef}

/-! ## Shapes -/

/-- A set with an element and no more than one has no other. -/
theorem eq_of_mem_of_size_le_one {operations : OperationSet} {op other : Operation}
    (small : operations.size ≤ 1) (mem : op ∈ operations) (also : other ∈ operations) :
    other = op := by
  rw [← Std.ExtTreeSet.length_toList] at small
  rw [← Std.ExtTreeSet.mem_toList] at mem also
  match listed : operations.toList with
  | [] =>
      rw [listed] at mem
      cases mem
  | [only] =>
      rw [listed] at mem also
      rw [List.mem_singleton.mp mem, List.mem_singleton.mp also]
  | _ :: _ :: _ =>
      rw [listed] at small
      cases Nat.not_succ_le_zero _ (Nat.le_of_succ_le_succ small)

theorem Shaped.exists_mem (shaped : Shaped rule.policy rule.operations rule.fields) :
    ∃ op, op ∈ rule.operations := by
  have some : rule.operations.toList ≠ [] := by
    intro none
    have given := shaped.given
    rw [← Std.ExtTreeSet.isEmpty_toList, none] at given
    cases given
  obtain ⟨op, listed⟩ := List.exists_mem_of_ne_nil _ some
  exact ⟨op, Std.ExtTreeSet.mem_toList.mp listed⟩

/-- A rule is declared by a workspace and is about a role; it has operations; inheritance is granted
and stands alone; and only what is done to fields is narrowed to fields. -/
structure Sound (types : TypeTable) (rule : Rule) : Prop where
  declared : ∃ owner home, types[rule.workspace]? = some owner ∧ owner.kind = .workspace ∧
    owner.body = .workspace home
  principal : ∃ role, types[rule.principal]? = some role ∧ role.kind = .role
  given : ∃ op, op ∈ rule.operations
  alone : .inherits ∈ rule.operations →
    (∀ op ∈ rule.operations, op = .inherits) ∧ rule.policy = .allow
  narrowed : rule.fields ≠ [] →
    ∀ op ∈ rule.operations, op = .insert ∨ op = .update ∨ op = .select

/-! ## Selected types -/

/-- The rule selects some of the types, and all that it selects have its operations and fields. -/
structure Effective (types : List TypeDef) (rule : Rule) : Prop where
  selects : rule.selector.select types ≠ []
  applies : ∀ t ∈ rule.selector.select types, ∀ op ∈ rule.operations, op ∈ t.kind.operations
  known : ∀ t ∈ rule.selector.select types, ∀ field ∈ rule.fields, t.hasField field = true

/-- A type that a rule fits has the fields of the rule: without fields it would have no operation
that can be narrowed to them. -/
theorem FitsOn.hasField (fits : FitsOn rule.operations rule.fields t) (formed : t.body.Fits t.kind)
    (shaped : Shaped rule.policy rule.operations rule.fields) {field : String}
    (listed : field ∈ rule.fields) : t.hasField field = true := by
  cases has : t.fields? with
  | some known =>
      have isKnown := Fields.has_iff_mem_names.mpr (fits.known known has field listed)
      unfold TypeDef.hasField TypeDef.field?
      rw [has]
      exact isKnown
  | none =>
      -- Without fields a type can only be executed or inherited from.
      obtain ⟨op, mem⟩ := shaped.exists_mem
      have narrow := shaped.narrowed (List.ne_nil_of_mem listed) op mem
      have notInherits : op ≠ .inherits := by
        rintro rfl
        cases narrow
      have execute :=
        TypeDef.eq_execute_of_fields?_eq_none formed has (fits.applies op mem) notInherits
      rw [execute] at narrow
      cases narrow

end Rule

namespace Draft

variable {draft after : Draft} {rule : Rule}

/-! ## Places -/

/-- The rules are counted from the beginning of the list. -/
def Positioned (draft : Draft) : Prop :=
  ∀ (i : Nat) (rule : Rule), draft.rules[i]? = some rule → rule.position = i

theorem Positioned.step (before : Positioned draft) (step : Step draft after) :
    Positioned after := by
  intro i rule found
  rcases step.rules with same | ⟨added, same, last, _⟩
  · exact before i rule (same ▸ found)
  · rw [same] at found
    rcases Nat.lt_trichotomy i draft.rules.length with old | rfl | beyond
    · rw [List.getElem?_append_left old] at found
      exact before i rule found
    · rw [List.getElem?_concat_length] at found
      cases found
      exact last
    · rw [List.getElem?_eq_none (List.length_append ▸ beyond)] at found
      cases found

theorem Reachable.positioned (reached : Reachable draft) : Positioned draft :=
  reached.invariant (fun _ _ _ found => nomatch found) fun _ _ before step => before.step step

/-! ## Rules of drafts and catalogs -/

theorem Reachable.rule_shaped (reached : Reachable draft) (listed : rule ∈ draft.rules) :
    Rule.Shaped rule.policy rule.operations rule.fields :=
  Rule.checkShape_eq_ok_iff.mp (reached.wellFormed.shaped rule listed)

theorem Reachable.rule_sound (reached : Reachable draft) (listed : rule ∈ draft.rules) :
    rule.Sound draft.types := by
  have shaped := reached.rule_shaped listed
  obtain ⟨home, opened⟩ := reached.wellFormed.declared rule listed
  obtain ⟨owner, found, body⟩ := findWorkspace_eq_ok_iff.mp opened
  have kind : owner.kind = .workspace := by
    have fits := reached.wellFormed.fits found
    rw [body] at fits
    exact fits
  refine ⟨⟨owner, home, found, kind, body⟩, reached.principalsKnown rule listed,
    shaped.exists_mem, fun inherits => ?_, fun narrow op mem => ?_⟩
  · obtain ⟨small, grants⟩ := shaped.alone inherits
    exact ⟨fun op mem => Rule.eq_of_mem_of_size_le_one small inherits mem, grants⟩
  · exact Operation.hasFields_iff.mp (shaped.narrowed narrow op mem)

theorem Reachable.rule_effective (reached : Reachable draft) (valid : draft.Valid)
    (listed : rule ∈ draft.rules) :
    rule.Effective (draft.types.visibleDefs rule.workspace) := by
  have checked := valid.rules rule listed
  obtain ⟨t, selected⟩ := checked.selects
  refine ⟨List.ne_nil_of_mem (TypeTable.mem_select_iff.mpr selected), fun t selected op mem => ?_,
    fun t selected field narrow => ?_⟩
  · exact (checked.fits t (TypeTable.mem_select_iff.mp selected)).applies op mem
  · have isMatch := TypeTable.mem_select_iff.mp selected
    have found := (reached.named.mem_visibleDefs_iff.mp isMatch.1).2
    exact (checked.fits t isMatch).hasField (reached.wellFormed.fits found)
      (reached.rule_shaped listed) narrow

/-- In every reachable draft each rule knows its place in the list, is declared by a workspace, is
about a role and has a set of operations that goes with its policy and its fields.  In a catalog
that is built, each rule selects types that are visible from its workspace, and these have all of
its operations and fields. -/
theorem Reachable.rules_sound (reached : Reachable draft) :
    (∀ (i : Nat) (rule : Rule), draft.rules[i]? = some rule →
      rule.position = i ∧ rule.Sound draft.types) ∧
    ∀ catalog : Catalog, draft.build = .ok catalog → ∀ rule ∈ catalog.rules,
      ∃ ws, catalog.workspace? rule.workspace = some ws ∧ rule.Effective ws.defs := by
  refine ⟨fun i rule found => ⟨reached.positioned i rule found,
    reached.rule_sound (List.mem_of_getElem? found)⟩, fun catalog made rule listed => ?_⟩
  have built : catalog.Built := ⟨draft, reached, made⟩
  obtain ⟨clean, rfl⟩ := build_eq_ok_iff.mp made
  obtain ⟨ws, viewed⟩ := built.rule_declared listed
  refine ⟨ws, viewed, ?_⟩
  rw [reached.defs_freeze viewed]
  exact reached.rule_effective (findings_eq_nil_iff.mp clean) listed

/-- The last rule of the library says that clerks inherit from readers and nothing else.  Its first
rule selects types, and all of these have titles. -/
theorem Reachable.rules_sound_library :
    (∃ rule, Library.draft.rules[2]? = some rule ∧ rule.position = 2 ∧
      rule.policy = .allow ∧ ∀ op ∈ rule.operations, op = .inherits) ∧
    ∃ rule ∈ Library.catalog.rules, rule.fields = ["title"] ∧
      ∃ ws, Library.catalog.workspace? rule.workspace = some ws ∧
        rule.selector.select ws.defs ≠ [] ∧
        ∀ t ∈ rule.selector.select ws.defs, t.hasField "title" = true := by
  obtain ⟨listed, effective⟩ :=
    Reachable.rules_sound ((Reachable.initial {}).applyAll Library.edits)
  constructor
  · have last : (Library.draft.rules[2]?).map (fun rule => rule.operations.contains .inherits) =
        some true := by decide +kernel
    obtain ⟨rule, found, inherits⟩ := Option.map_eq_some_iff.mp last
    obtain ⟨position, sound⟩ := listed 2 rule found
    obtain ⟨alone, grants⟩ := sound.alone (Std.ExtTreeSet.mem_iff_contains.mpr inherits)
    exact ⟨rule, found, position, grants, alone⟩
  · have first : (Library.draft.rules[0]?).map Rule.fields = some ["title"] := by decide +kernel
    obtain ⟨rule, found, fields⟩ := Option.map_eq_some_iff.mp first
    have among : rule ∈ Library.catalog.rules := by
      unfold Library.catalog freeze
      dsimp only
      exact List.mem_of_getElem? found
    obtain ⟨ws, viewed, fits⟩ :=
      effective Library.catalog (build_eq_ok_iff.mpr ⟨Library.findings_draft, rfl⟩) rule among
    refine ⟨rule, among, fields, ws, viewed, fits.selects, fun t selected => ?_⟩
    exact fits.known t selected "title" (fields ▸ List.mem_singleton_self _)

end Draft

end TypeCatalog
