import Mathlib.Data.List.Induction
import TypeCatalog.Proofs.Draft.Growth
import TypeCatalog.Proofs.Draft.Mirror
import TypeCatalog.Proofs.Workspace.Widening

/-!
# Roles and tags out of sight

The role of a rule has to be visible from the workspace that declares the rule, and the tag of a
type from the workspace that declares the type.  Both is checked when the rule or the tag is added,
and not again when the catalog is built.

* `Catalog.not_forall_visible`: in a built catalog neither has to be so any more.
* `Draft.Finds`: a workspace finds a type of some kind under a name.
* `Draft.Step.rules_origin`, `Draft.Step.tags_origin`: what was checked of what is new.
* `Draft.finds_or_lapsed`: what was found once is found after all further edits, unless one of
  them set ancestors and took it out of sight.
* `Draft.visible_or_lapsed`: the same for the rules and the tags of a built catalog.
-/

namespace TypeCatalog

/-! ## What a workspace finds -/

namespace Draft

variable {draft after : Draft} {ws name : QName} {kind : TypeKind} {t changed : TypeDef}

/-- From the workspace a type of the given kind is visible under the name. -/
def Finds (draft : Draft) (ws name : QName) (kind : TypeKind) : Prop :=
  ∃ t, draft.types.visible? ws name = some t ∧ t.kind = kind

theorem finds_iff (real : kind ≠ .any) : draft.Finds ws name kind ↔
    name ≠ .any ∧ name ∈ draft.types.visibleNames ws ∧
      ∃ t, draft.types[name]? = some t ∧ t.kind = kind := by
  unfold Finds TypeTable.visible?
  by_cases isAny : name = .any
  · rw [if_pos isAny]
    refine iff_of_false (fun finds => ?_) fun finds => finds.1 isAny
    obtain ⟨t, found, isKind⟩ := finds
    cases found
    exact real isKind.symm
  · rw [if_neg isAny, ← TypeTable.sees_iff_mem_visibleNames]
    split
    next sees => simp [isAny, sees]
    next hidden => simp [hidden]

theorem Finds.registered (finds : draft.Finds ws name kind) (real : kind ≠ .any) :
    ∃ t, draft.types[name]? = some t ∧ t.kind = kind :=
  ((finds_iff real).mp finds).2.2

/-- A type that is there stays, with its kind. -/
theorem Extends.registered (extended : draft.Extends after)
    (there : ∃ t, draft.types[name]? = some t ∧ t.kind = kind) :
    ∃ t, after.types[name]? = some t ∧ t.kind = kind := by
  obtain ⟨t, found, isKind⟩ := there
  obtain ⟨later, isLater, kept⟩ := extended.types name t found
  exact ⟨later, isLater, kept.kind.trans isKind⟩

theorem Finds.of_widens (finds : draft.Finds ws name kind) (real : kind ≠ .any)
    (widens : draft.types.Widens after.types) (extended : draft.Extends after) :
    after.Finds ws name kind := by
  obtain ⟨apart, visible, there⟩ := (finds_iff real).mp finds
  exact (finds_iff real).mpr
    ⟨apart, widens.mem_visibleNames visible, extended.registered there⟩

/-- The edit sets the ancestors of a workspace that the given one draws on, so that it does not find
any more what it found. -/
def LosesBy (draft : Draft) (edit : Edit) (ws name : QName) (kind : TypeKind) : Prop :=
  ∃ target ancestors, edit = .within target (.setAncestors ancestors) ∧
    draft.types.DrawsOn ws target ∧ draft.Finds ws name kind ∧
    ¬ (draft.apply edit).2.Finds ws name kind

theorem Finds.apply (finds : draft.Finds ws name kind) (real : kind ≠ .any)
    (reached : Reachable draft) {home : Workspace}
    (isWorkspace : draft.types.workspace? ws = some home) (edit : Edit) :
    (draft.apply edit).2.Finds ws name kind ∨ draft.LosesBy edit ws name kind := by
  obtain ⟨apart, visible, there⟩ := (finds_iff real).mp finds
  by_cases still : (draft.apply edit).2.Finds ws name kind
  · exact .inl still
  · right
    rcases reached.mem_visibleNames_apply isWorkspace visible edit with
      visible | ⟨target, ancestors, sets, draws⟩
    · have extended := Extends.of_eq_or_step (draft.apply_eq_or_step edit)
      exact absurd ((finds_iff real).mpr ⟨apart, visible, extended.registered there⟩) still
    · exact ⟨target, ancestors, sets, draws, finds, still⟩

/-! ## What is found when it is added -/

/-- A new rule is about a role that its workspace finds. -/
theorem Step.rules_origin (step : Step draft after) {rule : Rule} (listed : rule ∈ after.rules) :
    rule ∈ draft.rules ∨ after.Finds rule.workspace rule.principal .role := by
  cases step with
  | bindPackage _ | addWorkspace _ _ | comment _ _ => exact .inl listed
  | within _ step =>
      cases step with
      | addRule _ _ _ visible isRole _ =>
          rcases List.mem_append.mp listed with old | new
          · exact .inl old
          · cases List.mem_singleton.mp new
            exact .inr ⟨_, visible, isRole⟩
      | _ => exact .inl listed

/-- The type with the given name belongs to the workspace and carries the tag. -/
def Carries (draft : Draft) (ws name tag : QName) : Prop :=
  ∃ t, draft.types[name]? = some t ∧ t.workspace = ws ∧ tag ∈ t.tags

theorem not_carries_initial {config : Config} {tag : QName} :
    ¬ (initial config).Carries ws name tag := by
  intro carries
  obtain ⟨t, found, _, tagged⟩ := carries
  obtain ⟨u, listed, same⟩ := List.mem_map.mp (initial_getElem?_iff.mp found)
  cases same
  rcases List.mem_cons.mp listed with rfl | isData
  · exact Std.ExtTreeSet.not_mem_empty tagged
  · obtain ⟨kind, _, rfl⟩ := List.mem_map.mp isData
    exact Std.ExtTreeSet.not_mem_empty tagged

theorem TypeStep.tags_origin {tag : QName} (step : TypeStep draft name t changed)
    (tagged : tag ∈ changed.tags) : tag ∈ t.tags ∨ draft.Finds t.workspace tag .tag := by
  cases step with
  | tag visible isTag =>
      rw [Std.ExtTreeSet.mem_insert, Std.LawfulEqCmp.compare_eq_iff_eq] at tagged
      rcases tagged with rfl | old
      · exact .inr ⟨_, visible, isTag⟩
      · exact .inl old
  | _ => exact .inl tagged

theorem carries_withType_iff {other tag : QName} :
    (draft.withType name changed).Carries ws other tag ↔
      if name = other then changed.workspace = ws ∧ tag ∈ changed.tags
      else draft.Carries ws other tag := by
  unfold Carries
  rw [withType_getElem?]
  split <;> simp

theorem carries_of_withType {other tag : QName} (found : draft.types[name]? = some t)
    (carries : (draft.withType name changed).Carries ws other tag)
    (workspace : changed.workspace = t.workspace) (tags : changed.tags = t.tags) :
    draft.Carries ws other tag := by
  rw [carries_withType_iff] at carries
  split at carries
  next same =>
    subst same
    rw [workspace, tags] at carries
    exact ⟨t, found, carries⟩
  next => exact carries

theorem WorkspaceStep.tags_origin {own tag : QName} (step : WorkspaceStep ws draft after)
    (carries : after.Carries own name tag) :
    draft.Carries own name tag ∨ after.Finds own tag .tag := by
  cases step with
  | declare _ _ _ found _ =>
      rw [carries_withType_iff] at carries
      split at carries
      next => exact absurd carries.2 Std.ExtTreeSet.not_mem_empty
      next => exact .inl (carries_of_withType found carries rfl rfl)
  | amend found _ _ step =>
      rw [carries_withType_iff] at carries
      split at carries
      next same =>
        subst same
        obtain ⟨home, tagged⟩ := carries
        have home := step.extends.workspace.symm.trans home
        rcases step.tags_origin tagged with old | finds
        · exact .inl ⟨_, found, home, old⟩
        · -- A tag takes no visible names away.
          rw [home] at finds
          exact .inr (finds.of_widens (by decide)
            (widens_withType_of_same found step.workspace?_eq)
            (extends_withType found step.extends))
      next => exact .inl carries
  | addUnique found _ _ _ _ _ _ | setAncestors found _ _ _ | useWorkspaces found _ _
  | setDescriptor found _ _ _ | setAbstract found | comment _ found =>
      exact .inl (carries_of_withType found carries rfl rfl)
  | addRule _ _ _ _ _ _ => exact .inl carries

/-- A new tag is one that the workspace of the type finds. -/
theorem Step.tags_origin {own tag : QName} (step : Step draft after)
    (carries : after.Carries own name tag) :
    draft.Carries own name tag ∨ after.Finds own tag .tag := by
  cases step with
  | bindPackage _ => exact .inl carries
  | addWorkspace _ _ =>
      rw [carries_withType_iff] at carries
      split at carries
      next => exact absurd carries.2 Std.ExtTreeSet.not_mem_empty
      next => exact .inl carries
  | within _ step => exact step.tags_origin carries
  | comment _ found => exact .inl (carries_of_withType found carries rfl rfl)

/-! ## Runs -/

/-- At some point of the edits, when something was there already that was checked to be found, an
edit set ancestors so that it was not found any more. -/
def Lapsed (config : Config) (edits : List Edit) (holds : Draft → Prop) (ws name : QName)
    (kind : TypeKind) : Prop :=
  ∃ early edit late, edits = early ++ edit :: late ∧ holds ((initial config).applyAll early) ∧
    ((initial config).applyAll early).LosesBy edit ws name kind

section Runs

variable {holds : Draft → Prop} {config : Config} {edits : List Edit} (real : kind ≠ .any)
include real

/-- What was found when it was checked is found after all edits, unless it has lapsed. -/
theorem finds_or_lapsed (absent : ∀ config, ¬ holds (initial config))
    (origin : ∀ before after, Step before after → holds after →
      holds before ∨ after.Finds ws name kind)
    (housed : ∀ draft, Reachable draft → holds draft →
      ∃ home, draft.types.workspace? ws = some home)
    (now : holds ((initial config).applyAll edits)) :
    ((initial config).applyAll edits).Finds ws name kind ∨
      Lapsed config edits holds ws name kind := by
  induction edits using List.reverseRecOn with
  | nil => exact absurd now (absent config)
  | append_singleton edits edit ih =>
      rw [applyAll_concat] at now ⊢
      have reached := (Reachable.initial config).applyAll edits
      have before : holds ((initial config).applyAll edits) ∨
          (((initial config).applyAll edits).apply edit).2.Finds ws name kind := by
        rcases apply_eq_or_step ((initial config).applyAll edits) edit with same | step
        · rw [same] at now
          exact .inl now
        · exact origin _ _ step now
      rcases before with held | finds
      · rcases ih held with finds | ⟨early, losing, late, rfl, there, loses⟩
        · obtain ⟨home, isWorkspace⟩ := housed _ reached held
          rcases finds.apply real reached isWorkspace edit with still | loses
          · exact .inl still
          · exact .inr ⟨edits, edit, [], rfl, held, loses⟩
        · exact .inr ⟨early, losing, late ++ [edit], by simp, there, loses⟩
      · exact .inl finds

/-- What was found once is there, even if it is not found any more. -/
theorem registered_of_finds_or_lapsed
    (known : ((initial config).applyAll edits).Finds ws name kind ∨
      Lapsed config edits holds ws name kind) :
    ∃ t, ((initial config).applyAll edits).types[name]? = some t ∧ t.kind = kind := by
  rcases known with finds | ⟨early, edit, late, rfl, _, _, _, _, _, finds, _⟩
  · exact finds.registered real
  · rw [applyAll_append]
    exact (extends_applyAll _ _).registered (finds.registered real)

end Runs

/-! ## Built catalogs -/

end Draft

/-- The catalog has a type of the given kind under the name, and the workspace finds it, unless it
has lapsed. -/
def Catalog.Knows (catalog : Catalog) (ws name : QName) (kind : TypeKind) (lapsed : Prop) : Prop :=
  (∃ t, catalog.types[name]? = some t ∧ t.kind = kind) ∧
    ∃ view, catalog.workspace? ws = some view ∧ ((view.resolve name).kind = kind ∨ lapsed)

namespace Draft

variable {draft : Draft} {ws name : QName} {kind : TypeKind}

/-- Workspaces of a catalog find what they found in the draft. -/
theorem Reachable.knows_freeze (reached : Reachable draft) {home : Workspace} {lapsed : Prop}
    (isWorkspace : draft.types.workspace? ws = some home)
    (registered : ∃ t, draft.types[name]? = some t ∧ t.kind = kind)
    (known : draft.Finds ws name kind ∨ lapsed) : draft.freeze.Knows ws name kind lapsed := by
  refine ⟨?_, ?_⟩
  · rw [reached.getElem?_freeze]
    exact registered
  · rw [← reached.workspace?_freeze] at isWorkspace
    obtain ⟨view, viewed, _⟩ := Option.map_eq_some_iff.mp isWorkspace
    refine ⟨view, viewed, known.imp_left fun finds => ?_⟩
    obtain ⟨t, visible, isKind⟩ := finds
    rw [(reached.view_mirrors viewed).resolve, visible]
    exact isKind

/-- Whatever edits lead to a catalog that is built: the principal of every rule is a role and
everything that a type is tagged with is a tag, and the workspaces of the rule and of the type see
them, unless an edit set ancestors afterwards and took them out of sight. -/
theorem visible_or_lapsed (config : Config) (edits : List Edit) (catalog : Catalog)
    (made : ((initial config).applyAll edits).build = .ok catalog) :
    (∀ rule ∈ catalog.rules, catalog.Knows rule.workspace rule.principal .role
      (Lapsed config edits (fun draft => rule ∈ draft.rules) rule.workspace rule.principal
        .role)) ∧
    ∀ t ∈ catalog.defs, ∀ tag ∈ t.tags, catalog.Knows t.workspace tag .tag
      (Lapsed config edits (fun draft => draft.Carries t.workspace t.name tag) t.workspace tag
        .tag) := by
  have reached := (Reachable.initial config).applyAll edits
  obtain ⟨_, rfl⟩ := build_eq_ok_iff.mp made
  refine ⟨fun rule listed => ?_, fun t listed tag tagged => ?_⟩
  · have declared : ∀ draft, Reachable draft → rule ∈ draft.rules →
        ∃ home, draft.types.workspace? rule.workspace = some home := by
      intro draft reached listed
      obtain ⟨home, opened⟩ := reached.wellFormed.declared rule listed
      exact ⟨home, findWorkspace_eq_ok_iff_workspace?.mp opened⟩
    have known : ((initial config).applyAll edits).Finds rule.workspace rule.principal .role ∨
        Lapsed config edits (fun draft => rule ∈ draft.rules) rule.workspace rule.principal .role :=
      finds_or_lapsed (by decide) (fun _ => List.not_mem_nil)
        (fun _ _ step listed => step.rules_origin listed) declared listed
    obtain ⟨home, isWorkspace⟩ := declared _ reached listed
    exact reached.knows_freeze isWorkspace (registered_of_finds_or_lapsed (by decide) known) known
  · have housed : ∀ draft, Reachable draft → draft.Carries t.workspace t.name tag →
        ∃ home, draft.types.workspace? t.workspace = some home := by
      intro draft reached carries
      obtain ⟨u, found, own, _⟩ := carries
      have among := reached.owned.listed.mpr (TypeTable.owner?_eq_some_iff.mpr ⟨u, found, own⟩)
      obtain ⟨home, isWorkspace, _⟩ := TypeTable.mem_localNames_iff.mp among
      exact ⟨home, isWorkspace⟩
    have carries : ((initial config).applyAll edits).Carries t.workspace t.name tag :=
      ⟨t, reached.named.mem_defs_iff.mp listed, rfl, tagged⟩
    have known : ((initial config).applyAll edits).Finds t.workspace tag .tag ∨
        Lapsed config edits (fun draft => draft.Carries t.workspace t.name tag) t.workspace tag
          .tag :=
      finds_or_lapsed (by decide) (fun _ => not_carries_initial)
        (fun _ _ step carries => step.tags_origin carries) housed carries
    obtain ⟨home, isWorkspace⟩ := housed _ reached carries
    exact reached.knows_freeze isWorkspace (registered_of_finds_or_lapsed (by decide) known) known

end Draft

/-! ## A workspace that moves -/

namespace Library

/-- The workspace `app` declares loans, which it tags and lets readers see, while it inherits from
`base`; then it comes to inherit from `staff` instead. -/
def move : List Edit := [
  .within (name "base") (.declare (name "lent") (.tag "lending")),
  .within (name "app") (.declare (name "loan") (.structured .cRecord isStructure_cRecord)),
  .within (name "app") (.amend (name "loan") (.addTag (name "lent"))),
  .within (name "app") (.addRule .allow [.select] (.names (.ofList [name "loan"])) []
    (name "reader") ""),
  .within (name "app") (.setAncestors [name "staff"])]

def moved : Draft := (Draft.initial {}).applyAll (edits ++ move)

theorem build_moved : moved.build = .ok moved.freeze :=
  Draft.build_eq_ok_iff.mpr ⟨List.isEmpty_iff.mp (by decide +kernel), rfl⟩

theorem built_moved : moved.freeze.Built :=
  ⟨moved, (Draft.Reachable.initial {}).applyAll (edits ++ move), build_moved⟩

/-- The rule is there and the loan is tagged, and `app` sees neither the role nor the tag. -/
theorem hidden_moved :
    (∃ rule ∈ moved.freeze.rules, rule.workspace = name "app" ∧ rule.principal = name "reader") ∧
    (∃ loan ∈ moved.freeze.defs, loan.name = name "loan" ∧ loan.workspace = name "app" ∧
      name "lent" ∈ loan.tags) ∧
    ∃ view, moved.freeze.workspace? (name "app") = some view ∧
      (view.resolve (name "reader")).kind = .null ∧ (view.resolve (name "lent")).kind = .null := by
  obtain ⟨rules, tagged, viewed⟩ :
      (moved.freeze.rules.any fun rule =>
        rule.workspace == name "app" && rule.principal == name "reader") = true ∧
      (moved.freeze.types[name "loan"]?).map (fun loan =>
        (loan.workspace, loan.tags.contains (name "lent"))) = some (name "app", true) ∧
      (moved.freeze.workspace? (name "app")).map (fun view =>
        ((view.resolve (name "reader")).kind, (view.resolve (name "lent")).kind)) =
        some (.null, .null) := by decide +kernel
  refine ⟨?_, ?_, ?_⟩
  · obtain ⟨rule, listed, same⟩ := List.any_eq_true.mp rules
    rw [Bool.and_eq_true, beq_iff_eq, beq_iff_eq] at same
    exact ⟨rule, listed, same⟩
  · obtain ⟨loan, found, same⟩ := Option.map_eq_some_iff.mp tagged
    obtain ⟨own, carries⟩ := Prod.mk.inj same
    have named := built_moved.types_named found
    refine ⟨loan, built_moved.mem_catalog_iff.mpr ?_, named, own,
      Std.ExtTreeSet.contains_iff_mem.mp carries⟩
    rw [named]
    exact found
  · obtain ⟨view, found, same⟩ := Option.map_eq_some_iff.mp viewed
    obtain ⟨role, tag⟩ := Prod.mk.inj same
    exact ⟨view, found, role, tag⟩

end Library

/-- It is not so that in every built catalog the principals of rules are visible from the workspaces
of the rules, nor that the tags of types are visible from the workspaces of the types. -/
theorem Catalog.not_forall_visible :
    (¬ ∀ catalog : Catalog, catalog.Built → ∀ rule ∈ catalog.rules, ∀ view,
      catalog.workspace? rule.workspace = some view →
        (view.resolve rule.principal).kind = .role) ∧
    ¬ ∀ catalog : Catalog, catalog.Built → ∀ t ∈ catalog.defs, ∀ tag ∈ t.tags, ∀ view,
      catalog.workspace? t.workspace = some view → (view.resolve tag).kind = .tag := by
  obtain ⟨⟨rule, ruleListed, ruleHome, principal⟩, ⟨loan, loanListed, _, loanHome, tagged⟩,
    view, viewed, role, tag⟩ := Library.hidden_moved
  refine ⟨fun visible => ?_, fun visible => ?_⟩
  · have isRole := visible _ Library.built_moved rule ruleListed view (ruleHome ▸ viewed)
    rw [principal, role] at isRole
    cases isRole
  · have isTag := visible _ Library.built_moved loan loanListed _ tagged view (loanHome ▸ viewed)
    rw [tag] at isTag
    cases isTag

/-- Both the role and the tag have lapsed, since the edits that lead to the catalog moved `app`. -/
theorem Draft.visible_or_lapsed_moved :
    Library.moved.build = .ok Library.moved.freeze ∧
    (∃ rule ∈ Library.moved.freeze.rules,
      Lapsed {} (Library.edits ++ Library.move) (fun draft => rule ∈ draft.rules)
        (Library.name "app") (Library.name "reader") .role) ∧
    Lapsed {} (Library.edits ++ Library.move)
      (fun draft => draft.Carries (Library.name "app") (Library.name "loan") (Library.name "lent"))
      (Library.name "app") (Library.name "lent") .tag := by
  obtain ⟨⟨rule, ruleListed, ruleHome, principal⟩, ⟨loan, loanListed, named, loanHome, tagged⟩,
    view, viewed, role, tag⟩ := Library.hidden_moved
  obtain ⟨rules, tags⟩ := Draft.visible_or_lapsed {} (Library.edits ++ Library.move) _
    Library.build_moved
  refine ⟨Library.build_moved, ⟨rule, ruleListed, ?_⟩, ?_⟩
  · obtain ⟨_, other, same, known⟩ := rules rule ruleListed
    rw [ruleHome, viewed] at same
    cases same
    rw [principal, role, ruleHome] at known
    exact known.resolve_left (by decide)
  · obtain ⟨_, other, same, known⟩ := tags loan loanListed _ tagged
    rw [loanHome, viewed] at same
    cases same
    rw [tag, loanHome, named] at known
    exact known.resolve_left (by decide)

end TypeCatalog
