import TypeCatalog.Proofs.Draft.WellFormed
import TypeCatalog.Proofs.Workspace.Graph

/-!
# Workspaces own what they declare

The graph of workspaces and the lists of what they declare are parts of types, so that a step that
changes any type might change them.  `Draft.GraphStep` says what a step makes of them: mostly
nothing, and otherwise one of three things.

* `Draft.Step.graph`: every step is one of these.
* `Draft.Owned`, `Draft.Reachable.owned`: a workspace lists exactly the types that name it as
  their workspace, and names itself.
-/

namespace TypeCatalog

/-- The workspace that declares the type with the given name. -/
def TypeTable.owner? (types : TypeTable) (name : QName) : Option QName :=
  (types[name]?).map TypeDef.workspace

namespace Workspace

theorem mem_locals_addLocal {home : Workspace} {name other : QName} :
    other ∈ (home.addLocal name).locals ↔ other = name ∨ other ∈ home.locals := by
  unfold addLocal
  exact mem_insert_key_iff

theorem addUsed_eq (home : Workspace) (name : QName) :
    ∃ used, home.addUsed name = { home with used := used } ∧
      ∀ other ∈ used, other ∈ home.used ∨ other = name := by
  unfold addUsed
  split
  next => exact ⟨home.used, rfl, fun other isUsed => .inl isUsed⟩
  next => exact ⟨home.used ++ [name], rfl, fun other isUsed => by simpa using isUsed⟩

/-- Using more workspaces changes nothing else. -/
theorem foldl_addUsed_eq (home : Workspace) (names : List QName) :
    ∃ used, names.foldl addUsed home = { home with used := used } ∧
      ∀ name ∈ used, name ∈ home.used ∨ name ∈ names := by
  induction names generalizing home with
  | nil => exact ⟨home.used, rfl, fun name isUsed => .inl isUsed⟩
  | cons first rest ih =>
      obtain ⟨more, added, amongMore⟩ := home.addUsed_eq first
      obtain ⟨used, same, among⟩ := ih { home with used := more }
      refine ⟨used, by rw [List.foldl_cons, added, same], fun name isUsed => ?_⟩
      rcases among name isUsed with old | later
      · rcases amongMore name old with older | rfl
        · exact .inl older
        · exact .inr List.mem_cons_self
      · exact .inr (List.mem_cons_of_mem _ later)

end Workspace

namespace Draft

variable {draft after : Draft} {name ws : QName} {t : TypeDef} {home : Workspace}

/-! ## Workspaces and owners in a changed draft -/

theorem workspace?_withType (draft : Draft) (name : QName) (t : TypeDef) :
    (draft.withType name t).types.workspace? =
      Function.update draft.types.workspace? name t.workspace? :=
  read_withType (·.bind TypeDef.workspace?) draft name t

theorem owner?_withType (draft : Draft) (name : QName) (t : TypeDef) :
    (draft.withType name t).types.owner? =
      Function.update draft.types.owner? name (some t.workspace) :=
  read_withType (·.map TypeDef.workspace) draft name t

theorem owner?_withType_of_same {changed : TypeDef} (found : draft.types[name]? = some t)
    (same : changed.workspace = t.workspace) :
    (draft.withType name changed).types.owner? = draft.types.owner? :=
  read_withType_of_same (·.map TypeDef.workspace) found (congrArg some same)

theorem workspace?_withType_of_same {changed : TypeDef} (found : draft.types[name]? = some t)
    (same : changed.workspace? = t.workspace?) :
    (draft.withType name changed).types.workspace? = draft.types.workspace? :=
  read_withType_of_same (·.bind TypeDef.workspace?) found same

theorem workspace?_eq_some_of_body (found : draft.types[ws]? = some t)
    (isWorkspace : t.body = .workspace home) : draft.types.workspace? ws = some home :=
  TypeTable.workspace?_eq_some_iff.mpr ⟨t, found, TypeDef.workspace?_eq_some_iff.mpr isWorkspace⟩

theorem findWorkspace_eq_ok_iff_workspace? :
    draft.findWorkspace ws = .ok home ↔ draft.types.workspace? ws = some home := by
  rw [findWorkspace_eq_ok_iff, TypeTable.workspace?_eq_some_iff]
  simp only [TypeDef.workspace?_eq_some_iff]

/-! ## Steps of the graph -/

/-- What a step may make of a workspace that is there, other than to have it declare more. -/
inductive HomeStep (draft : Draft) (ws : QName) (home : Workspace) : Workspace → Prop
  | ancestors {candidates accepted : List QName} : candidates ≠ [] →
    Build.checkAncestors draft ws [] candidates = .ok accepted →
    HomeStep draft ws home { home with ancestors := accepted }
  | used {names : List QName} : draft.checkWorkspaces names = .ok () →
    HomeStep draft ws home (names.foldl Workspace.addUsed home)
  | described (descriptor : QName) :
    HomeStep draft ws home { home with descriptor := some descriptor }

/-- What a step may make of the workspaces and of who owns which type. -/
inductive GraphStep (draft : Draft) (after : TypeTable) : Prop
  | kept : after.workspace? = draft.types.workspace? → after.owner? = draft.types.owner? →
    GraphStep draft after
  | created {name : QName} : draft.types[name]? = none →
    after.workspace? = Function.update draft.types.workspace? name (some (.addLocal {} name)) →
    after.owner? = Function.update draft.types.owner? name (some name) → GraphStep draft after
  | declared {ws name : QName} {home : Workspace} : draft.types.workspace? ws = some home →
    draft.types[name]? = none →
    after.workspace? = Function.update draft.types.workspace? ws (some (home.addLocal name)) →
    after.owner? = Function.update draft.types.owner? name (some ws) → GraphStep draft after
  | rewired {ws : QName} {home later : Workspace} : draft.types.workspace? ws = some home →
    HomeStep draft ws home later →
    after.workspace? = Function.update draft.types.workspace? ws (some later) →
    after.owner? = draft.types.owner? → GraphStep draft after

theorem GraphStep.of_kept {changed : TypeDef} (found : draft.types[name]? = some t)
    (sameOwner : changed.workspace = t.workspace) (sameBody : changed.workspace? = t.workspace?) :
    GraphStep draft (draft.withType name changed).types :=
  .kept (workspace?_withType_of_same found sameBody) (owner?_withType_of_same found sameOwner)

theorem GraphStep.of_rewired {changed : TypeDef} {later : Workspace}
    (found : draft.types[ws]? = some t) (isWorkspace : t.body = .workspace home)
    (sameOwner : changed.workspace = t.workspace) (becomes : changed.body = .workspace later)
    (step : HomeStep draft ws home later) : GraphStep draft (draft.withType ws changed).types := by
  refine .rewired (workspace?_eq_some_of_body found isWorkspace) step ?_
    (owner?_withType_of_same found sameOwner)
  rw [workspace?_withType, TypeDef.workspace?_eq_some_iff.mpr becomes]

/-- Amending a type never makes a workspace of it. -/
theorem TypeStep.workspace?_eq {changed : TypeDef} (step : TypeStep draft name t changed) :
    changed.workspace? = t.workspace? := by
  unfold TypeDef.workspace?
  cases step with
  | comment _ | setAbstract | tag _ _ => rfl
  | structured body _ | view body _ _ | function _ body | projector _ body | job _ body =>
      rw [body]

/-- No workspace is declared in a workspace. -/
theorem workspace?_eq_none_of_bodyOf {declaration : Declaration} {kind : TypeKind} {body : Body}
    (made : Build.bodyOf draft ws declaration = .ok (kind, body)) (has : t.body = body) :
    t.workspace? = none := by
  refine Option.eq_none_iff_forall_ne_some.mpr fun home isHome => ?_
  rw [← has, TypeDef.workspace?_eq_some_iff.mp isHome] at made
  exact Build.bodyOf_ne_workspace made

theorem WorkspaceStep.graph (step : WorkspaceStep ws draft after) :
    GraphStep draft after.types := by
  cases step with
  | @declare name declaration kind body owner home _ free made found isWorkspace =>
      obtain ⟨_, fresh⟩ := getElem?_eq_none_of_isBound free
      have notWorkspace : TypeDef.workspace? { name, kind, workspace := ws, body } = none :=
        workspace?_eq_none_of_bodyOf made rfl
      have freshWorkspace : draft.types.workspace? name = none := by
        unfold TypeTable.workspace?
        rw [fresh]
        rfl
      have apart : ws ≠ name := by
        intro same
        rw [← same, found] at fresh
        cases fresh
      have listed : (draft.withType ws { owner with
          body := .workspace (home.addLocal name) }).types.owner? = draft.types.owner? :=
        owner?_withType_of_same found rfl
      refine .declared (workspace?_eq_some_of_body found isWorkspace) fresh ?_ ?_
      · rw [workspace?_withType, workspace?_withType, notWorkspace, Function.update_comm apart,
          ← freshWorkspace, Function.update_eq_self]
        rfl
      · rw [owner?_withType, listed]
  | amend found _ _ step => exact .of_kept found step.evolves.workspace step.workspace?_eq
  | addUnique found _ _ structured _ _ _ =>
      refine .of_kept found rfl ?_
      unfold TypeDef.workspace?
      rw [structured]
  | setAncestors found isWorkspace nonempty checked =>
      exact .of_rewired found isWorkspace rfl rfl (.ancestors nonempty checked)
  | useWorkspaces found isWorkspace checked =>
      exact .of_rewired found isWorkspace rfl rfl (.used checked)
  | @setDescriptor _ _ descriptor found isWorkspace _ _ =>
      exact .of_rewired found isWorkspace rfl rfl (.described descriptor)
  | setAbstract found => exact .of_kept found rfl rfl
  | comment _ found => exact .of_kept found rfl rfl
  | addRule _ _ _ _ _ _ => exact .kept rfl rfl

/-- Every step leaves the graph alone, or adds a workspace, or has a workspace declare a type, or
rewires one workspace. -/
theorem Step.graph (step : Step draft after) : GraphStep draft after.types := by
  cases step with
  | bindPackage _ => exact .kept rfl rfl
  | addWorkspace _ free =>
      refine .created (getElem?_eq_none_of_isBound free).2 ?_ (owner?_withType ..)
      exact workspace?_withType ..
  | within _ step => exact step.graph
  | comment _ found => exact .of_kept found rfl rfl

theorem HomeStep.locals_eq {later : Workspace} (step : HomeStep draft ws home later) :
    later.locals = home.locals := by
  cases step with
  | ancestors _ _ | described _ => rfl
  | used _ =>
      obtain ⟨_, same, _⟩ := Workspace.foldl_addUsed_eq home _
      rw [same]

end Draft

/-! ## Ownership -/

/-- A workspace lists exactly the types that name it as their workspace, itself among them. -/
structure TypeTable.Owned (types : TypeTable) : Prop where
  listed : ∀ {ws name : QName}, name ∈ types.localNames ws ↔ types.owner? name = some ws
  self : ∀ {ws : QName} {home : Workspace},
    types.workspace? ws = some home → types.owner? ws = some ws

namespace TypeTable

variable {types : TypeTable} {name ws : QName}

theorem owner?_eq_some_iff :
    types.owner? name = some ws ↔ ∃ t, types[name]? = some t ∧ t.workspace = ws := by
  unfold owner?
  exact Option.map_eq_some_iff

/-- A workspace names itself as its workspace. -/
theorem Owned.workspace_eq (owned : types.Owned) {t : TypeDef} {home : Workspace}
    (found : types[ws]? = some t) (isWorkspace : t.workspace? = some home) : t.workspace = ws := by
  have self := owned.self (workspace?_eq_some_iff.mpr ⟨t, found, isWorkspace⟩)
  obtain ⟨u, foundU, own⟩ := owner?_eq_some_iff.mp self
  rw [found] at foundU
  cases foundU
  exact own

theorem owner?_eq_none (free : types[name]? = none) : types.owner? name = none := by
  unfold owner?
  rw [free]
  rfl

theorem workspace?_eq_none (free : types[name]? = none) : types.workspace? name = none := by
  unfold workspace?
  rw [free]
  rfl

/-- The types that a workspace lists, when it alone is changed and it alone comes to list more. -/
theorem mem_localNames_iff_of_update {after : TypeTable} {home : Workspace}
    (changed : after.workspace? = Function.update types.workspace? ws (some home)) {other : QName} :
    name ∈ after.localNames other ↔
      if other = ws then name ∈ home.locals else name ∈ types.localNames other := by
  rw [mem_localNames_iff, changed]
  by_cases same : other = ws
  · subst same
    rw [Function.update_self, if_pos rfl]
    simp
  · rw [Function.update_of_ne same, if_neg same, mem_localNames_iff]

end TypeTable

namespace Draft

variable {draft after : Draft} {name ws : QName} {t : TypeDef} {home : Workspace}

/-- The root is the only workspace at first. -/
theorem workspace?_initial_iff {config : Config} :
    (initial config).types.workspace? ws = some home ↔
      ws = .sysWorkspace ∧ root.body = .workspace home := by
  rw [TypeTable.workspace?_eq_some_iff]
  simp only [initial_getElem?_iff, List.mem_map, Prod.mk.injEq, TypeDef.workspace?_eq_some_iff]
  constructor
  · intro holds
    obtain ⟨_, ⟨t, listed, rfl, rfl⟩, isWorkspace⟩ := holds
    rcases List.mem_cons.mp listed with rfl | isData
    · exact ⟨rfl, isWorkspace⟩
    · obtain ⟨kind, _, rfl⟩ := List.mem_map.mp isData
      cases isWorkspace
  · intro holds
    obtain ⟨rfl, isWorkspace⟩ := holds
    exact ⟨root, ⟨root, List.mem_cons_self, rfl, rfl⟩, isWorkspace⟩

/-- The root owns all the types that there are at first. -/
theorem owner?_initial_iff {config : Config} :
    (initial config).types.owner? name = some ws ↔
      ws = .sysWorkspace ∧
        name ∈ QName.sysWorkspace :: DataKind.inhabitedKinds.map DataKind.sysName := by
  rw [TypeTable.owner?_eq_some_iff]
  simp only [initial_getElem?_iff, List.mem_map, Prod.mk.injEq]
  constructor
  · intro holds
    obtain ⟨_, ⟨t, listed, rfl, rfl⟩, rfl⟩ := holds
    rcases List.mem_cons.mp listed with rfl | isData
    · exact ⟨rfl, List.mem_cons_self⟩
    · obtain ⟨kind, isKind, rfl⟩ := List.mem_map.mp isData
      exact ⟨rfl, List.mem_cons_of_mem _ (List.mem_map_of_mem isKind)⟩
  · intro holds
    obtain ⟨rfl, listed⟩ := holds
    rcases List.mem_cons.mp listed with rfl | isData
    · exact ⟨root, ⟨root, List.mem_cons_self, rfl, rfl⟩, rfl⟩
    · obtain ⟨kind, isKind, rfl⟩ := List.mem_map.mp isData
      exact ⟨sysData kind, ⟨sysData kind, List.mem_cons_of_mem _ (List.mem_map_of_mem isKind),
        rfl, rfl⟩, rfl⟩

theorem owned_initial (config : Config) : (initial config).types.Owned where
  listed := by
    intro ws name
    rw [TypeTable.mem_localNames_iff, owner?_initial_iff]
    simp only [workspace?_initial_iff]
    constructor
    · intro holds
      obtain ⟨home, ⟨isRoot, isHome⟩, listed⟩ := holds
      cases isHome
      rw [Std.ExtTreeSet.mem_ofList, List.contains_iff_mem] at listed
      exact ⟨isRoot, listed⟩
    · intro holds
      obtain ⟨isRoot, listed⟩ := holds
      refine ⟨_, ⟨isRoot, rfl⟩, ?_⟩
      rw [Std.ExtTreeSet.mem_ofList, List.contains_iff_mem]
      exact listed
  self := by
    intro ws home isWorkspace
    obtain ⟨rfl, _⟩ := workspace?_initial_iff.mp isWorkspace
    exact owner?_initial_iff.mpr ⟨rfl, List.mem_cons_self⟩

theorem GraphStep.owned {types : TypeTable} (step : GraphStep draft types)
    (owned : draft.types.Owned) : types.Owned := by
  cases step with
  | kept workspaces owners =>
      refine ⟨fun {ws name} => ?_, fun {ws home} isWorkspace => ?_⟩
      · rw [TypeTable.mem_localNames_iff, workspaces, owners, ← TypeTable.mem_localNames_iff]
        exact owned.listed
      · rw [workspaces] at isWorkspace
        rw [owners]
        exact owned.self isWorkspace
  | @created name free workspaces owners =>
      refine ⟨fun {ws other} => ?_, fun {ws home} isWorkspace => ?_⟩
      · rw [TypeTable.mem_localNames_iff_of_update workspaces, owners, owned.listed,
          Workspace.mem_locals_addLocal, Function.update_apply]
        -- Nothing was declared by a workspace that was not there.
        have nothing : draft.types.owner? other ≠ some name := by
          rw [ne_eq, ← owned.listed, TypeTable.mem_localNames_iff,
            TypeTable.workspace?_eq_none free]
          simp
        have fresh := TypeTable.owner?_eq_none free
        have bare : other ∉ (∅ : NameSet) := Std.ExtTreeSet.not_mem_empty
        grind
      · rw [workspaces, Function.update_apply] at isWorkspace
        rw [owners, Function.update_apply]
        split at isWorkspace
        next same => rw [if_pos same, same]
        next apart =>
          rw [if_neg apart]
          exact owned.self isWorkspace
  | @declared ws name home isHome free workspaces owners =>
      have fresh := TypeTable.owner?_eq_none free
      refine ⟨fun {ws' other} => ?_, fun {ws' home'} isWorkspace => ?_⟩
      · rw [TypeTable.mem_localNames_iff_of_update workspaces, owners, owned.listed]
        have listed : other ∈ home.locals ↔ draft.types.owner? other = some ws := by
          rw [← owned.listed, TypeTable.mem_localNames_iff, isHome]
          simp
        rw [Workspace.mem_locals_addLocal, listed, Function.update_apply]
        grind
      · have present : draft.types.workspace? ws' ≠ none := by
          rw [workspaces, Function.update_apply] at isWorkspace
          grind
        obtain ⟨former, isFormer⟩ := Option.ne_none_iff_exists'.mp present
        have self := owned.self isFormer
        rw [owners, Function.update_apply]
        grind
  | @rewired ws home later isHome step workspaces owners =>
      refine ⟨fun {ws' other} => ?_, fun {ws' home'} isWorkspace => ?_⟩
      · rw [TypeTable.mem_localNames_iff_of_update workspaces, owners, step.locals_eq]
        split
        next same =>
          rw [same, ← owned.listed, TypeTable.mem_localNames_iff, isHome]
          simp
        next => exact owned.listed
      · rw [owners]
        rw [workspaces, Function.update_apply] at isWorkspace
        split at isWorkspace
        next same =>
          rw [same]
          exact owned.self isHome
        next => exact owned.self isWorkspace

theorem Reachable.owned (reached : Reachable draft) : draft.types.Owned :=
  reached.invariant owned_initial fun _ _ owned step => step.graph.owned owned

end Draft

end TypeCatalog
