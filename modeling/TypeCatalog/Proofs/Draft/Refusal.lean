import TypeCatalog.Proofs.BuiltCatalog
import TypeCatalog.Proofs.InPlace

/-!
# Refused edits

An edit may change several things: a type and the list of its workspace, a structure and the name of
a unique, a descriptor and a mark, the fields of a view and the list of one of its parts.  None of
these changes comes before a check, so that an edit that is refused leaves the draft as it was.

* `Draft.typePart`, `Draft.workspacePart`, `TypeDef.viewPart` and others say where in a draft an
  edit changes something.
* `Edit.inPlace` is an edit with its changes in the order in which they are made, and
  `Edit.inPlace_eq_run` says that it does what `Edit.run` does.
* `Build.setDescriptor_succeeds_iff` and its likes say what an edit is refused for.
* `Draft.refused_edits_leave_no_trace` puts these together.
-/

namespace TypeCatalog

/-! ## Parts of a draft -/

namespace Draft

variable {draft : Draft} {name : QName} {t : TypeDef}

/-- To put a type where it is changes nothing. -/
theorem withType_self (found : draft.types[name]? = some t) : draft.withType name t = draft := by
  have same : draft.types.insert name t = draft.types := by
    refine Std.ExtTreeMap.ext_getElem? fun other => ?_
    rw [getElem?_insert]
    split
    next same => rw [← same, found]
    next => rfl
  unfold withType
  rw [same]

def packagesPart : Part Draft Packages := fun draft =>
  .ok (draft.packages, fun packages => { draft with packages })

def typePart (name : QName) : Part Draft TypeDef := fun draft =>
  match draft.types[name]? with
  | some t => .ok (t, draft.withType name)
  | none => .error (.typeNotFound name)

def workspacePart (ws : QName) : Part Draft Workspace := fun draft =>
  match draft.types[ws]? with
  | some owner =>
    match owner.workspace? with
    | some home => .ok (home, fun home => draft.withType ws { owner with body := .workspace home })
    | none => .error (.unexpectedType owner.ref .workspace)
  | none => .error (.workspaceNotFound ws)

theorem packagesPart_faithful : packagesPart.Faithful := by
  intro draft packages put located
  cases located
  rfl

theorem typePart_faithful : (typePart name).Faithful := by
  intro draft t put located
  unfold typePart at located
  cases found : draft.types[name]? with
  | none =>
      rw [found] at located
      cases located
  | some t =>
      rw [found] at located
      cases located
      exact withType_self found

end Draft

/-- To put the storages of a side where they are changes nothing. -/
theorem StorageUse.set_get (use : StorageUse) (side : StorageSide) :
    use.set side (use.get side) = use := by
  cases side <;> rfl

namespace TypeDef

def viewPart (name : QName) : Part TypeDef View := fun t =>
  match t.body with
  | .view view => .ok (view, fun view => { t with body := .view view })
  | _ => .error (.viewExpected name)

def storagesPart (side : StorageSide) : Part TypeDef Storages := fun t =>
  match t.body with
  | .function f => .ok (f.storages.get side, fun storages =>
      { t with body := .function { f with storages := f.storages.set side storages } })
  | .projector p => .ok (p.storages.get side, fun storages =>
      { t with body := .projector { p with storages := p.storages.set side storages } })
  | .job j => .ok (j.storages.get side, fun storages =>
      { t with body := .job { j with storages := j.storages.set side storages } })
  | _ => .error (.unexpectedType t.ref .extension)

theorem viewPart_faithful {name : QName} : (viewPart name).Faithful := by
  intro t view put located
  unfold viewPart at located
  cases body : t.body <;> simp only [body, reduceCtorEq] at located
  cases located
  dsimp only
  rw [← body]

theorem storagesPart_faithful {side : StorageSide} : (storagesPart side).Faithful := by
  intro t storages put located
  unfold storagesPart at located
  cases body : t.body <;> simp only [body, reduceCtorEq] at located
  all_goals
    cases located
    simp only [StorageUse.set_get, ← body]

end TypeDef

namespace Build

variable {name : QName}

theorem updateType_eq_onPart (change : TypeDef → Except DefinitionError TypeDef) :
    updateType name change = InPlace.onPart (Draft.typePart name) (.replace change) := by
  rw [InPlace.onPart_replace Draft.typePart_faithful]
  funext draft
  unfold updateType Draft.typePart
  rw [run_get]
  unfold InPlace.replace
  cases found : draft.types[name]? with
  | none => simp only [found]; rfl
  | some t =>
      simp only [found]
      rw [InPlace.ok_bind]
      cases change t <;> rfl

theorem updateView_eq_onPart (change : View → Except DefinitionError View) :
    updateView name change =
      InPlace.onPart (Draft.typePart name)
        (.onPart (TypeDef.viewPart name) (.replace change)) := by
  rw [InPlace.onPart_replace TypeDef.viewPart_faithful, ← updateType_eq_onPart]
  unfold updateView TypeDef.viewPart
  congr 1
  funext t
  cases t.body <;> rfl

theorem updateStorages_eq_onPart {side : StorageSide}
    (change : Storages → Except DefinitionError Storages) :
    updateStorages name side change =
      InPlace.onPart (Draft.typePart name)
        (.onPart (TypeDef.storagesPart side) (.replace change)) := by
  rw [InPlace.onPart_replace TypeDef.storagesPart_faithful, ← updateType_eq_onPart]
  unfold updateStorages TypeDef.storagesPart
  congr 1
  funext t
  cases t.body <;> rfl

theorem updateWorkspace_eq_onPart (change : Workspace → Workspace) :
    updateWorkspace name change = InPlace.onPart (Draft.workspacePart name) (modify change) := by
  funext draft
  unfold updateWorkspace InPlace.onPart Draft.workspacePart
  rw [run_get]
  unfold Draft.findWorkspace
  cases found : draft.types[name]? with
  | none => rfl
  | some owner =>
      dsimp only
      cases home : owner.workspace? with
      | none => rfl
      | some home => exact updateType_run found rfl

/-! ## Edits in place -/

def addViewFieldInPlace (name : QName) (part : ViewPart) (field : Field) : Build Unit := do
  let config := (← get).config
  InPlace.onPart (Draft.typePart name)
    (.onPart (TypeDef.viewPart name) (View.addFieldInPlace part field config))

def addStorageInPlace (name : QName) (side : StorageSide) (storage : QName) (names : List QName) :
    Build Unit := do
  let limit := (← get).config.maxIdentLen
  InPlace.onPart (Draft.typePart name)
    (.onPart (TypeDef.storagesPart side) (Storages.addInPlace limit storage names))

def addPackageInPlace (pkg path : String) : Build Unit := do
  let limit := (← get).config.maxIdentLen
  InPlace.onPart Draft.packagesPart (Packages.addInPlace limit pkg path)

def useWorkspacesInPlace (ws : QName) (used : List QName) : Build Unit := do
  let draft ← get
  let _ ← draft.findWorkspace ws
  draft.checkWorkspaces used
  InPlace.onPart (Draft.workspacePart ws) (Workspace.useInPlace used)

theorem addViewFieldInPlace_eq (part : ViewPart) (field : Field) :
    addViewFieldInPlace name part field = addViewField name part field := by
  unfold addViewFieldInPlace addViewField
  simp only [View.addFieldInPlace_eq, updateView_eq_onPart]

theorem addStorageInPlace_eq (side : StorageSide) (storage : QName) (names : List QName) :
    addStorageInPlace name side storage names =
      (TypeEdit.addStorage side storage names).run name := by
  unfold addStorageInPlace TypeEdit.run
  simp only [Storages.addInPlace_eq, updateStorages_eq_onPart]

theorem addPackageInPlace_eq (pkg path : String) :
    addPackageInPlace pkg path = addPackage pkg path := by
  unfold addPackageInPlace addPackage
  simp only [Packages.addInPlace_eq, InPlace.onPart_replace Draft.packagesPart_faithful]
  funext draft
  rw [run_get, run_get]
  unfold InPlace.replace Draft.packagesPart
  dsimp only
  rw [InPlace.ok_bind]
  cases draft.packages.add draft.config.maxIdentLen pkg path <;> rfl

theorem useWorkspacesInPlace_eq (ws : QName) (used : List QName) :
    useWorkspacesInPlace ws used = useWorkspaces ws used := by
  unfold useWorkspacesInPlace useWorkspaces
  simp only [Workspace.useInPlace_eq, updateWorkspace_eq_onPart]

end Build

/-- An edit of a type, with its changes in the order in which they are made. -/
def TypeEdit.inPlace (name : QName) : TypeEdit → Build Unit
  | addPartitionField field kind =>
    Build.addViewFieldInPlace name .partition (.ofKind field kind true)
  | addClusteringField field kind =>
    Build.addViewFieldInPlace name .clustering (.ofKind field kind false)
  | addValueField field kind required =>
    Build.addViewFieldInPlace name .value (.ofKind field kind required)
  | addValueRefField field required targets =>
    Build.addViewFieldInPlace name .value (.reference field required targets)
  | addStorage side storage names => Build.addStorageInPlace name side storage names
  | edit => edit.run name

/-- An edit of a workspace, with its changes in the order in which they are made. -/
def WorkspaceEdit.inPlace (ws : QName) : WorkspaceEdit → Build Unit
  | amend name edit => do
    Build.checkDeclaredIn (← get) ws name
    edit.inPlace name
  | useWorkspaces used => Build.useWorkspacesInPlace ws used
  | edit => edit.run ws

/-- An edit, with its changes in the order in which they are made. -/
def Edit.inPlace : Edit → Build Unit
  | addPackage pkg path => Build.addPackageInPlace pkg path
  | within ws edit => do
    let _ ← (← get).findWorkspace ws
    edit.inPlace ws
  | edit => edit.run

theorem TypeEdit.inPlace_eq_run (name : QName) (edit : TypeEdit) :
    edit.inPlace name = edit.run name := by
  cases edit with
  | addPartitionField _ _ | addClusteringField _ _ | addValueField _ _ _ | addValueRefField _ _ _ =>
      exact Build.addViewFieldInPlace_eq _ _
  | addStorage side storage names => exact Build.addStorageInPlace_eq side storage names
  | _ => rfl

theorem WorkspaceEdit.inPlace_eq_run (ws : QName) (edit : WorkspaceEdit) :
    edit.inPlace ws = edit.run ws := by
  cases edit with
  | amend name edit =>
      unfold WorkspaceEdit.inPlace WorkspaceEdit.run
      simp only [TypeEdit.inPlace_eq_run]
  | useWorkspaces used => exact Build.useWorkspacesInPlace_eq ws used
  | _ => rfl

theorem Edit.inPlace_eq_run (edit : Edit) : edit.inPlace = edit.run := by
  cases edit with
  | addPackage pkg path => exact Build.addPackageInPlace_eq pkg path
  | within ws edit =>
      unfold Edit.inPlace Edit.run
      simp only [WorkspaceEdit.inPlace_eq_run]
  | _ => rfl

/-! ## What an edit is refused for -/

namespace Build

variable {draft : Draft} {ws : QName} {β : Type}

theorem succeeds_check_iff {check : Except DefinitionError β} {next : β → Build Unit} :
    InPlace.Succeeds (liftM check >>= next) draft ↔
      ∃ b, check = .ok b ∧ InPlace.Succeeds (next b) draft := by
  cases check with
  | ok b =>
      constructor
      · intro runs
        exact ⟨b, rfl, runs⟩
      · intro holds
        obtain ⟨_, same, runs⟩ := holds
        cases same
        exact runs
  | error error =>
      refine iff_of_false (InPlace.not_succeeds_of_eq_error rfl) fun holds => ?_
      obtain ⟨_, same, _⟩ := holds
      cases same

theorem succeeds_unless_iff {refused : Prop} [Decidable refused] {error : DefinitionError}
    {next : Unit → Build Unit} :
    InPlace.Succeeds (if refused then throw error >>= next else next ()) draft ↔
      ¬ refused ∧ InPlace.Succeeds (next ()) draft := by
  by_cases condition : refused
  · rw [if_pos condition]
    exact iff_of_false (InPlace.not_succeeds_of_eq_error rfl) fun holds => holds.1 condition
  · rw [if_neg condition]
    exact ⟨fun runs => ⟨condition, runs⟩, And.right⟩

theorem updateWorkspace_run {owner : TypeDef} {home : Workspace}
    (found : draft.types[ws]? = some owner) (body : owner.body = .workspace home)
    (change : Workspace → Workspace) :
    updateWorkspace ws change draft =
      .ok () (draft.withType ws { owner with body := .workspace (change home) }) := by
  have opened : draft.findWorkspace ws = .ok home := Draft.findWorkspace_eq_ok_iff.mpr
    ⟨owner, found, body⟩
  unfold updateWorkspace
  rw [run_get, run_check opened]
  exact updateType_run found rfl

/-- A workspace can be described by the configuration documents that it declares.  Nothing is
checked once it has the descriptor. -/
theorem setDescriptor_succeeds_iff {descriptor : QName} :
    InPlace.Succeeds (setDescriptor ws descriptor) draft ↔
      ∃ home, draft.findWorkspace ws = .ok home ∧ home.locals.contains descriptor = true ∧
        (draft.types.resolve descriptor).kind = .cDoc := by
  unfold setDescriptor
  change InPlace.Succeeds (liftM (draft.findWorkspace ws) >>= _) draft ↔ _
  rw [succeeds_check_iff]
  refine exists_congr fun home => and_congr_right fun opened => ?_
  obtain ⟨owner, found, body⟩ := Draft.findWorkspace_eq_ok_iff.mp opened
  rw [succeeds_unless_iff, succeeds_unless_iff, Bool.not_eq_true', Bool.not_eq_false,
    Decidable.not_not]
  refine and_congr_right fun _ => and_iff_left ?_
  have described := updateWorkspace_run found body fun home =>
    { home with descriptor := some descriptor }
  unfold InPlace.Succeeds
  change ∃ after, EStateM.bind _ _ draft = .ok () after
  unfold EStateM.bind
  rw [described]
  cases (draft.types.resolve descriptor).isAbstract with
  | false => exact ⟨_, rfl⟩
  | true => exact ⟨_, updateType_run (Draft.withType_getElem?_self ..) rfl⟩

theorem checkWorkspaces_eq_ok_iff {names : List QName} :
    draft.checkWorkspaces names = .ok () ↔
      ∀ name ∈ names, ∃ home, draft.findWorkspace name = .ok home := by
  induction names with
  | nil => simp [Draft.checkWorkspaces]
  | cons name rest ih =>
      unfold Draft.checkWorkspaces
      rw [Check.bind_eq_ok_iff, List.forall_mem_cons, ← ih, exists_and_right]

/-- Any workspaces can be used.  They are all looked for before the first of them is entered. -/
theorem useWorkspacesInPlace_succeeds_iff {used : List QName} :
    InPlace.Succeeds (useWorkspacesInPlace ws used) draft ↔
      (∃ home, draft.findWorkspace ws = .ok home) ∧
        ∀ name ∈ used, ∃ home, draft.findWorkspace name = .ok home := by
  unfold useWorkspacesInPlace
  change InPlace.Succeeds (liftM (draft.findWorkspace ws) >>= _) draft ↔ _
  rw [succeeds_check_iff, ← checkWorkspaces_eq_ok_iff, ← exists_and_right]
  refine exists_congr fun home => and_congr_right fun opened => ?_
  obtain ⟨owner, found, body⟩ := Draft.findWorkspace_eq_ok_iff.mp opened
  rw [succeeds_check_iff]
  constructor
  · intro holds
    exact holds.choose_spec.1
  · intro passed
    refine ⟨(), passed, ?_⟩
    rw [Workspace.useInPlace_eq, ← updateWorkspace_eq_onPart]
    exact ⟨_, updateWorkspace_run found body _⟩

end Build

/-! ## Refused edits -/

namespace Draft

variable {draft after : Draft}

theorem eq_of_inPlace_eq_error {edit : Edit} {error : DefinitionError}
    (refused : edit.inPlace draft = .error error after) : after = draft := by
  rw [edit.inPlace_eq_run] at refused
  have yields : Build.Yields edit.run draft _ := edit.run_yields
  unfold Build.Yields at yields
  rw [refused] at yields
  exact yields

/-- A change of a structure takes no name, so that a name that was free before it can be bound
after it. -/
theorem bindUnique_succeeds {name unique : QName}
    {change : TypeKind → Structure → Except DefinitionError Structure}
    (free : draft.isBound unique = false) (valid : unique.check draft.config.maxIdentLen = .ok ())
    (appended : Build.updateStructure name change draft = .ok () after) :
    InPlace.Succeeds (Build.bindUnique unique name) after := by
  cases found : draft.types[name]? with
  | none =>
      unfold Build.updateStructure Build.updateType at appended
      rw [Build.run_get, found] at appended
      cases appended
  | some t =>
      have yields : Build.Yields (Build.updateStructure name change) draft
          fun _ after => ∃ changed, after = draft.withType name changed :=
        Build.updateStructure_yields found fun s changed _ _ => ⟨_, rfl⟩
      unfold Build.Yields at yields
      rw [appended] at yields
      obtain ⟨changed, rfl⟩ := yields
      exact ⟨_, Build.bindUnique_run valid ((isBound_withType found changed unique).trans free)⟩

/-- An edit that is refused leaves no trace, whatever it changes and in whatever order.  It does so
because nothing can fail any more once something has changed: a unique that was appended to a
structure can be bound, and a descriptor, the workspaces in use and a storage are set as soon as the
checks of the value as it was have passed. -/
theorem refused_edits_leave_no_trace (draft : Draft) :
    (∀ edit : Edit, edit.inPlace draft = edit.run draft) ∧
    (∀ (edit : Edit) (error : DefinitionError) (after : Draft),
      edit.inPlace draft = .error error after → after = draft) ∧
    (∀ (name unique : QName) (fields : List String) (appended : Draft),
      draft.isBound unique = false → unique.check draft.config.maxIdentLen = .ok () →
      Build.updateStructure name (fun _ s => s.addUnique unique fields draft.config) draft =
        .ok () appended →
      InPlace.Succeeds (Build.bindUnique unique name) appended) ∧
    (∀ ws descriptor : QName, InPlace.Succeeds (Build.setDescriptor ws descriptor) draft ↔
      ∃ home, draft.findWorkspace ws = .ok home ∧ home.locals.contains descriptor = true ∧
        (draft.types.resolve descriptor).kind = .cDoc) ∧
    (∀ (ws : QName) (used : List QName),
      InPlace.Succeeds (Build.useWorkspacesInPlace ws used) draft ↔
        (∃ home, draft.findWorkspace ws = .ok home) ∧
          ∀ name ∈ used, ∃ home, draft.findWorkspace name = .ok home) ∧
    ∀ (storages : Storages) (limit : Nat) (storage : QName) (names : List QName),
      InPlace.Succeeds (Storages.addInPlace limit storage names) storages ↔
        storage.check limit = .ok () ∧ ∀ name ∈ names, name.check limit = .ok () := by
  exact ⟨fun edit => by rw [edit.inPlace_eq_run], fun edit error after => eq_of_inPlace_eq_error,
    fun name unique fields appended => bindUnique_succeeds,
    fun ws descriptor => Build.setDescriptor_succeeds_iff,
    fun ws used => Build.useWorkspacesInPlace_succeeds_iff,
    fun storages limit storage names => Storages.addInPlace_succeeds_iff⟩

/-- Readers are a role of the library, so that no unique of books can have their name, and they
describe no workspace.  To use a workspace and one that is not there is to use neither.  And no
state of anything can be named by what starts with a digit. -/
theorem refused_edits_leave_no_trace_library :
    (∃ error, (Edit.within (Library.name "base") (.amend (Library.name "book")
      (.addUnique (Library.name "reader") ["title"]))).inPlace Library.draft =
        .error error Library.draft) ∧
    (∃ error, (Edit.within (Library.name "base")
      (.setDescriptor (Library.name "reader"))).inPlace Library.draft =
        .error error Library.draft) ∧
    ¬ InPlace.Succeeds (Build.setDescriptor (Library.name "base") (Library.name "reader"))
      Library.draft ∧
    (∃ error, (Edit.within (Library.name "base")
      (.useWorkspaces [Library.name "app", Library.name "nowhere"])).inPlace Library.draft =
        .error error Library.draft) ∧
    ∀ storages : Storages, ¬ InPlace.Succeeds
      (Storages.addInPlace 255 (Library.name "loans") [Library.name "1st"]) storages := by
  have leaves : ∀ edit : Edit, (EStateM.run' edit.inPlace Library.draft).isNone = true →
      ∃ error, edit.inPlace Library.draft = .error error Library.draft := by
    intro edit refused
    obtain ⟨error, after, failed⟩ :=
      InPlace.exists_eq_error_of_run' (Option.isNone_iff_eq_none.mp refused)
    have same := (refused_edits_leave_no_trace Library.draft).2.1 edit error after failed
    rw [same] at failed
    exact ⟨error, failed⟩
  obtain ⟨_, _, _, descriptors, _, named⟩ := refused_edits_leave_no_trace Library.draft
  refine ⟨leaves _ (by decide +kernel), leaves _ (by decide +kernel), fun set => ?_,
    leaves _ (by decide +kernel), fun storages added => ?_⟩
  · obtain ⟨_, _, _, isDoc⟩ := (descriptors _ _).mp set
    revert isDoc
    decide +kernel
  · have valid := Check.isOk_iff.mpr (((named _ _ _ _).mp added).2 _ (List.mem_singleton_self _))
    revert valid
    decide +kernel

end Draft

end TypeCatalog
