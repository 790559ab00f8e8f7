import TypeCatalog.Proofs.BuiltCatalog
import TypeCatalog.Proofs.Draft.Growth
import TypeCatalog.Proofs.Draft.Validation
import TypeCatalog.Proofs.Workspace.Ownership

/-!
# Descriptors of workspaces

A workspace may be described by a configuration document, which a later edit may replace by
another one.  A catalog finds workspaces by these documents in a table that would keep only one of
two workspaces with the same document.  There are no such two, since a workspace is described by a
document that it declares, and only one workspace declares it.

* `Draft.descriptor?_apply`: edits that are accepted and say what describes a workspace are all
  that descriptors come from.
* `Draft.Reachable.owner?_of_descriptor?`: a workspace declares what describes it.
* `TypeTable.getElem?_describedBy`: the table finds the workspaces that documents describe.
* `Draft.build_described`: what all this means for catalogs.
-/

namespace TypeCatalog

/-- The name of the document that describes a workspace. -/
def TypeTable.descriptor? (types : TypeTable) (ws : QName) : Option QName :=
  (types.workspace? ws).bind Workspace.descriptor

/-! ## What edits say of descriptors -/

/-- The descriptors of workspaces after an edit of a workspace that is accepted. -/
def WorkspaceEdit.describe (ws : QName) (edit : WorkspaceEdit) (former : QName → Option QName) :
    QName → Option QName :=
  match edit with
  | setDescriptor document => Function.update former ws (some document)
  | _ => former

/-- The descriptors of workspaces after an edit that is accepted. -/
def Edit.describe (edit : Edit) (former : QName → Option QName) : QName → Option QName :=
  match edit with
  | within ws edit => edit.describe ws former
  | _ => former

/-- What describes a workspace did so before, or the edit says so. -/
theorem Edit.eq_some_of_describe {edit : Edit} {former : QName → Option QName} {ws document : QName}
    (described : edit.describe former ws = some document) :
    former ws = some document ∨ edit = .within ws (.setDescriptor document) := by
  cases edit with
  | within target change =>
      cases change with
      | setDescriptor other =>
          change Function.update former target (some other) ws = some document at described
          rw [Function.update_apply] at described
          split at described
          next same =>
            cases described
            exact .inr (same ▸ rfl)
          next => exact .inl described
      | _ => exact .inl described
  | _ => exact .inl described

/-- The descriptors of workspaces after several edits, of which those that are refused do not
count: each workspace has the one that it was given last. -/
def Draft.describeAll (draft : Draft) (former : QName → Option QName) :
    List Edit → QName → Option QName
  | [] => former
  | edit :: rest =>
    (draft.apply edit).2.describeAll
      (if (draft.apply edit).1.isOk then edit.describe former else former) rest

namespace TypeTable

variable {types after : TypeTable} {ws name : QName} {home : Workspace}

theorem descriptor?_eq_some_iff :
    types.descriptor? ws = some name ↔
      ∃ home, types.workspace? ws = some home ∧ home.descriptor = some name :=
  Option.bind_eq_some_iff

theorem descriptor?_eq_of_workspace? (same : after.workspace? = types.workspace?) :
    after.descriptor? = types.descriptor? := by
  unfold descriptor?
  rw [same]

end TypeTable

namespace Draft

variable {draft : Draft} {name ws : QName} {t changed owner : TypeDef} {home later : Workspace}

/-! ## Descriptors in a changed draft -/

theorem descriptor?_withType (draft : Draft) (name : QName) (t : TypeDef) :
    (draft.withType name t).types.descriptor? =
      Function.update draft.types.descriptor? name (t.workspace?.bind Workspace.descriptor) :=
  read_withType (fun found => (found.bind TypeDef.workspace?).bind Workspace.descriptor)
    draft name t

/-- A workspace that is put into the table brings its descriptor. -/
theorem descriptor?_withType_of_body (becomes : changed.body = .workspace later) :
    (draft.withType ws changed).types.descriptor? =
      Function.update draft.types.descriptor? ws later.descriptor := by
  rw [descriptor?_withType, TypeDef.workspace?_eq_some_iff.mpr becomes, Option.bind_some]

theorem descriptor?_withType_of_same (found : draft.types[ws]? = some owner)
    (isWorkspace : owner.body = .workspace home) (becomes : changed.body = .workspace later)
    (same : later.descriptor = home.descriptor) :
    (draft.withType ws changed).types.descriptor? = draft.types.descriptor? := by
  have former : draft.types.descriptor? ws = home.descriptor := by
    unfold TypeTable.descriptor?
    rw [workspace?_eq_some_of_body found isWorkspace, Option.bind_some]
  rw [descriptor?_withType_of_body becomes, same, ← former, Function.update_eq_self]

/-- A new type is no workspace that is described. -/
theorem descriptor?_withType_of_free (free : draft.isBound name = false)
    (bare : t.workspace?.bind Workspace.descriptor = none) :
    (draft.withType name t).types.descriptor? = draft.types.descriptor? := by
  have former : draft.types.descriptor? name = none := by
    unfold TypeTable.descriptor?
    rw [TypeTable.workspace?_eq_none (getElem?_eq_none_of_isBound free).2, Option.bind_none]
  rw [descriptor?_withType, bare, ← former, Function.update_eq_self]

/-! ## Edits -/

/-- Of the edits of a workspace only one says what describes it. -/
theorem run_within_describes {edit : WorkspaceEdit} (opened : draft.findWorkspace ws = .ok home) :
    Build.Yields (edit.run ws) draft fun _ after =>
      after.types.descriptor? = edit.describe ws draft.types.descriptor? := by
  obtain ⟨owner, foundOwner, isHome⟩ := findWorkspace_eq_ok_iff.mp opened
  cases edit with
  | declare name declaration =>
      refine Build.declare_yields fun kind body owner home valid free made found isWorkspace => ?_
      have bare : TypeDef.workspace? { name, kind, workspace := ws, body } = none :=
        workspace?_eq_none_of_bodyOf made rfl
      have listed : (draft.withType ws { owner with
          body := .workspace (home.addLocal name) }).types.descriptor? = draft.types.descriptor? :=
        descriptor?_withType_of_same found isWorkspace rfl rfl
      rw [descriptor?_withType_of_free ((isBound_withType found _ name).trans free)
        (by rw [bare, Option.bind_none]), listed]
      rfl
  | amend name edit =>
      refine Build.amend_yields fun t found _ _ => ?_
      refine edit.run_yields found (fun changed step => ?_) fun _ _ s changed body _ _ _ => ?_
      · exact TypeTable.descriptor?_eq_of_workspace?
          (workspace?_withType_of_same found step.workspace?_eq)
      · refine TypeTable.descriptor?_eq_of_workspace? (workspace?_withType_of_same found ?_)
        unfold TypeDef.workspace?
        rw [body]
  | setAncestors ancestors =>
      exact Build.setAncestors_yields fun _ _ _ found isWorkspace _ _ =>
        descriptor?_withType_of_same found isWorkspace rfl rfl
  | useWorkspaces used =>
      refine Build.useWorkspaces_yields fun _ home found isWorkspace _ => ?_
      obtain ⟨_, more, _⟩ := home.foldl_addUsed_eq used
      exact descriptor?_withType_of_same found isWorkspace rfl (by rw [more])
  | setDescriptor descriptor =>
      refine Build.setDescriptor_yields fun _ _ _ _ _ _ => ?_
      rw [descriptor?_withType_of_body rfl]
      rfl
  | setAbstract | setComment _ =>
      refine Build.updateType_yields foundOwner fun changed made => ?_
      cases made
      exact descriptor?_withType_of_same foundOwner isHome isHome rfl
  | addRule policy operations selector fields principal comment =>
      exact Build.addRule_yields fun _ _ => rfl
  | addBlanketRule policy selector principal comment =>
      exact Build.addBlanketRule_yields fun _ _ => rfl

theorem run_describes (edit : Edit) :
    Build.Yields edit.run draft fun _ after =>
      after.types.descriptor? = edit.describe draft.types.descriptor? := by
  cases edit with
  | within ws change =>
      refine Build.yields_get ?_
      refine Build.yields_check fun home opened => ?_
      exact run_within_describes opened
  | addPackage _ _ | addWorkspace _ | openWorkspace _ | setTypeComment _ _ =>
      refine Edit.run_yields_of _ rfl (fun _ => rfl) (fun _ _ free => ?_) (fun isWithin => ?_)
        fun _ found => ?_
      · exact descriptor?_withType_of_free free rfl
      · cases isWithin
      · exact TypeTable.descriptor?_eq_of_workspace? (workspace?_withType_of_same found rfl)

/-- What describes workspaces is changed by accepted edits only. -/
theorem descriptor?_apply (draft : Draft) (edit : Edit) :
    (draft.apply edit).2.types.descriptor? =
      if (draft.apply edit).1.isOk then edit.describe draft.types.descriptor?
      else draft.types.descriptor? := by
  by_cases passed : (draft.apply edit).1 = .ok ()
  · rw [if_pos (Check.isOk_iff.mpr passed)]
    exact of_apply_eq_ok (run_describes edit) passed
  · rw [if_neg fun isOk => passed (Check.isOk_iff.mp isOk), apply_eq_of_refused passed]

/-- After a run every workspace is described by what the run gave it last. -/
theorem descriptor?_applyAll (draft : Draft) (edits : List Edit) :
    (draft.applyAll edits).types.descriptor? =
      draft.describeAll draft.types.descriptor? edits := by
  induction edits generalizing draft with
  | nil => rfl
  | cons edit rest ih =>
      change ((draft.apply edit).2.applyAll rest).types.descriptor? = _
      rw [ih, descriptor?_apply]
      rfl

/-! ## Documents that describe -/

theorem descriptor?_initial (config : Config) :
    (initial config).types.descriptor? = fun _ => none := by
  funext ws
  refine Option.eq_none_iff_forall_ne_some.mpr fun document described => ?_
  obtain ⟨home, isWorkspace, has⟩ := TypeTable.descriptor?_eq_some_iff.mp described
  obtain ⟨_, isRoot⟩ := workspace?_initial_iff.mp isWorkspace
  cases isRoot
  cases has

theorem owner?_apply (owned : draft.types.owner? name = some ws) (edit : Edit) :
    (draft.apply edit).2.types.owner? name = some ws := by
  obtain ⟨t, found, rfl⟩ := TypeTable.owner?_eq_some_iff.mp owned
  obtain ⟨u, foundU, kept⟩ :=
    (Extends.of_eq_or_step (draft.apply_eq_or_step edit)).types name t found
  exact TypeTable.owner?_eq_some_iff.mpr ⟨u, foundU, kept.workspace⟩

/-- Where a document is set as a descriptor, the workspace declares it. -/
theorem Reachable.owner?_of_described (reached : draft.Reachable) {document : QName}
    (passed : (draft.apply (.within ws (.setDescriptor document))).1 = .ok ()) :
    draft.types.owner? document = some ws := by
  have yields : Build.Yields (Edit.within ws (.setDescriptor document)).run draft
      fun _ _ => draft.types.owner? document = some ws := by
    refine Build.yields_get (Build.yields_check fun _ _ => ?_)
    refine Build.setDescriptor_yields fun _ home found isWorkspace listed _ => ?_
    refine reached.owned.listed.mp (TypeTable.mem_localNames_iff.mpr ⟨home, ?_, ?_⟩)
    · exact workspace?_eq_some_of_body found isWorkspace
    · exact Std.ExtTreeSet.contains_iff_mem.mp listed
  exact of_apply_eq_ok yields passed

/-- A workspace declares the document that describes it. -/
theorem Reachable.owner?_of_descriptor? (reached : draft.Reachable) :
    ∀ ws document, draft.types.descriptor? ws = some document →
      draft.types.owner? document = some ws := by
  induction reached with
  | initial config =>
      intro ws document described
      rw [descriptor?_initial] at described
      cases described
  | @apply before edit reached ih =>
      intro ws document described
      refine owner?_apply ?_ edit
      rw [descriptor?_apply] at described
      split at described
      next passed =>
        rcases Edit.eq_some_of_describe described with former | rfl
        · exact ih ws document former
        · exact reached.owner?_of_described (Check.isOk_iff.mp passed)
      next => exact ih ws document described

/-- Two workspaces are not described by one document. -/
theorem Reachable.descriptor?_inj (reached : draft.Reachable) {other document : QName}
    (described : draft.types.descriptor? ws = some document)
    (alsoDescribed : draft.types.descriptor? other = some document) : ws = other := by
  have owned := reached.owner?_of_descriptor? ws document described
  rw [reached.owner?_of_descriptor? other document alsoDescribed, Option.some_inj] at owned
  exact owned.symm

end Draft

/-! ## The table of documents -/

/-- If two workspaces are not described by one document, documents lead to what they describe. -/
theorem TypeTable.getElem?_describedBy {types : TypeTable} {ws document : QName}
    (unshared : ∀ {ws other document : QName}, types.descriptor? ws = some document →
      types.descriptor? other = some document → ws = other) :
    types.describedBy[document]? = some ws ↔ types.descriptor? ws = some document := by
  unfold describedBy
  rw [getElem?_ofList_eq_some_iff, List.mem_filterMap, descriptor?_eq_some_iff]
  · constructor
    · intro holds
      obtain ⟨⟨name, home⟩, listed, made⟩ := holds
      obtain ⟨_, has, same⟩ := Option.map_eq_some_iff.mp made
      cases same
      exact ⟨home, mem_workspaces_iff.mp listed, has⟩
    · intro holds
      obtain ⟨home, isWorkspace, has⟩ := holds
      exact ⟨(ws, home), mem_workspaces_iff.mpr isWorkspace, by simp [has]⟩
  · -- No entry of the table takes the place of another.
    have apart := List.pairwise_map.mp types.nodup_keys_workspaces
    refine List.pairwise_map.mpr (List.pairwise_filterMap.mpr ?_)
    refine apart.imp_of_mem fun {x y} memX memY ne b entryB c entryC same => ne ?_
    obtain ⟨d, descriptorX, rfl⟩ := Option.map_eq_some_iff.mp entryB
    obtain ⟨e, descriptorY, rfl⟩ := Option.map_eq_some_iff.mp entryC
    cases same
    exact unshared (descriptor?_eq_some_iff.mpr ⟨_, mem_workspaces_iff.mp memX, descriptorX⟩)
      (descriptor?_eq_some_iff.mpr ⟨_, mem_workspaces_iff.mp memY, descriptorY⟩)

/-! ## Catalogs -/

namespace Draft

variable {draft : Draft} {name document : QName} {ws : WorkspaceView}

namespace Reachable

variable (reached : draft.Reachable)
include reached

theorem descriptor_of_viewed (viewed : draft.freeze.workspace? name = some ws) :
    ws.body.descriptor = draft.types.descriptor? name := by
  obtain ⟨_, _, isHome⟩ := reached.workspace?_of_viewed viewed
  unfold TypeTable.descriptor?
  rw [isHome, Option.bind_some]

/-- Of documents the catalog finds what they describe. -/
theorem workspaceDescribedBy?_freeze :
    draft.freeze.workspaceDescribedBy? document = some ws ↔
      draft.freeze.workspace? ws.name = some ws ∧ ws.body.descriptor = some document := by
  have table : ∀ {name : QName}, draft.freeze.described[document]? = some name ↔
      draft.types.descriptor? name = some document :=
    TypeTable.getElem?_describedBy reached.descriptor?_inj
  unfold Catalog.workspaceDescribedBy?
  rw [Option.bind_eq_some_iff]
  constructor
  · intro holds
    obtain ⟨name, stored, viewed⟩ := holds
    have named := (reached.workspace?_of_viewed viewed).2.1
    rw [named, reached.descriptor_of_viewed viewed]
    exact ⟨viewed, table.mp stored⟩
  · intro holds
    obtain ⟨viewed, has⟩ := holds
    rw [reached.descriptor_of_viewed viewed] at has
    exact ⟨ws.name, table.mpr has, viewed⟩

/-- Validation has looked at the document that describes a workspace. -/
theorem descriptor_freeze (clean : draft.findings = [])
    (viewed : draft.freeze.workspace? name = some ws)
    (described : ws.body.descriptor = some document) :
    ∃ found, ws.descriptor? = some found ∧ draft.freeze.types[document]? = some found ∧
      found.kind = .cDoc ∧ found.workspace = name ∧ found ∈ ws.locals ∧
      (found.isAbstract = true → ws.type.isAbstract = true) := by
  have has := (reached.descriptor_of_viewed viewed).symm.trans described
  have owned := reached.owner?_of_descriptor? name document has
  obtain ⟨owner, home, found, isWorkspace, rfl⟩ := Catalog.workspace?_eq_some_iff.mp viewed
  rw [reached.getElem?_freeze] at found
  have inOrder := ((findings_eq_nil_iff.mp clean).types name owner found).body
  unfold TypeTable.BodyValid at inOrder
  rw [TypeDef.workspace?_eq_some_iff.mp isWorkspace] at inOrder
  obtain ⟨t, resolved, isDocument, abstractOnly⟩ := inOrder document described
  obtain ⟨t', foundT, declared⟩ := TypeTable.owner?_eq_some_iff.mp owned
  have same : t = t' := by
    unfold TypeTable.resolve? at resolved
    split at resolved
    next =>
      cases resolved
      cases isDocument
    next =>
      rw [resolved] at foundT
      exact Option.some_inj.mp foundT
  subst same
  have inCatalog := (reached.getElem?_freeze document).trans foundT
  have isHome : draft.types.workspace? name = some home :=
    TypeTable.workspace?_eq_some_iff.mpr ⟨owner, found, isWorkspace⟩
  have listed : document ∈ home.locals := by
    have among := reached.owned.listed.mpr owned
    rw [TypeTable.mem_localNames_iff, isHome] at among
    obtain ⟨_, same, listed⟩ := among
    cases same
    exact listed
  refine ⟨t, ?_, inCatalog, isDocument, declared, ?_, abstractOnly⟩
  · exact Option.bind_eq_some_iff.mpr ⟨document, described, inCatalog⟩
  · exact List.mem_filterMap.mpr ⟨document, Std.ExtTreeSet.mem_toList.mpr listed, inCatalog⟩

end Reachable

/-- Whatever edits led to it, in a catalog every workspace has the descriptor that it was given
last; a document finds the workspace that it describes and no other; no two workspaces have the
same one; and it is a configuration document that the workspace declares, abstract only where the
workspace is. -/
theorem build_described (config : Config) (edits : List Edit) {catalog : Catalog}
    (made : ((initial config).applyAll edits).build = .ok catalog) :
    (∀ name ws, catalog.workspace? name = some ws →
      ws.body.descriptor = (initial config).describeAll (fun _ => none) edits name) ∧
    (∀ document ws, catalog.workspaceDescribedBy? document = some ws ↔
      catalog.workspace? ws.name = some ws ∧ ws.body.descriptor = some document) ∧
    (∀ name other ws ws' document, catalog.workspace? name = some ws →
      catalog.workspace? other = some ws' → ws.body.descriptor = some document →
      ws'.body.descriptor = some document → name = other) ∧
    ∀ name ws document, catalog.workspace? name = some ws → ws.body.descriptor = some document →
      ∃ found, ws.descriptor? = some found ∧ catalog.types[document]? = some found ∧
        found.kind = .cDoc ∧ found.workspace = name ∧ found ∈ ws.locals ∧
        (found.isAbstract = true → ws.type.isAbstract = true) := by
  have reached := (Reachable.initial config).applyAll edits
  obtain ⟨clean, rfl⟩ := build_eq_ok_iff.mp made
  refine ⟨fun name ws viewed => ?_, fun _ _ => reached.workspaceDescribedBy?_freeze, ?_,
    fun _ _ _ viewed described => reached.descriptor_freeze clean viewed described⟩
  · rw [reached.descriptor_of_viewed viewed, descriptor?_applyAll, descriptor?_initial]
  · intro name other ws ws' document viewed otherViewed described alsoDescribed
    rw [reached.descriptor_of_viewed viewed] at described
    rw [reached.descriptor_of_viewed otherViewed] at alsoDescribed
    exact reached.descriptor?_inj described alsoDescribed

end Draft

/-! ## A described library -/

namespace Library

/-- The workspace `base` is described by its books at first and then by its shelves, which are made
abstract later than that, so that it has to be made abstract as well.  What describes `staff` is
abstract before, and it is not what `base` declares. -/
def descriptions : List Edit := [
  .addWorkspace (name "base"),
  .within (name "base") (.declare (name "book") (.structured .cDoc isStructure_cDoc)),
  .within (name "base") (.declare (name "shelf") (.structured .cDoc isStructure_cDoc)),
  .within (name "base") (.setDescriptor (name "book")),
  .within (name "base") (.setDescriptor (name "shelf")),
  .within (name "base") (.amend (name "shelf") .setAbstract),
  .within (name "base") .setAbstract,
  .addWorkspace (name "staff"),
  .within (name "staff") (.declare (name "desk") (.structured .cDoc isStructure_cDoc)),
  .within (name "staff") (.amend (name "desk") .setAbstract),
  .within (name "staff") (.setDescriptor (name "desk")),
  .within (name "staff") (.setDescriptor (name "book"))]

def describedDraft : Draft := (Draft.initial {}).applyAll descriptions

theorem findings_describedDraft : describedDraft.findings = [] :=
  List.isEmpty_iff.mp (by decide +kernel)

end Library

/-- Shelves find `base`, books find nothing any more, and desks find `staff`, which is abstract. -/
theorem Draft.build_described_library :
    (∃ ws, Library.describedDraft.freeze.workspaceDescribedBy? (Library.name "shelf") = some ws ∧
      ws.name = Library.name "base") ∧
    Library.describedDraft.freeze.workspaceDescribedBy? (Library.name "book") = none ∧
    ∃ ws, Library.describedDraft.freeze.workspaceDescribedBy? (Library.name "desk") = some ws ∧
      ws.name = Library.name "staff" ∧ ws.type.isAbstract = true := by
  obtain ⟨last, finds, _, inOrder⟩ := Draft.build_described {} Library.descriptions
    (Draft.build_eq_ok_iff.mpr ⟨Library.findings_describedDraft, rfl⟩)
  have opened : ∀ name ∈ [Library.name "base", Library.name "staff"],
      ∃ ws, Library.describedDraft.freeze.workspace? name = some ws ∧ ws.name = name := by
    intro name listed
    have isThere : (Library.describedDraft.freeze.workspace? name).isSome = true := by
      revert name
      decide +kernel
    obtain ⟨ws, viewed⟩ := Option.isSome_iff_exists.mp isThere
    have reached := (Draft.Reachable.initial {}).applyAll Library.descriptions
    exact ⟨ws, viewed, (reached.workspace?_of_viewed viewed).2.1⟩
  obtain ⟨base, viewedBase, nameBase⟩ := opened (Library.name "base") (by simp)
  obtain ⟨staff, viewedStaff, nameStaff⟩ := opened (Library.name "staff") (by simp)
  have shelf : base.body.descriptor = some (Library.name "shelf") := by
    rw [last _ base viewedBase]
    decide +kernel
  have desk : staff.body.descriptor = some (Library.name "desk") := by
    rw [last _ staff viewedStaff]
    decide +kernel
  refine ⟨⟨base, (finds _ base).mpr ⟨nameBase.symm ▸ viewedBase, shelf⟩, nameBase⟩, ?_, staff,
    (finds _ staff).mpr ⟨nameStaff.symm ▸ viewedStaff, desk⟩, nameStaff, ?_⟩
  · exact Option.isNone_iff_eq_none.mp (by decide +kernel)
  · obtain ⟨found, _, inCatalog, _, _, _, abstractOnly⟩ := inOrder _ staff _ viewedStaff desk
    have isAbstract : (Library.describedDraft.freeze.types[Library.name "desk"]?).map
        TypeDef.isAbstract = some true := by decide +kernel
    have same : Library.describedDraft.freeze.types[Library.name "desk"]? = some found := inCatalog
    rw [same, Option.map_some, Option.some_inj] at isAbstract
    exact abstractOnly isAbstract

end TypeCatalog
