import TypeCatalog.Proofs.Draft.Layout
import TypeCatalog.Proofs.Draft.Validation

/-!
# The parts of views

A view has one list of fields and three lists of names, which grow together whenever a field is
added.  The names in a part are those of the fields that are in it, in the order of the fields, so
that no name is lost, listed twice or listed for a field that is not there.

* `View.Divided`: how the lists of a view go together, as every added field keeps it.
* `View.Sound`: what follows for a reader of the lists.
* `Draft.Reachable.views_sound`: all views of a reachable draft are sound, and the keys of the views
  in a built catalog are complete.
-/

namespace TypeCatalog

namespace View

variable {v view changed : View} {part : ViewPart} {field : Field} {config : Config} {name : String}

/-! ## Parts and lists -/

/-- The part of a name is the first one that lists it. -/
theorem part?_eq_find? (view : View) (name : String) :
    view.part? name = [ViewPart.partition, .clustering, .value].find? fun part =>
      (view.namesIn part).contains name := by
  unfold part?
  simp only [List.find?_cons, List.find?_nil, namesIn]
  cases view.partition.contains name <;> cases view.clustering.contains name <;>
    cases view.value.contains name <;> rfl

theorem mem_namesIn_of_part? (isPart : view.part? name = some part) : name ∈ view.namesIn part := by
  rw [part?_eq_find?] at isPart
  have lists := List.find?_some isPart
  exact List.contains_iff_mem.mp lists

/-- The lists of a view go together.  A part lists the names of its fields in the order of the
fields; all fields are in a part but those that views start with; and the fields of a part are of
kinds that may be in it. -/
structure Divided (view : View) : Prop where
  listed : ∀ part, view.namesIn part =
    view.fields.names.filter fun name => decide (view.part? name = some part)
  placed : ∀ field ∈ view.fields, view.part? field.name = none ↔ field.isSystem = true
  fits : ∀ field ∈ view.fields, ∀ part, view.part? field.name = some part →
    checkPart part field = .ok ()

theorem divided_new : Divided {} where
  listed part := by cases part <;> rfl
  placed field known := by
    refine iff_of_true rfl ?_
    revert field
    decide
  fits _ _ _ isPart := nomatch isPart

theorem Divided.mem_names (divided : view.Divided) (listed : name ∈ view.namesIn part) :
    name ∈ view.fields.names := by
  rw [divided.listed part] at listed
  exact (List.mem_filter.mp listed).1

theorem Divided.part?_eq_some_iff (divided : view.Divided) :
    view.part? name = some part ↔ name ∈ view.namesIn part := by
  refine ⟨mem_namesIn_of_part?, fun listed => ?_⟩
  rw [divided.listed part] at listed
  exact of_decide_eq_true (List.mem_filter.mp listed).2

/-! ## Adding a field -/

/-- A name that no list has yet is in the part that it is added to; all others stay where they
are. -/
theorem Divided.part?_addField (divided : v.Divided)
    (added : v.addField part field config = .ok changed) (name : String) :
    changed.part? name = if name = field.name then some part else v.part? name := by
  obtain ⟨_, pushed, lists⟩ := of_addField added
  have fresh := (Fields.push_eq_ok_iff.mp pushed).2.1
  rw [part?_eq_find?, part?_eq_find?]
  simp only [lists]
  by_cases isNew : name = field.name
  · -- What is listed is the name of a field, and the new name was not one.
    have unlisted : ∀ p, (v.namesIn p).contains name = false := fun p => by
      rw [List.contains_eq_mem, decide_eq_false_iff_not, isNew]
      exact fun listed => fresh (divided.mem_names listed)
    rw [if_pos isNew, isNew]
    rw [isNew] at unlisted
    simp only [List.contains_append, unlisted, Bool.false_or]
    cases part <;> simp
  · rw [if_neg isNew]
    congr 1
    funext p
    rw [List.contains_append]
    split <;> simp [isNew]

theorem Divided.addField (divided : v.Divided)
    (added : v.addField part field config = .ok changed) : changed.Divided := by
  obtain ⟨checked, pushed, lists⟩ := of_addField added
  obtain ⟨valid, fresh, _, _, fields⟩ := Fields.push_eq_ok_iff.mp pushed
  have parts := divided.part?_addField added
  have others : ∀ former ∈ v.fields, former.name ≠ field.name := fun former listed same =>
    fresh (same ▸ List.mem_map_of_mem listed)
  have kept : ∀ former ∈ v.fields, changed.part? former.name = v.part? former.name :=
    fun former listed => by rw [parts, if_neg (others former listed)]
  have new : changed.part? field.name = some part := by rw [parts, if_pos rfl]
  refine ⟨fun p => ?_, fun f listed => ?_, fun f listed p isPart => ?_⟩
  · -- The fields that were there are in the parts that they were in, and the new one comes last.
    have old : (v.fields.names.filter fun name => decide (changed.part? name = some p)) =
        v.namesIn p := by
      rw [divided.listed p]
      refine List.filter_congr fun name listed => ?_
      obtain ⟨former, isFormer, rfl⟩ := List.mem_map.mp listed
      rw [kept former isFormer]
    rw [lists, fields]
    unfold Fields.names at old ⊢
    rw [List.map_append, List.map_singleton, List.filter_append, old, List.filter_singleton, new]
    cases p <;> cases part <;> rfl
  · rw [fields] at listed
    rcases List.mem_append.mp listed with old | isNew
    · rw [kept f old]
      exact divided.placed f old
    · rw [List.mem_singleton.mp isNew, new, Field.isSystem_eq_false_of_isIdentifier valid]
      simp
  · rw [fields] at listed
    rcases List.mem_append.mp listed with old | isNew
    · rw [kept f old] at isPart
      exact divided.fits f old p isPart
    · rw [List.mem_singleton.mp isNew] at isPart ⊢
      rw [new] at isPart
      cases isPart
      exact checked

/-! ## What readers of the lists rely on -/

/-- Each field that is no system field is in one part.  Each part lists names of fields, in their
order and each of them once, and the part of a name is the part that lists it, if there is one.
Fields of the partition key have a fixed width, and no key holds whole records or events. -/
structure Sound (view : View) : Prop where
  placed : ∀ field ∈ view.fields, field.isSystem = false → ∃! part, field.name ∈ view.namesIn part
  ordered : ∀ part, (view.namesIn part).Sublist view.fields.names
  distinct : ∀ part, (view.namesIn part).Nodup
  part : ∀ name part, view.part? name = some part ↔ name ∈ view.namesIn part
  system : ∀ field ∈ view.fields, field.isSystem = true → view.part? field.name = none
  unknown : ∀ name, name ∉ view.fields.names → view.part? name = none
  fixed : ∀ field ∈ view.fields, field.name ∈ view.partition → field.isFixedWidth = true
  split : ∀ field ∈ view.fields, field.name ∈ view.partition ++ view.clustering →
    field.kind ≠ .record ∧ field.kind ≠ .event

theorem Divided.sound (divided : view.Divided) (distinct : view.fields.names.Nodup) :
    view.Sound where
  placed field listed isOwn := by
    cases isPart : view.part? field.name with
    | none =>
        rw [(divided.placed field listed).mp isPart] at isOwn
        cases isOwn
    | some part =>
        refine ⟨part, mem_namesIn_of_part? isPart, fun other isOther => ?_⟩
        have same := divided.part?_eq_some_iff.mpr isOther
        rw [isPart] at same
        exact (Option.some.inj same).symm
  ordered part := by
    rw [divided.listed part]
    exact List.filter_sublist
  distinct part := by
    rw [divided.listed part]
    exact distinct.filter _
  part _ _ := divided.part?_eq_some_iff
  system field listed := (divided.placed field listed).mpr
  unknown name unknown := by
    refine Option.eq_none_iff_forall_ne_some.mpr fun part isPart => unknown ?_
    exact divided.mem_names (mem_namesIn_of_part? isPart)
  fixed field listed isKey := by
    have isPart : view.part? field.name = some .partition :=
      divided.part?_eq_some_iff.mpr isKey
    exact (checkPart_eq_ok_iff.mp (divided.fits field listed _ isPart)).1 rfl
  split field listed isKey := by
    have known : ∃ part ≠ ViewPart.value, field.name ∈ view.namesIn part := by
      rcases List.mem_append.mp isKey with isKey | isKey
      · exact ⟨.partition, nofun, isKey⟩
      · exact ⟨.clustering, nofun, isKey⟩
    obtain ⟨part, notValue, isKey⟩ := known
    have isPart := divided.part?_eq_some_iff.mpr isKey
    exact (checkPart_eq_ok_iff.mp (divided.fits field listed part isPart)).2 notValue

/-- There is a key of both parts, and all of its fields have a fixed width but perhaps the last
one. -/
structure KeyComplete (view : View) : Prop where
  partition : view.partition ≠ []
  clustering : view.clustering ≠ []
  fixed : ∀ field ∈ view.fields, field.name ∈ view.partition ++ view.clustering →
    view.clustering.getLast? ≠ some field.name → field.isFixedWidth = true

theorem Sound.keyComplete (sound : view.Sound) (distinct : view.fields.names.Nodup)
    (valid : TypeTable.ViewValid view) : view.KeyComplete where
  partition := valid.partition
  clustering := valid.clustering
  fixed field listed isKey notLast := by
    rcases List.mem_append.mp isKey with inPartition | inClustering
    · exact sound.fixed field listed inPartition
    · refine valid.fixed field.name ?_ field (Fields.get?_eq_some_of_mem distinct listed)
      have ends := List.dropLast_append_getLast valid.clustering
      rw [← ends] at inClustering
      refine (List.mem_append.mp inClustering).resolve_right fun isLast => notLast ?_
      rw [List.getLast?_eq_some_getLast valid.clustering, List.mem_singleton.mp isLast]

end View

theorem TypeDef.view?_eq_some_iff {t : TypeDef} {view : View} :
    t.view? = some view ↔ t.body = .view view := by
  unfold TypeDef.view?
  cases t.body <;> simp

/-! ## Drafts and catalogs -/

namespace Draft

variable {draft : Draft} {name : QName} {t : TypeDef} {view : View}

/-- The fields of every view of a reachable draft are divided among its parts. -/
theorem Reachable.views_divided (reached : Reachable draft) (found : draft.types[name]? = some t)
    (isView : t.body = .view view) : view.Divided := by
  refine reached.body_invariant
    (motive := fun _ _ body => ∀ view, body = .view view → view.Divided)
    (fun _ _ _ isView => nomatch isView) ?_ ?_ (fun _ _ _ _ _ divided => divided)
    name t found view isView
  · intro draft kind body _ new view isView
    subst isView
    cases new
    exact View.divided_new
  · intro draft name kind body later _ _ step divided view isView
    subst isView
    cases step with
    | kept => exact divided view rfl
    | view _ added => exact (divided _ rfl).addField added

theorem Reachable.nodup_names_of_view (reached : Reachable draft)
    (found : draft.types[name]? = some t) (isView : t.body = .view view) :
    view.fields.names.Nodup := by
  refine (reached.fields_laidOut name t view.fields found ?_).distinct
  rw [TypeDef.fields?_eq, isView]
  rfl

/-- In every reachable draft the parts of a view divide its fields, whatever the order in which
they were added; and the views of a catalog that is built have complete keys. -/
theorem Reachable.views_sound (reached : Reachable draft) :
    (∀ (name : QName) (t : TypeDef) (view : View), draft.types[name]? = some t →
      t.body = .view view → view.Sound) ∧
    ∀ catalog : Catalog, draft.build = .ok catalog → ∀ t ∈ catalog.defs, ∀ view : View,
      t.body = .view view → view.Sound ∧ view.KeyComplete := by
  have sound {name : QName} {t : TypeDef} {view : View} (found : draft.types[name]? = some t)
      (isView : t.body = .view view) : view.Sound :=
    (reached.views_divided found isView).sound (reached.nodup_names_of_view found isView)
  refine ⟨fun _ _ _ found isView => sound found isView, fun catalog made t listed view isView => ?_⟩
  have built : catalog.Built := ⟨draft, reached, made⟩
  obtain ⟨clean, rfl⟩ := build_eq_ok_iff.mp made
  have found := built.mem_catalog_iff.mp listed
  rw [reached.getElem?_freeze] at found
  have valid : TypeTable.ViewValid view := by
    have valid := ((findings_eq_nil_iff.mp clean).types _ t found).body
    unfold TypeTable.BodyValid at valid
    rwa [isView] at valid
  exact ⟨sound found isView,
    (sound found isView).keyComplete (reached.nodup_names_of_view found isView) valid⟩

end Draft

/-- Libraries come to know how many copies of a title are on the shelves of a branch. -/
def Library.copies : List Edit := [
  .within (Library.name "base") (.declare (Library.name "copies") .view),
  .within (Library.name "base") (.amend (Library.name "copies")
    (.addPartitionField "branch" .int64)),
  .within (Library.name "base") (.amend (Library.name "copies")
    (.addClusteringField "shelf" .int32)),
  .within (Library.name "base") (.amend (Library.name "copies")
    (.addValueField "number" .int32 true)),
  .within (Library.name "base") (.amend (Library.name "copies")
    (.addClusteringField "title" .string))]

/-- Of the columns of copies, all but the titles have a fixed width, and titles are in the part that
lists them. -/
theorem Draft.Reachable.views_sound_copies :
    ∃ t ∈ (Library.draft.applyAll Library.copies).freeze.defs, ∃ view, t.body = .view view ∧
      view.clustering = ["shelf", "title"] ∧ view.part? "title" = some .clustering ∧
      ∀ field ∈ view.fields, field.name = "shelf" → field.isFixedWidth = true := by
  have reached : (Library.draft.applyAll Library.copies).Reachable :=
    ((Reachable.initial {}).applyAll Library.edits).applyAll Library.copies
  have clean : (Library.draft.applyAll Library.copies).findings = [] :=
    List.isEmpty_iff.mp (by decide +kernel)
  have known : ((Library.draft.applyAll Library.copies).types[Library.name "copies"]?).map
      (fun t => (t.name, t.view?.map View.clustering)) =
      some (Library.name "copies", some ["shelf", "title"]) := by decide +kernel
  obtain ⟨t, found, has⟩ := Option.map_eq_some_iff.mp known
  obtain ⟨named, columns⟩ := Prod.mk.inj has
  obtain ⟨view, isView, columns⟩ := Option.map_eq_some_iff.mp columns
  have made := build_eq_ok_iff.mpr ⟨clean, rfl⟩
  have listed : t ∈ (Library.draft.applyAll Library.copies).freeze.defs := by
    have built : (Library.draft.applyAll Library.copies).freeze.Built := ⟨_, reached, made⟩
    rw [built.mem_catalog_iff, reached.getElem?_freeze, named]
    exact found
  have body : t.body = .view view := TypeDef.view?_eq_some_iff.mp isView
  obtain ⟨sound, complete⟩ := (Draft.Reachable.views_sound reached).2 _ made t listed view body
  refine ⟨t, listed, view, body, columns, (sound.part _ _).mpr ?_, fun field isField named => ?_⟩
  · change "title" ∈ view.clustering
    rw [columns]
    decide
  · refine complete.fixed field isField (List.mem_append_right _ ?_) ?_
    · rw [columns, named]
      decide
    · rw [columns, named]
      decide

end TypeCatalog
