import TypeCatalog.Proofs.Draft.FieldConstraints
import TypeCatalog.Proofs.Draft.Growth
import TypeCatalog.Proofs.Draft.Names

/-!
# Derived data types

Nothing checks that the data types of a draft derive from each other without a cycle.  A data type
is declared with an ancestor that is there already, of the same kind, and its body is never changed
again; so the way up from it leads through earlier declarations to the system data type.

* `TypeTable.Lineage`: the names on the way up from a data type.
* `Draft.DataStep`: a step leaves the data types alone or derives a new one from one that is there.
* `Draft.Reachable.derives`: every data type of a reachable draft has a lineage.
* `TypeTable.Lineage.derivation_size_eq`: what `TypeTable.derivation` collects is the lineage.
* `Draft.Reachable.derivation_founded`: what follows from it for constraints and validation.
-/

namespace TypeCatalog

theorem TypeDef.data?_eq_some_iff {t : TypeDef} {data : DataType} :
    t.data? = some data ↔ t.body = .data data := by
  unfold data?
  cases t.body <;> simp

/-! ## Lineages -/

namespace TypeTable

/-- The data type with the given name. -/
def data? (types : TypeTable) (name : QName) : Option DataType :=
  (types[name]?).bind TypeDef.data?

theorem data?_eq_some_iff {types : TypeTable} {name : QName} {data : DataType} :
    types.data? name = some data ↔ ∃ t, types[name]? = some t ∧ t.body = .data data := by
  unfold data?
  simp only [Option.bind_eq_some_iff, TypeDef.data?_eq_some_iff]

/-- The names on the way from a data type of the given kind up to the system data type of the kind,
which derives from none.  All of them are data types of the kind, and none comes up twice. -/
inductive Lineage (types : TypeTable) (kind : DataKind) : QName → List QName → Prop
  | system : types.data? kind.sysName = some { kind } →
    Lineage types kind kind.sysName [kind.sysName]
  | derived {name : QName} {data : DataType} {names : List QName} :
    types.data? name = some data → data.kind = kind → name ∉ names →
    Lineage types kind data.ancestor names → Lineage types kind name (name :: names)

/-- The data types on the way up from a name, at most `limit` of them, without regard to names that
come up again. -/
def ascend (types : TypeTable) : (limit : Nat) → QName → List DataType
  | 0, _ => []
  | limit + 1, name =>
    match types.data? name with
    | some data => data :: ascend types limit data.ancestor
    | none => []

namespace Lineage

variable {types after : TypeTable} {kind : DataKind} {name : QName} {names : List QName}

theorem nodup (lineage : types.Lineage kind name names) : names.Nodup := by
  induction lineage with
  | system _ => simp
  | derived _ _ fresh _ ih => exact List.nodup_cons.mpr ⟨fresh, ih⟩

theorem ne_nil (lineage : types.Lineage kind name names) : names ≠ [] := by
  cases lineage <;> exact List.cons_ne_nil _ _

theorem getLast? (lineage : types.Lineage kind name names) :
    names.getLast? = some kind.sysName := by
  induction lineage with
  | system _ => rfl
  | derived _ _ _ above ih =>
      obtain ⟨next, rest, rfl⟩ := List.exists_cons_of_ne_nil above.ne_nil
      rw [List.getLast?_cons_cons, ih]

theorem data?_of_mem (lineage : types.Lineage kind name names) :
    ∀ n ∈ names, ∃ data, types.data? n = some data ∧ data.kind = kind := by
  induction lineage with
  | system found =>
      intro n listed
      rw [List.mem_singleton.mp listed]
      exact ⟨_, found, rfl⟩
  | derived found same _ _ ih => exact List.forall_mem_cons.mpr ⟨⟨_, found, same⟩, ih⟩

theorem mem_self (lineage : types.Lineage kind name names) : name ∈ names := by
  cases lineage <;> exact List.mem_cons_self

/-- A lineage stays one as long as the data types stay. -/
theorem mono (kept : ∀ n data, types.data? n = some data → after.data? n = some data)
    (lineage : types.Lineage kind name names) : after.Lineage kind name names := by
  induction lineage with
  | system found => exact .system (kept _ _ found)
  | derived found same fresh _ ih => exact .derived (kept _ _ found) same fresh ih

end Lineage

/-! ## What is collected on the way up -/

section Ascent

variable {types : TypeTable} {name : QName} {data : DataType} {limit : Nat} {seen : List QName}

theorem ascend_of_none (missing : types.data? name = none) : types.ascend limit name = [] := by
  cases limit with
  | zero => rfl
  | succ limit => rw [ascend, missing]

theorem ascend_of_some (found : types.data? name = some data) :
    types.ascend (limit + 1) name = data :: types.ascend limit data.ancestor := by
  rw [ascend, found]

theorem derivation_of_none (missing : types.data? name = none) :
    types.derivation limit seen name = [] := by
  unfold data? at missing
  cases limit with
  | zero => rfl
  | succ limit => rw [derivation, missing]

theorem derivation_of_some (found : types.data? name = some data) (new : name ∉ seen) :
    types.derivation (limit + 1) seen name =
      data :: types.derivation limit (name :: seen) data.ancestor := by
  unfold data? at found
  rw [derivation, found]
  simp only [List.contains_iff_mem, if_neg new]

end Ascent

namespace Lineage

variable {types : TypeTable} {kind : DataKind} {name : QName} {names : List QName}

theorem ascend_eq (rootless : types.data? .null = none)
    (lineage : types.Lineage kind name names) (limit : Nat) :
    types.ascend limit name = (names.filterMap types.data?).take limit := by
  induction lineage generalizing limit with
  | system found =>
      cases limit with
      | zero => rfl
      | succ limit =>
          rw [ascend_of_some found, List.filterMap_cons_some found, List.take_succ_cons,
            ascend_of_none rootless, List.filterMap_nil, List.take_nil]
  | derived found _ _ _ ih =>
      cases limit with
      | zero => rfl
      | succ limit =>
          rw [ascend_of_some found, List.filterMap_cons_some found, List.take_succ_cons, ih]

/-- Names that were seen are not on the way up, so that nothing is cut short. -/
theorem derivation_eq_ascend (rootless : types.data? .null = none)
    (lineage : types.Lineage kind name names) {seen : List QName}
    (unseen : ∀ n ∈ names, n ∉ seen) (limit : Nat) :
    types.derivation limit seen name = types.ascend limit name := by
  induction lineage generalizing limit seen with
  | system found =>
      cases limit with
      | zero => rfl
      | succ limit =>
          rw [derivation_of_some found (unseen _ List.mem_cons_self), ascend_of_some found,
            derivation_of_none rootless, ascend_of_none rootless]
  | @derived name data names found _ fresh _ ih =>
      cases limit with
      | zero => rfl
      | succ limit =>
          have later : ∀ n ∈ names, n ∉ name :: seen := by
            intro n listed again
            rcases List.mem_cons.mp again with rfl | old
            · exact fresh listed
            · exact unseen n (List.mem_cons_of_mem _ listed) old
          rw [derivation_of_some found (unseen _ List.mem_cons_self), ascend_of_some found,
            ih later]

/-- There are as many types as names on the way up. -/
theorem length_le_size (lineage : types.Lineage kind name names) : names.length ≤ types.size := by
  have listed : names ⊆ types.keys := by
    intro n onTheWay
    obtain ⟨data, found, _⟩ := lineage.data?_of_mem n onTheWay
    obtain ⟨t, isType, _⟩ := data?_eq_some_iff.mp found
    rw [Std.ExtTreeMap.mem_keys, Std.ExtTreeMap.mem_iff_isSome_getElem?, isType]
    rfl
  have counted := lineage.nodup.length_le_of_subset listed
  rwa [Std.ExtTreeMap.length_keys] at counted

/-- The limit that the number of types sets is never felt. -/
theorem derivation_size_eq (rootless : types.data? .null = none)
    (lineage : types.Lineage kind name names) :
    types.derivation types.size [] name = names.filterMap types.data? := by
  rw [lineage.derivation_eq_ascend rootless (fun _ _ => List.not_mem_nil),
    lineage.ascend_eq rootless]
  exact List.take_of_length_le (Nat.le_trans (List.length_filterMap_le _ _) lineage.length_le_size)

end Lineage

theorem mem_overlay {inherited own : List Constraint} {c : Constraint}
    (listed : c ∈ Constraint.overlay inherited own) : c ∈ inherited ∨ c ∈ own := by
  unfold Constraint.overlay at listed
  rw [List.mem_mergeSort, List.mem_append, List.mem_filter] at listed
  exact listed.imp_left And.left

/-- Effective constraints are declared somewhere on the way up. -/
theorem exists_mem_of_mem_effective {chain : List DataType} {c : Constraint}
    (listed : c ∈ chain.foldr
      (fun data inherited => Constraint.overlay inherited data.constraints) []) :
    ∃ data ∈ chain, c ∈ data.constraints := by
  induction chain with
  | nil => cases listed
  | cons data rest ih =>
      rcases mem_overlay listed with inherited | own
      · obtain ⟨above, among, declares⟩ := ih inherited
        exact ⟨above, List.mem_cons_of_mem _ among, declares⟩
      · exact ⟨data, List.mem_cons_self, own⟩

end TypeTable

namespace Draft

variable {draft after : Draft} {name ws : QName} {t changed : TypeDef}

/-! ## Steps and data types -/

/-- What a step makes of the data types. -/
inductive DataStep (draft after : Draft) : Prop
  | kept : after.types.data? = draft.types.data? → DataStep draft after
  | derived {name : QName} {data parent : DataType} : draft.types.data? name = none →
    draft.types.data? data.ancestor = some parent → parent.kind = data.kind →
    Constraint.checkAll draft.config.isPattern data.kind data.constraints = .ok () →
    after.types.data? = Function.update draft.types.data? name (some data) → DataStep draft after

theorem data?_withType (draft : Draft) (name : QName) (t : TypeDef) :
    (draft.withType name t).types.data? = Function.update draft.types.data? name t.data? :=
  read_withType (·.bind TypeDef.data?) draft name t

theorem data?_withType_of_same (found : draft.types[name]? = some t)
    (same : changed.data? = t.data?) :
    (draft.withType name changed).types.data? = draft.types.data? :=
  read_withType_of_same (·.bind TypeDef.data?) found same

theorem data?_eq_none_of_isBound (free : draft.isBound name = false) :
    draft.types.data? name = none := by
  unfold TypeTable.data?
  rw [(getElem?_eq_none_of_isBound free).2, Option.bind_none]

theorem TypeStep.data?_eq (step : TypeStep draft name t changed) : changed.data? = t.data? := by
  unfold TypeDef.data?
  cases step with
  | comment _ | setAbstract | tag _ _ => rfl
  | structured body _ | view body _ _ | function _ body | projector _ body | job _ body =>
      rw [body]

theorem exists_data_of_fits (fits : t.body.Fits t.kind) (isData : t.kind = .data) :
    ∃ data, t.body = .data data := by
  rw [isData] at fits
  cases body : t.body with
  | data data => exact ⟨data, rfl⟩
  | structured s =>
      rw [body] at fits
      cases fits.1
  | view v =>
      rw [body] at fits
      cases fits.1
  | null | any =>
      rw [body] at fits
      exact fits.elim
  | _ =>
      rw [body] at fits
      cases fits

/-- What is found as a data type is one, and its kind is known. -/
theorem exists_data_of_findDataType (formed : draft.WellFormed)
    (visible : draft.findDataType ws name = .ok t) :
    ∃ data, draft.types.data? name = some data ∧ dataKindOf t = data.kind := by
  unfold findDataType at visible
  split at visible
  next found =>
    split at visible
    next isData =>
      cases visible
      have registered := getElem?_of_visible found (by simp [isData])
      obtain ⟨data, body⟩ := exists_data_of_fits (formed.fits registered) isData
      refine ⟨data, TypeTable.data?_eq_some_iff.mpr ⟨t, registered, body⟩, ?_⟩
      unfold dataKindOf
      rw [TypeDef.data?_eq_some_iff.mpr body]
    next => cases visible
  next => cases visible

/-- A new data type derives from one of its kind. -/
theorem exists_parent_of_dataBody (formed : draft.WellFormed) {kind : DataKind}
    {ancestor : QName} {constraints : List Constraint} {data : DataType}
    (made : Build.dataBody draft ws kind ancestor constraints = .ok (.data data)) :
    ∃ parent, draft.types.data? data.ancestor = some parent ∧ parent.kind = data.kind ∧
      Constraint.checkAll draft.config.isPattern data.kind data.constraints = .ok () := by
  unfold Build.dataBody at made
  obtain ⟨t, visible, made⟩ := Check.bind_eq_ok_iff.mp made
  obtain ⟨agrees, made⟩ := Check.unless_eq_ok_iff.mp made
  rw [Decidable.not_not] at agrees
  split at made
  next passed =>
    cases made
    obtain ⟨parent, found, kind⟩ := exists_data_of_findDataType formed visible
    exact ⟨parent, found, kind.symm.trans agrees, passed⟩
  next => cases made

theorem dataBody_of_bodyOf {declaration : Declaration} {kind : TypeKind} {data : DataType}
    (made : Build.bodyOf draft ws declaration = .ok (kind, .data data)) :
    ∃ dataKind ancestor constraints,
      Build.dataBody draft ws dataKind ancestor constraints = .ok (.data data) := by
  cases declaration with
  | data dataKind ancestor constraints =>
      obtain ⟨body, dataMade, made⟩ := Check.bind_eq_ok_iff.mp made
      cases made
      exact ⟨dataKind, ancestor, constraints, dataMade⟩
  | rate _ _ _ | limit _ _ _ =>
      obtain ⟨_, _, made⟩ := Check.bind_eq_ok_iff.mp made
      cases made
  | _ => cases made

theorem WorkspaceStep.data (formed : draft.WellFormed) (step : WorkspaceStep ws draft after) :
    DataStep draft after := by
  cases step with
  | @declare name declaration kind body owner home _ free made found isWorkspace =>
      have fresh := data?_eq_none_of_isBound free
      have listed : (draft.withType ws { owner with
          body := .workspace (home.addLocal name) }).types.data? = draft.types.data? := by
        refine data?_withType_of_same found ?_
        unfold TypeDef.data?
        rw [isWorkspace]
      cases body with
      | data data =>
          obtain ⟨_, _, _, dataMade⟩ := dataBody_of_bodyOf made
          obtain ⟨parent, isParent, agrees, passed⟩ := exists_parent_of_dataBody formed dataMade
          refine .derived fresh isParent agrees passed ?_
          rw [data?_withType, listed]
          rfl
      | _ =>
          refine .kept ?_
          rw [data?_withType, listed]
          exact Function.update_eq_self_iff.mpr fresh.symm
  | amend found _ _ step => exact .kept (data?_withType_of_same found step.data?_eq)
  | addUnique found _ _ isStructure _ _ _ =>
      refine .kept (data?_withType_of_same found ?_)
      unfold TypeDef.data?
      rw [isStructure]
  | setAncestors found isWorkspace _ _ | useWorkspaces found isWorkspace _
  | setDescriptor found isWorkspace _ _ =>
      refine .kept (data?_withType_of_same found ?_)
      unfold TypeDef.data?
      rw [isWorkspace]
  | setAbstract found | comment _ found => exact .kept (data?_withType_of_same found rfl)
  | addRule _ _ _ _ _ _ => exact .kept rfl

/-- Every step leaves the data types alone or derives a new one from one that is there. -/
theorem Step.data (formed : draft.WellFormed) (step : Step draft after) : DataStep draft after := by
  cases step with
  | bindPackage _ => exact .kept rfl
  | addWorkspace _ free =>
      refine .kept ?_
      rw [data?_withType]
      exact Function.update_eq_self_iff.mpr (data?_eq_none_of_isBound free).symm
  | within _ step => exact step.data formed
  | comment _ found => exact .kept (data?_withType_of_same found rfl)

/-! ## The lineages of a draft -/

/-- Every data type derives from the system data type of its kind, and its own constraints apply to
the kind. -/
def Derives (draft : Draft) : Prop :=
  ∀ (name : QName) (data : DataType), draft.types.data? name = some data →
    (∃ names, draft.types.Lineage data.kind name names) ∧
      Constraint.checkAll draft.config.isPattern data.kind data.constraints = .ok ()

theorem derives_initial (config : Config) : Derives (initial config) := by
  intro name data found
  obtain ⟨t, registered, isData⟩ := TypeTable.data?_eq_some_iff.mp found
  obtain ⟨u, listed, same⟩ := List.mem_map.mp (initial_getElem?_iff.mp registered)
  cases same
  rcases List.mem_cons.mp listed with rfl | isSystem
  · cases isData
  · obtain ⟨kind, _, rfl⟩ := List.mem_map.mp isSystem
    cases isData
    exact ⟨⟨[kind.sysName], .system found⟩, rfl⟩

theorem DataStep.derives (step : DataStep draft after) (config : after.config = draft.config)
    (derives : Derives draft) : Derives after := by
  unfold Derives
  rw [config]
  cases step with
  | kept same =>
      intro name data found
      rw [same] at found
      obtain ⟨⟨names, lineage⟩, passed⟩ := derives name data found
      exact ⟨⟨names, lineage.mono fun n data found => by rw [same]; exact found⟩, passed⟩
  | @derived new data parent fresh isParent agrees passed becomes =>
      have kept : ∀ n found, draft.types.data? n = some found →
          after.types.data? n = some found := by
        intro n found there
        have apart : n ≠ new := by
          intro same
          rw [same, fresh] at there
          cases there
        rw [becomes, Function.update_of_ne apart]
        exact there
      intro name found registered
      by_cases isNew : name = new
      · -- The new name is not on the way up from its ancestor, where everything is there already.
        subst isNew
        have same : some data = some found := by
          rw [← registered, becomes, Function.update_self]
        cases same
        obtain ⟨⟨names, lineage⟩, _⟩ := derives _ parent isParent
        rw [agrees] at lineage
        have absent : name ∉ names := by
          intro listed
          obtain ⟨other, there, _⟩ := lineage.data?_of_mem name listed
          rw [fresh] at there
          cases there
        exact ⟨⟨name :: names, .derived registered rfl absent (lineage.mono kept)⟩, passed⟩
      · rw [becomes, Function.update_of_ne isNew] at registered
        obtain ⟨⟨names, lineage⟩, passed⟩ := derives name found registered
        exact ⟨⟨names, lineage.mono kept⟩, passed⟩

theorem Reachable.derives (reached : Reachable draft) : Derives draft := by
  induction reached with
  | initial config => exact derives_initial config
  | @apply before edit reached ih =>
      rcases apply_eq_or_step before edit with same | step
      · rw [same]
        exact ih
      · exact (step.data reached.wellFormed).derives step.config_eq ih

/-- The absent name, from which the system data types derive, is not the name of a type. -/
theorem Reachable.data?_null (reached : Reachable draft) : draft.types.data? .null = none := by
  unfold TypeTable.data?
  rw [Option.bind_eq_none_iff]
  intro t found
  exact absurd rfl (reached.namesApart.ne_null (.inl (mem_types_iff.mpr ⟨t, found⟩)))

theorem Extends.data? (extended : draft.Extends after) {data : DataType}
    (found : draft.types.data? name = some data) : after.types.data? name = some data := by
  obtain ⟨t, registered, body⟩ := TypeTable.data?_eq_some_iff.mp found
  obtain ⟨later, there, same⟩ := extended.types name t registered
  have kept := same.body
  rw [body] at kept
  exact TypeTable.data?_eq_some_iff.mpr ⟨later, there, kept⟩

/-! ## What validation says of ancestors -/

/-- The ancestor of a data type is there and of its kind. -/
theorem Derives.ancestorValid (derives : Derives draft) (formed : draft.WellFormed)
    {data : DataType} (found : draft.types.data? name = some data) :
    draft.types.AncestorValid data := by
  obtain ⟨⟨names, lineage⟩, _⟩ := derives name data found
  cases lineage with
  | system isSystem =>
      have same := Option.some.inj (isSystem.symm.trans found)
      exact .inl (congrArg DataType.ancestor same).symm
  | derived registered _ _ above =>
      rw [registered] at found
      cases found
      obtain ⟨parent, isParent, same⟩ := above.data?_of_mem _ above.mem_self
      obtain ⟨t, there, body⟩ := TypeTable.data?_eq_some_iff.mp isParent
      refine .inr ⟨t, parent, ?_, TypeDef.data?_eq_some_iff.mpr body, same⟩
      have apart : data.ancestor ≠ .any := by
        intro isAny
        rw [isAny, formed.wildcardFree] at there
        cases there
      unfold TypeTable.resolve?
      rw [if_neg apart, there]

end Draft

/-- The violation is about the type that a data type derives from. -/
def Violation.IsAncestral : Violation → Prop
  | .ancestorNotFound _ | .ancestorMisfit .. => True
  | _ => False

namespace Draft

variable {draft : Draft} {name : QName} {t : TypeDef}

/-- Only data types have violations that are about ancestors. -/
theorem exists_data_of_ancestral {violation : Violation} (violates : draft.Violates name violation)
    (ancestral : violation.IsAncestral) :
    ∃ data, draft.types.data? name = some data ∧ ¬ draft.types.AncestorValid data := by
  cases violates with
  | rule _ violates => cases violates <;> cases ancestral
  | @type _ t _ found violates =>
      cases violates with
      | field _ _ violates => cases violates <;> cases ancestral
      | body violates =>
          cases violates with
          | @data data _ body violates =>
              refine ⟨data, TypeTable.data?_eq_some_iff.mpr ⟨t, found, body⟩, fun valid => ?_⟩
              rcases valid with absent | ⟨u, parent, there, isParent, same⟩
              · cases violates with
                | ancestorNotFound present _ | ancestorMisfit present _ _ _ => exact present absent
                | conflict _ => cases ancestral
              · cases violates with
                | ancestorNotFound _ missing =>
                    rw [missing u there] at isParent
                    cases isParent
                | ancestorMisfit _ found isData misfit =>
                    rw [there] at found
                    cases found
                    rw [isParent] at isData
                    cases isData
                    exact misfit same
                | conflict _ => cases ancestral
          | container _ _ violates | view _ violates | slot _ violates
          | functionStorages _ violates | event _ _ violates | projectorStorages _ violates
          | jobStates _ violates | descriptor _ violates | limit _ violates =>
              cases violates <;> cases ancestral
          | noEvents _ _ | schedule _ _ | jobIntents _ _ => cases ancestral

theorem Reachable.not_ancestral (reached : Reachable draft) :
    ∀ finding ∈ draft.findings, ¬ finding.violation.IsAncestral := by
  intro finding reported ancestral
  have formed := reached.wellFormed
  obtain ⟨data, found, invalid⟩ :=
    exists_data_of_ancestral (formed.mem_findings_iff.mp reported) ancestral
  exact invalid (reached.derives.ancestorValid formed found)

/-! ## What follows for constraints -/

/-- The constraints of a data type were all checked against its kind, those that it inherits when
its ancestors were declared. -/
theorem Reachable.check_of_mem_effective (reached : Reachable draft) {data : DataType}
    (found : draft.types.data? name = some data) {c : Constraint}
    (listed : c ∈ draft.types.effectiveConstraints name) :
    c.check data.kind draft.config.isPattern = .ok () := by
  obtain ⟨⟨names, lineage⟩, _⟩ := reached.derives name data found
  unfold TypeTable.effectiveConstraints at listed
  rw [lineage.derivation_size_eq reached.data?_null] at listed
  obtain ⟨above, onTheWay, declares⟩ := TypeTable.exists_mem_of_mem_effective listed
  obtain ⟨n, among, isAbove⟩ := List.mem_filterMap.mp onTheWay
  obtain ⟨other, same, kind⟩ := lineage.data?_of_mem n among
  rw [isAbove] at same
  cases same
  rw [← kind]
  exact Constraint.checkAll_eq_ok_iff.mp (reached.derives n above isAbove).2 c declares

/-- The way up is the same in all later drafts. -/
theorem Reachable.effectiveConstraints_applyAll (reached : Reachable draft) {data : DataType}
    (found : draft.types.data? name = some data) (edits : List Edit) :
    (draft.applyAll edits).types.effectiveConstraints name =
      draft.types.effectiveConstraints name := by
  have kept : ∀ n d, draft.types.data? n = some d →
      (draft.applyAll edits).types.data? n = some d :=
    fun _ _ there => (draft.extends_applyAll edits).data? there
  obtain ⟨⟨names, lineage⟩, _⟩ := reached.derives name data found
  unfold TypeTable.effectiveConstraints
  rw [lineage.derivation_size_eq reached.data?_null,
    (lineage.mono kept).derivation_size_eq (reached.applyAll edits).data?_null]
  refine congrArg _ (List.filterMap_congr fun n among => ?_)
  obtain ⟨d, there, _⟩ := lineage.data?_of_mem n among
  rw [kept n d there, there]

/-- What it comes to that a data type derives from one that was there before. -/
structure Founded (draft : Draft) (name : QName) (data : DataType) : Prop where
  /-- The way up leads through data types of the kind to the system data type, without repetition,
  and all of it is collected. -/
  lineage : ∃ names, draft.types.Lineage data.kind name names ∧ names.Nodup ∧
    names.getLast? = some data.kind.sysName ∧
    draft.types.derivation draft.types.size [] name = names.filterMap draft.types.data?
  /-- Looking for names that come up again changes nothing. -/
  unguarded : ∀ limit, draft.types.derivation limit [] name = draft.types.ascend limit name
  checked : ∀ c ∈ draft.types.effectiveConstraints name,
    c.check data.kind draft.config.isPattern = .ok ()
  settled : ∀ edits, (draft.applyAll edits).types.effectiveConstraints name =
    draft.types.effectiveConstraints name

/-- In every reachable draft the derivation of data types is well-founded and settled once and for
all, and validation has nothing to say of it. -/
theorem Reachable.derivation_founded (reached : Reachable draft) :
    (∀ finding ∈ draft.findings, ¬ finding.violation.IsAncestral) ∧
    ∀ (name : QName) (t : TypeDef), draft.types[name]? = some t → t.kind = .data →
      ∃ data, t.body = .data data ∧ Founded draft name data := by
  refine ⟨reached.not_ancestral, fun name t registered isData => ?_⟩
  obtain ⟨data, body⟩ := exists_data_of_fits (reached.wellFormed.fits registered) isData
  have found := TypeTable.data?_eq_some_iff.mpr ⟨t, registered, body⟩
  have rootless := reached.data?_null
  obtain ⟨⟨names, lineage⟩, _⟩ := reached.derives name data found
  refine ⟨data, body, ?_⟩
  exact {
    lineage := ⟨names, lineage, lineage.nodup, lineage.getLast?,
      lineage.derivation_size_eq rootless⟩
    unguarded := lineage.derivation_eq_ascend rootless fun _ _ => List.not_mem_nil
    checked := fun c listed => reached.check_of_mem_effective found listed
    settled := reached.effectiveConstraints_applyAll found }

end Draft

/-- The workspace `base` comes to have numbers of books, and `app` a longer form of them. -/
def Library.numbers : List Edit := [
  .within (Library.name "base") (.declare (Library.name "isbn")
    (.data .string .null [.minLen 10])),
  .within (Library.name "app") (.declare (Library.name "isbn13")
    (.data .string (Library.name "isbn") [.maxLen 13])),
  .within (Library.name "app") (.setAncestors [Library.name "staff"])]

/-- The longer form derives from texts by way of the shorter, which `app` does not see any more, and
its constraints stay as they are whatever is edited. -/
theorem Draft.Reachable.derivation_founded_isbn13 :
    (Library.draft.applyAll Library.numbers).types.sees (Library.name "app")
        (Library.name "isbn") = false ∧
    ∃ names, (Library.draft.applyAll Library.numbers).types.Lineage .string
        (Library.name "isbn13") names ∧ names.getLast? = some (QName.sys "string") ∧
      ∀ edits, ((Library.draft.applyAll Library.numbers).applyAll
          edits).types.effectiveConstraints (Library.name "isbn13") =
        (Library.draft.applyAll Library.numbers).types.effectiveConstraints
          (Library.name "isbn13") := by
  have reached : (Library.draft.applyAll Library.numbers).Reachable :=
    ((Draft.Reachable.initial {}).applyAll Library.edits).applyAll Library.numbers
  have declared : (((Library.draft.applyAll Library.numbers).types[Library.name "isbn13"]?).map
      fun t => (t.kind, t.data?.map DataType.kind)) = some (.data, some .string) := by
    decide +kernel
  obtain ⟨t, registered, same⟩ := Option.map_eq_some_iff.mp declared
  obtain ⟨isData, kinds⟩ := Prod.mk.inj same
  obtain ⟨_, founded⟩ := Draft.Reachable.derivation_founded reached
  obtain ⟨data, body, holds⟩ := founded _ t registered isData
  have isText : data.kind = .string := by
    rw [TypeDef.data?_eq_some_iff.mpr body] at kinds
    exact Option.some.inj kinds
  obtain ⟨names, lineage, _, last, _⟩ := holds.lineage
  rw [isText] at lineage last
  exact ⟨by decide +kernel, names, lineage, last, holds.settled⟩

end TypeCatalog
