import TypeCatalog.Draft.Validation
import TypeCatalog.Proofs.Rule
import TypeCatalog.Proofs.Table

/-!
# Parts of types that are in order

What validation asks of fields, containers, views, extensions, limits, rules, data types and
descriptors.  Each check is described twice: by the condition under which it reports nothing, and
by the violations that it reports.

* `expect`, `expectSome`: the two shapes that most checks have.
* `TypeTable.FieldValid`, `TypeTable.ContainerValid`, ..., `TypeTable.DescriptorValid`: what the
  parts have to be like.
* `TypeTable.FieldViolates`, `TypeTable.ContainerViolates`, ..., `TypeTable.DescriptorViolates`:
  what is wrong with them otherwise.
-/

namespace TypeCatalog

/-! ## The shapes of checks

Most checks look something up that has to be there and has to fit, or select types that all have
to fit. -/

section Shapes

variable {α : Type} {v : Violation}

/-- What is reported of something that has to be found and has to fit. -/
def expect (found : Option α) (missing : Violation) (fits : α → Prop) [DecidablePred fits]
    (misfit : α → Violation) : List Violation :=
  match found with
  | none => [missing]
  | some t => if fits t then [] else [misfit t]

/-- What is reported of things of which there has to be one and that are all checked. -/
def expectSome (selected : List α) (nothing : Violation) (check : α → List Violation) :
    List Violation :=
  (if selected.isEmpty then [nothing] else []) ++ selected.flatMap check

section Lookup

variable {found : Option α} {missing : Violation} {misfit : α → Violation} {fits : α → Prop}
  [DecidablePred fits]

theorem expect_eq_nil_iff :
    expect found missing fits misfit = [] ↔ ∃ t, found = some t ∧ fits t := by
  unfold expect
  cases found with
  | none => simp
  | some t => by_cases condition : fits t <;> simp [condition]

theorem mem_expect_iff :
    v ∈ expect found missing fits misfit ↔
      (found = none ∧ v = missing) ∨ ∃ t, found = some t ∧ ¬ fits t ∧ v = misfit t := by
  unfold expect
  cases found with
  | none => simp
  | some t => by_cases condition : fits t <;> simp [condition]

end Lookup

section Selection

variable {selected : List α} {nothing : Violation} {check : α → List Violation}

theorem expectSome_eq_nil_iff :
    expectSome selected nothing check = [] ↔
      (∃ t, t ∈ selected) ∧ ∀ t ∈ selected, check t = [] := by
  unfold expectSome
  cases selected with
  | nil => simp
  | cons first rest => simp

theorem mem_expectSome_iff :
    v ∈ expectSome selected nothing check ↔
      ((∀ t, t ∉ selected) ∧ v = nothing) ∨ ∃ t ∈ selected, v ∈ check t := by
  unfold expectSome
  rw [List.mem_append, List.mem_flatMap, List.mem_ite_nil_right, List.isEmpty_iff,
    List.eq_nil_iff_forall_not_mem, List.mem_singleton]

end Selection

end Shapes

namespace TypeTable

variable {types : TypeTable} {t : TypeDef} {v : Violation} {ws : QName}

/-! ## Fields -/

/-- References lead to records or documents, and the constraints go together. -/
structure FieldValid (types : TypeTable) (field : Field) : Prop where
  targets : ∀ target ∈ field.targetList,
    ∃ t, types.resolve? target = some t ∧ t.kind.isRecord = true
  constraints : Constraint.conflicts field.constraints = []

inductive FieldViolates (types : TypeTable) (field : Field) : Violation → Prop
  | targetNotFound {target : QName} : target ∈ field.targetList → types.resolve? target = none →
    FieldViolates types field (.targetNotFound field.name target)
  | targetMisfit {target : QName} {t : TypeDef} : target ∈ field.targetList →
    types.resolve? target = some t → t.kind.isRecord ≠ true →
    FieldViolates types field (.targetMisfit field.name t.ref)
  | conflict {conflict : Constraint.Conflict} : conflict ∈ Constraint.conflicts field.constraints →
    FieldViolates types field (.fieldConflict field.name conflict)

theorem checkTarget_eq (types : TypeTable) (field : String) (target : QName) :
    types.checkTarget field target =
      expect (types.resolve? target) (.targetNotFound field target)
        (fun t => t.kind.isRecord = true) (fun t => .targetMisfit field t.ref) := by
  unfold checkTarget expect
  cases types.resolve? target <;> rfl

theorem checkField_eq_nil_iff {field : Field} :
    types.checkField field = [] ↔ types.FieldValid field := by
  unfold checkField
  rw [List.append_eq_nil_iff, List.flatMap_eq_nil_iff, List.map_eq_nil_iff]
  simp only [checkTarget_eq, expect_eq_nil_iff]
  exact ⟨fun clean => ⟨clean.1, clean.2⟩, fun valid => ⟨valid.targets, valid.constraints⟩⟩

theorem mem_checkField_iff {field : Field} :
    v ∈ types.checkField field ↔ types.FieldViolates field v := by
  unfold checkField
  rw [List.mem_append, List.mem_flatMap, List.mem_map]
  simp only [checkTarget_eq, mem_expect_iff]
  constructor
  · intro reported
    rcases reported with ⟨target, listed, ⟨missing, rfl⟩ | ⟨t, found, misfit, rfl⟩⟩ |
      ⟨conflict, listed, rfl⟩
    · exact .targetNotFound listed missing
    · exact .targetMisfit listed found misfit
    · exact .conflict listed
  · intro violates
    cases violates with
    | targetNotFound listed missing => exact .inl ⟨_, listed, .inl ⟨missing, rfl⟩⟩
    | targetMisfit listed found misfit => exact .inl ⟨_, listed, .inr ⟨_, found, misfit, rfl⟩⟩
    | conflict listed => exact .inr ⟨_, listed, rfl⟩

/-! ## Structures and views -/

def ContainerValid (types : TypeTable) (owner : TypeKind) (container : Container) : Prop :=
  ∃ t, types.resolve? container.target = some t ∧ owner.mayContain t.kind = true

inductive ContainerViolates (types : TypeTable) (owner : TypeKind) (container : Container) :
    Violation → Prop
  | notFound : types.resolve? container.target = none →
    ContainerViolates types owner container (.containerNotFound container.name container.target)
  | misfit {t : TypeDef} : types.resolve? container.target = some t →
    owner.mayContain t.kind ≠ true →
    ContainerViolates types owner container (.containerMisfit container.name owner t.ref)

theorem checkContainer_eq (types : TypeTable) (owner : TypeKind) (container : Container) :
    types.checkContainer owner container =
      expect (types.resolve? container.target) (.containerNotFound container.name container.target)
        (fun t => owner.mayContain t.kind = true)
        (fun t => .containerMisfit container.name owner t.ref) := by
  unfold checkContainer expect
  cases types.resolve? container.target <;> rfl

theorem checkContainer_eq_nil_iff {owner : TypeKind} {container : Container} :
    types.checkContainer owner container = [] ↔ types.ContainerValid owner container := by
  rw [checkContainer_eq, expect_eq_nil_iff]
  rfl

theorem mem_checkContainer_iff {owner : TypeKind} {container : Container} :
    v ∈ types.checkContainer owner container ↔ types.ContainerViolates owner container v := by
  rw [checkContainer_eq, mem_expect_iff]
  constructor
  · intro reported
    rcases reported with ⟨missing, rfl⟩ | ⟨t, found, misfit, rfl⟩
    · exact .notFound missing
    · exact .misfit found misfit
  · intro violates
    cases violates with
    | notFound missing => exact .inl ⟨missing, rfl⟩
    | misfit found misfit => exact .inr ⟨_, found, misfit, rfl⟩

/-- There are a partition key and clustering columns, and only the last of these has no fixed
width. -/
structure ViewValid (view : View) : Prop where
  partition : view.partition ≠ []
  clustering : view.clustering ≠ []
  fixed : ∀ column ∈ view.clustering.dropLast, ∀ field,
    Fields.get? view.fields column = some field → field.isFixedWidth = true

inductive ViewViolates (view : View) : Violation → Prop
  | noPartitionKey : view.partition = [] → ViewViolates view .noPartitionKey
  | noClusteringColumns : view.clustering = [] → ViewViolates view .noClusteringColumns
  | variableColumn {column : String} {field : Field} : column ∈ view.clustering.dropLast →
    Fields.get? view.fields column = some field → field.isFixedWidth ≠ true →
    ViewViolates view (.variableColumn column)

theorem isVariable_iff {view : View} {column : String} :
    isVariable view column = true ↔
      ∃ field, Fields.get? view.fields column = some field ∧ field.isFixedWidth ≠ true := by
  unfold isVariable
  cases Fields.get? view.fields column <;> simp

theorem checkView_eq_nil_iff {view : View} : checkView view = [] ↔ ViewValid view := by
  unfold checkView
  rw [List.append_eq_nil_iff, List.append_eq_nil_iff, List.map_eq_nil_iff, List.filter_eq_nil_iff]
  simp only [isVariable_iff, ite_eq_right_iff, List.cons_ne_nil, imp_false, List.isEmpty_iff]
  constructor
  · intro clean
    obtain ⟨⟨partition, clustering⟩, fixed⟩ := clean
    refine ⟨partition, clustering, fun column listed field known => ?_⟩
    exact Decidable.not_not.mp fun wide => fixed column listed ⟨field, known, wide⟩
  · intro valid
    refine ⟨⟨valid.partition, valid.clustering⟩, fun column listed isVariable => ?_⟩
    obtain ⟨field, known, wide⟩ := isVariable
    exact wide (valid.fixed column listed field known)

theorem mem_checkView_iff {view : View} : v ∈ checkView view ↔ ViewViolates view v := by
  unfold checkView
  rw [List.mem_append, List.mem_append, List.mem_map]
  simp only [List.mem_filter, isVariable_iff, List.isEmpty_iff, List.mem_ite_nil_right,
    List.mem_singleton]
  constructor
  · intro reported
    rcases reported with (⟨bare, rfl⟩ | ⟨bare, rfl⟩) | ⟨column, ⟨listed, field, known, wide⟩, rfl⟩
    · exact .noPartitionKey bare
    · exact .noClusteringColumns bare
    · exact .variableColumn listed known wide
  · intro violates
    cases violates with
    | noPartitionKey bare => exact .inl (.inl ⟨bare, rfl⟩)
    | noClusteringColumns bare => exact .inl (.inr ⟨bare, rfl⟩)
    | variableColumn listed known wide => exact .inr ⟨_, ⟨listed, _, known, wide⟩, rfl⟩

/-! ## Extensions -/

def SlotValid (types : TypeTable) (f : Callable) (slot : FunctionSlot) : Prop :=
  slot.of f = .null ∨ slot.of f = .any ∨
    ∃ t, types.resolve? (slot.of f) = some t ∧ slot.accepts t.kind = true

inductive SlotViolates (types : TypeTable) (f : Callable) (slot : FunctionSlot) : Violation → Prop
  | notFound : slot.of f ≠ .null → slot.of f ≠ .any → types.resolve? (slot.of f) = none →
    SlotViolates types f slot (.slotNotFound slot (slot.of f))
  | misfit {t : TypeDef} : slot.of f ≠ .null → slot.of f ≠ .any →
    types.resolve? (slot.of f) = some t → slot.accepts t.kind ≠ true →
    SlotViolates types f slot (.slotMisfit slot t.ref)

theorem checkSlot_eq (types : TypeTable) (f : Callable) (slot : FunctionSlot) :
    types.checkSlot f slot =
      if slot.of f = .null ∨ slot.of f = .any then []
      else expect (types.resolve? (slot.of f)) (.slotNotFound slot (slot.of f))
        (fun t => slot.accepts t.kind = true) (fun t => .slotMisfit slot t.ref) := by
  unfold checkSlot expect
  simp only [Bool.or_eq_true, QName.isNull_iff, beq_iff_eq]
  cases types.resolve? (slot.of f) <;> rfl

theorem checkSlot_eq_nil_iff {f : Callable} {slot : FunctionSlot} :
    types.checkSlot f slot = [] ↔ types.SlotValid f slot := by
  rw [checkSlot_eq]
  unfold SlotValid
  by_cases absent : slot.of f = .null ∨ slot.of f = .any
  · rw [if_pos absent]
    exact iff_of_true rfl (absent.imp_right .inl)
  · rw [if_neg absent, expect_eq_nil_iff]
    rw [not_or] at absent
    simp [absent.1, absent.2]

theorem mem_checkSlot_iff {f : Callable} {slot : FunctionSlot} :
    v ∈ types.checkSlot f slot ↔ types.SlotViolates f slot v := by
  rw [checkSlot_eq]
  by_cases absent : slot.of f = .null ∨ slot.of f = .any
  · rw [if_pos absent]
    refine iff_of_false List.not_mem_nil fun violates => ?_
    cases violates with
    | notFound notNull notAny _ | misfit notNull notAny _ _ =>
        rcases absent with isNull | isAny
        · exact notNull isNull
        · exact notAny isAny
  · rw [if_neg absent, mem_expect_iff]
    rw [not_or] at absent
    constructor
    · intro reported
      rcases reported with ⟨missing, rfl⟩ | ⟨t, found, misfit, rfl⟩
      · exact .notFound absent.1 absent.2 missing
      · exact .misfit absent.1 absent.2 found misfit
    · intro violates
      cases violates with
      | notFound _ _ missing => exact .inl ⟨missing, rfl⟩
      | misfit _ _ found misfit => exact .inr ⟨_, found, misfit, rfl⟩

/-- All the names that are used with a storage are there. -/
def StoragesValid (types : TypeTable) (storages : StorageUse) (side : StorageSide) : Prop :=
  ∀ (storage : QName) (use : Storage), (storages.get side)[storage]? = some use →
    ∀ name ∈ use.names, ∃ t, types.resolve? name = some t

inductive StoragesViolate (types : TypeTable) (storages : StorageUse) (side : StorageSide) :
    Violation → Prop
  | notFound {storage name : QName} {use : Storage} :
    (storages.get side)[storage]? = some use → name ∈ use.names → types.resolve? name = none →
    StoragesViolate types storages side (.storedNotFound side storage name)

theorem mem_checkStorages_iff {storages : StorageUse} {side : StorageSide} :
    v ∈ types.checkStorages storages side ↔ types.StoragesViolate storages side v := by
  unfold checkStorages
  rw [List.mem_flatMap]
  simp only [List.mem_map, List.mem_filter, Std.ExtTreeSet.mem_toList, Option.isNone_iff_eq_none]
  constructor
  · intro reported
    obtain ⟨⟨storage, use⟩, known, name, ⟨listed, missing⟩, rfl⟩ := reported
    exact .notFound (Std.ExtTreeMap.mem_toList_iff_getElem?_eq_some.mp known) listed missing
  · intro violates
    cases violates with
    | notFound known listed missing =>
        exact ⟨(_, _), Std.ExtTreeMap.mem_toList_iff_getElem?_eq_some.mpr known, _,
          ⟨listed, missing⟩, rfl⟩

theorem checkStorages_eq_nil_iff {storages : StorageUse} {side : StorageSide} :
    types.checkStorages storages side = [] ↔ types.StoragesValid storages side := by
  rw [List.eq_nil_iff_forall_not_mem]
  simp only [mem_checkStorages_iff]
  constructor
  · intro clean storage use known name listed
    cases found : types.resolve? name with
    | none => exact absurd (.notFound known listed found) (clean _)
    | some t => exact ⟨t, rfl⟩
  · intro valid v violates
    cases violates with
    | notFound known listed missing =>
        obtain ⟨t, found⟩ := valid _ _ known _ listed
        rw [found] at missing
        cases missing

/-! ## Selections -/

/-- The type is visible from the workspace and is selected. -/
def Matches (types : TypeTable) (ws : QName) (selector : Selector) (t : TypeDef) : Prop :=
  t ∈ types.visibleDefs ws ∧ selector.selects t = true

theorem mem_select_iff {selector : Selector} :
    t ∈ selector.select (types.visibleDefs ws) ↔ types.Matches ws selector t := List.mem_filter

structure EventValid (types : TypeTable) (ws : QName) (event : ProjectorEvent) : Prop where
  selects : ∃ t, types.Matches ws event.selector t
  available : ∀ t, types.Matches ws event.selector t →
    ∀ trigger ∈ event.triggers, trigger.availableFor t.kind = true

inductive EventViolates (types : TypeTable) (ws : QName) (event : ProjectorEvent) : Violation → Prop
  | selectsNothing : (∀ t, ¬ types.Matches ws event.selector t) →
    EventViolates types ws event (.eventSelectsNothing event.selector)
  | misfit {t : TypeDef} {trigger : Trigger} : types.Matches ws event.selector t →
    trigger ∈ event.triggers → trigger.availableFor t.kind ≠ true →
    EventViolates types ws event (.triggerMisfit trigger t.ref)

theorem checkEvent_eq_nil_iff {event : ProjectorEvent} :
    types.checkEvent ws event = [] ↔ types.EventValid ws event := by
  change expectSome _ _ _ = [] ↔ _
  rw [expectSome_eq_nil_iff]
  simp only [mem_select_iff, List.map_eq_nil_iff, List.filter_eq_nil_iff,
    Std.ExtTreeSet.mem_toList, Bool.not_eq_true', Bool.not_eq_false]
  exact ⟨fun clean => ⟨clean.1, clean.2⟩, fun valid => ⟨valid.selects, valid.available⟩⟩

theorem mem_checkEvent_iff {event : ProjectorEvent} :
    v ∈ types.checkEvent ws event ↔ types.EventViolates ws event v := by
  change v ∈ expectSome _ _ _ ↔ _
  rw [mem_expectSome_iff]
  simp only [mem_select_iff, List.mem_map, List.mem_filter, Std.ExtTreeSet.mem_toList,
    Bool.not_eq_true', ← Bool.not_eq_true]
  constructor
  · intro reported
    rcases reported with ⟨bare, rfl⟩ | ⟨t, selected, trigger, ⟨listed, misfit⟩, rfl⟩
    · exact .selectsNothing bare
    · exact .misfit selected listed misfit
  · intro violates
    cases violates with
    | selectsNothing bare => exact .inl ⟨bare, rfl⟩
    | misfit selected listed misfit => exact .inr ⟨_, selected, _, ⟨listed, misfit⟩, rfl⟩

structure LimitValid (types : TypeTable) (ws : QName) (limit : Limit) : Prop where
  rate : ∃ t, types.resolve? limit.rate = some t ∧ t.kind = .rate
  selects : ∃ t, types.Matches ws limit.selector t
  available : ∀ t, types.Matches ws limit.selector t →
    ∀ op ∈ limit.operations, op ∈ t.kind.operations

inductive LimitViolates (types : TypeTable) (ws : QName) (limit : Limit) : Violation → Prop
  | rateNotFound : types.resolve? limit.rate = none →
    LimitViolates types ws limit (.rateNotFound limit.rate)
  | rateMisfit {t : TypeDef} : types.resolve? limit.rate = some t → t.kind ≠ .rate →
    LimitViolates types ws limit (.rateMisfit t.ref)
  | selectsNothing : (∀ t, ¬ types.Matches ws limit.selector t) →
    LimitViolates types ws limit (.limitSelectsNothing limit.selector)
  | misfit {t : TypeDef} {op : Operation} : types.Matches ws limit.selector t →
    op ∈ limit.operations → op ∉ t.kind.operations →
    LimitViolates types ws limit (.limitMisfit op t.ref)

theorem checkRate_eq (types : TypeTable) (rate : QName) :
    types.checkRate rate =
      expect (types.resolve? rate) (.rateNotFound rate) (fun t => t.kind = .rate)
        (fun t => .rateMisfit t.ref) := by
  unfold checkRate expect
  cases types.resolve? rate <;> rfl

theorem checkLimit_eq_nil_iff {limit : Limit} :
    types.checkRate limit.rate ++ types.checkLimited ws limit = [] ↔ types.LimitValid ws limit := by
  rw [List.append_eq_nil_iff, checkRate_eq, expect_eq_nil_iff]
  change _ ∧ expectSome _ _ _ = [] ↔ _
  rw [expectSome_eq_nil_iff]
  simp only [mem_select_iff, List.map_eq_nil_iff, List.filter_eq_nil_iff,
    Std.ExtTreeSet.mem_toList, Bool.not_eq_true', Bool.not_eq_false, List.contains_iff_mem]
  exact ⟨fun clean => ⟨clean.1, clean.2.1, clean.2.2⟩,
    fun valid => ⟨valid.rate, valid.selects, valid.available⟩⟩

theorem mem_checkLimit_iff {limit : Limit} :
    v ∈ types.checkRate limit.rate ++ types.checkLimited ws limit ↔
      types.LimitViolates ws limit v := by
  rw [List.mem_append, checkRate_eq, mem_expect_iff]
  change _ ∨ v ∈ expectSome _ _ _ ↔ _
  rw [mem_expectSome_iff]
  simp only [mem_select_iff, List.mem_map, List.mem_filter, Std.ExtTreeSet.mem_toList,
    Bool.not_eq_true', ← Bool.not_eq_true, List.contains_iff_mem]
  constructor
  · intro reported
    rcases reported with (⟨missing, rfl⟩ | ⟨t, found, misfit, rfl⟩) |
      (⟨bare, rfl⟩ | ⟨t, selected, op, ⟨listed, misfit⟩, rfl⟩)
    · exact .rateNotFound missing
    · exact .rateMisfit found misfit
    · exact .selectsNothing bare
    · exact .misfit selected listed misfit
  · intro violates
    cases violates with
    | rateNotFound missing => exact .inl (.inl ⟨missing, rfl⟩)
    | rateMisfit found misfit => exact .inl (.inr ⟨_, found, misfit, rfl⟩)
    | selectsNothing bare => exact .inr (.inl ⟨bare, rfl⟩)
    | misfit selected listed misfit => exact .inr (.inr ⟨_, selected, _, ⟨listed, misfit⟩, rfl⟩)

structure RuleValid (types : TypeTable) (rule : Rule) : Prop where
  selects : ∃ t, types.Matches rule.workspace rule.selector t
  fits : ∀ t, types.Matches rule.workspace rule.selector t →
    Rule.FitsOn rule.operations rule.fields t

inductive RuleViolates (types : TypeTable) (rule : Rule) : Violation → Prop
  | selectsNothing : (∀ t, ¬ types.Matches rule.workspace rule.selector t) →
    RuleViolates types rule (.ruleSelectsNothing rule)
  | misfit {t : TypeDef} {error : DefinitionError} :
    types.Matches rule.workspace rule.selector t →
    Rule.checkOn rule.operations rule.fields t = .error error →
    RuleViolates types rule (.ruleMisfit rule error)

theorem checkRuleOn_eq_nil_iff {rule : Rule} :
    checkRuleOn rule t = [] ↔ Rule.FitsOn rule.operations rule.fields t := by
  rw [← Rule.checkOn_eq_ok_iff]
  unfold checkRuleOn
  cases Rule.checkOn rule.operations rule.fields t <;> simp

theorem mem_checkRuleOn_iff {rule : Rule} :
    v ∈ checkRuleOn rule t ↔
      ∃ error, Rule.checkOn rule.operations rule.fields t = .error error ∧
        .ruleMisfit rule error = v := by
  unfold checkRuleOn
  cases Rule.checkOn rule.operations rule.fields t <;> simp [eq_comm]

theorem checkRule_eq_nil_iff {rule : Rule} : types.checkRule rule = [] ↔ types.RuleValid rule := by
  change expectSome _ _ _ = [] ↔ _
  rw [expectSome_eq_nil_iff]
  simp only [mem_select_iff, checkRuleOn_eq_nil_iff]
  exact ⟨fun clean => ⟨clean.1, clean.2⟩, fun valid => ⟨valid.selects, valid.fits⟩⟩

theorem mem_checkRule_iff {rule : Rule} :
    v ∈ types.checkRule rule ↔ types.RuleViolates rule v := by
  change v ∈ expectSome _ _ _ ↔ _
  rw [mem_expectSome_iff]
  simp only [mem_select_iff, mem_checkRuleOn_iff]
  constructor
  · intro reported
    rcases reported with ⟨bare, rfl⟩ | ⟨t, selected, error, refused, rfl⟩
    · exact .selectsNothing bare
    · exact .misfit selected refused
  · intro violates
    cases violates with
    | selectsNothing bare => exact .inl ⟨bare, rfl⟩
    | misfit selected refused => exact .inr ⟨_, selected, _, refused, rfl⟩

/-! ## Data types and descriptors -/

/-- The ancestor, if there is one, is a data type of the same kind. -/
def AncestorValid (types : TypeTable) (data : DataType) : Prop :=
  data.ancestor = .null ∨ ∃ t parent, types.resolve? data.ancestor = some t ∧
    t.data? = some parent ∧ parent.kind = data.kind

structure DataValid (types : TypeTable) (name : QName) (data : DataType) : Prop where
  ancestor : types.AncestorValid data
  constraints : Constraint.conflicts (types.effectiveConstraints name) = []

inductive DataViolates (types : TypeTable) (name : QName) (data : DataType) : Violation → Prop
  | ancestorNotFound : data.ancestor ≠ .null →
    (∀ t, types.resolve? data.ancestor = some t → t.data? = none) →
    DataViolates types name data (.ancestorNotFound data.ancestor)
  | ancestorMisfit {t : TypeDef} {parent : DataType} : data.ancestor ≠ .null →
    types.resolve? data.ancestor = some t → t.data? = some parent → parent.kind ≠ data.kind →
    DataViolates types name data (.ancestorMisfit data.kind t.ref parent.kind)
  | conflict {conflict : Constraint.Conflict} :
    conflict ∈ Constraint.conflicts (types.effectiveConstraints name) →
    DataViolates types name data (.dataConflict conflict)

/-- The data type with the given name, together with its body. -/
def dataWithBody? (types : TypeTable) (name : QName) : Option (TypeDef × DataType) :=
  (types.resolve? name).bind fun t => t.data?.map (t, ·)

theorem dataWithBody?_eq_some_iff {name : QName} {data : DataType} :
    types.dataWithBody? name = some (t, data) ↔
      types.resolve? name = some t ∧ t.data? = some data := by
  unfold dataWithBody?
  simp only [Option.bind_eq_some_iff, Option.map_eq_some_iff, Prod.mk.injEq]
  constructor
  · intro holds
    obtain ⟨_, found, _, isData, rfl, rfl⟩ := holds
    exact ⟨found, isData⟩
  · intro holds
    exact ⟨t, holds.1, data, holds.2, rfl, rfl⟩

theorem dataWithBody?_eq_none_iff {name : QName} :
    types.dataWithBody? name = none ↔ ∀ t, types.resolve? name = some t → t.data? = none := by
  unfold dataWithBody?
  simp only [Option.bind_eq_none_iff, Option.map_eq_none_iff]

theorem checkAncestor_eq (types : TypeTable) (data : DataType) :
    types.checkAncestor data =
      if data.ancestor = .null then []
      else expect (types.dataWithBody? data.ancestor) (.ancestorNotFound data.ancestor)
        (fun found => found.2.kind = data.kind)
        (fun found => .ancestorMisfit data.kind found.1.ref found.2.kind) := by
  unfold checkAncestor expect dataWithBody?
  simp only [QName.isNull_iff]
  cases (types.resolve? data.ancestor).bind fun t => t.data?.map (t, ·) <;> rfl

theorem checkAncestor_eq_nil_iff {data : DataType} :
    types.checkAncestor data = [] ↔ types.AncestorValid data := by
  rw [checkAncestor_eq]
  unfold AncestorValid
  by_cases absent : data.ancestor = .null
  · rw [if_pos absent]
    exact iff_of_true rfl (.inl absent)
  · rw [if_neg absent, expect_eq_nil_iff, or_iff_right absent]
    simp only [Prod.exists, dataWithBody?_eq_some_iff, and_assoc]

theorem checkData_eq_nil_iff {name : QName} {data : DataType} :
    types.checkAncestor data ++
      (Constraint.conflicts (types.effectiveConstraints name)).map .dataConflict = [] ↔
      types.DataValid name data := by
  rw [List.append_eq_nil_iff, List.map_eq_nil_iff, checkAncestor_eq_nil_iff]
  exact ⟨fun clean => ⟨clean.1, clean.2⟩, fun valid => ⟨valid.ancestor, valid.constraints⟩⟩

theorem mem_checkData_iff {name : QName} {data : DataType} :
    v ∈ types.checkAncestor data ++
      (Constraint.conflicts (types.effectiveConstraints name)).map .dataConflict ↔
      types.DataViolates name data v := by
  rw [List.mem_append, List.mem_map, checkAncestor_eq]
  constructor
  · intro reported
    rcases reported with reported | ⟨conflict, listed, rfl⟩
    · split at reported
      next => cases reported
      next present =>
        rcases mem_expect_iff.mp reported with ⟨missing, rfl⟩ | ⟨⟨t, parent⟩, found, misfit, rfl⟩
        · exact .ancestorNotFound present (dataWithBody?_eq_none_iff.mp missing)
        · obtain ⟨found, isData⟩ := dataWithBody?_eq_some_iff.mp found
          exact .ancestorMisfit present found isData misfit
    · exact .conflict listed
  · intro violates
    cases violates with
    | ancestorNotFound present missing =>
        rw [if_neg present]
        exact .inl (mem_expect_iff.mpr (.inl ⟨dataWithBody?_eq_none_iff.mpr missing, rfl⟩))
    | ancestorMisfit present found isData misfit =>
        rw [if_neg present]
        exact .inl (mem_expect_iff.mpr
          (.inr ⟨(_, _), dataWithBody?_eq_some_iff.mpr ⟨found, isData⟩, misfit, rfl⟩))
    | conflict listed => exact .inr ⟨_, listed, rfl⟩

/-- The descriptor, if there is one, is a configuration document, and abstract only where the
workspace is. -/
def DescriptorValid (types : TypeTable) (owner : TypeDef) (ws : Workspace) : Prop :=
  ∀ descriptor, ws.descriptor = some descriptor → ∃ t, types.resolve? descriptor = some t ∧
    t.kind = .cDoc ∧ (t.isAbstract = true → owner.isAbstract = true)

inductive DescriptorViolates (types : TypeTable) (owner : TypeDef) (ws : Workspace) :
    Violation → Prop
  | notFound {descriptor : QName} : ws.descriptor = some descriptor →
    types.resolve? descriptor = none →
    DescriptorViolates types owner ws (.descriptorNotFound descriptor)
  | misfit {descriptor : QName} {t : TypeDef} : ws.descriptor = some descriptor →
    types.resolve? descriptor = some t → t.kind ≠ .cDoc →
    DescriptorViolates types owner ws (.descriptorMisfit t.ref)
  | isAbstract {descriptor : QName} {t : TypeDef} : ws.descriptor = some descriptor →
    types.resolve? descriptor = some t → t.kind = .cDoc → t.isAbstract = true →
    owner.isAbstract ≠ true → DescriptorViolates types owner ws (.descriptorAbstract t.ref)

theorem mem_checkDescriptor_iff {owner : TypeDef} {home : Workspace} :
    v ∈ types.checkDescriptor owner home ↔ types.DescriptorViolates owner home v := by
  unfold checkDescriptor
  constructor
  · intro reported
    split at reported
    next => cases reported
    next descriptor described =>
      split at reported
      next missing =>
        cases List.mem_singleton.mp reported
        exact .notFound described missing
      next t found =>
        split at reported
        next misfit =>
          cases List.mem_singleton.mp reported
          exact .misfit described found misfit
        next isDocument =>
          split at reported
          next isAbstract =>
            cases List.mem_singleton.mp reported
            simp only [Bool.and_eq_true, Bool.not_eq_true'] at isAbstract
            exact .isAbstract described found (Decidable.not_not.mp isDocument) isAbstract.1
              (by simp [isAbstract.2])
          next => cases reported
  · intro violates
    cases violates with
    | notFound described missing => simp [described, missing]
    | misfit described found misfit => simp [described, found, misfit]
    | isAbstract described found isDocument isAbstract notAbstract =>
        simp [described, found, isDocument, isAbstract, notAbstract]

theorem checkDescriptor_eq_nil_iff {owner : TypeDef} {home : Workspace} :
    types.checkDescriptor owner home = [] ↔ types.DescriptorValid owner home := by
  unfold checkDescriptor DescriptorValid
  cases home.descriptor with
  | none => simp
  | some descriptor =>
      cases found : types.resolve? descriptor with
      | none => simp [found]
      | some t =>
          by_cases isDocument : t.kind = .cDoc <;>
            cases isAbstract : t.isAbstract <;> simp [found, isDocument, isAbstract]

end TypeTable

end TypeCatalog
