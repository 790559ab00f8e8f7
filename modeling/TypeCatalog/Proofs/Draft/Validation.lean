import TypeCatalog.Proofs.BuiltCatalog
import TypeCatalog.Proofs.Draft.Parts

/-!
# What validation accepts and what it reports

Validation is a single pass of checks that do not know of each other, so that what it says of a
draft is put together from what it says of the parts of types and rules.

* `TypeTable.TypeValid`, `Draft.Valid`: what types and drafts have to be like.
* `TypeTable.TypeViolates`, `Draft.Violates`: what a violation says, whatever else is wrong.
* `Draft.Reachable.validated`: validation is silent on the valid drafts and reports every violation
  of the others.
-/

namespace TypeCatalog

namespace TypeTable

variable {types : TypeTable} {t : TypeDef} {v : Violation}

/-! ## Bodies -/

structure FunctionValid (types : TypeTable) (f : Callable) : Prop where
  slots : ∀ slot, types.SlotValid f slot
  storages : ∀ side, types.StoragesValid f.storages side

structure ProjectorValid (types : TypeTable) (ws : QName) (p : Projector) : Prop where
  events : p.events ≠ []
  event : ∀ event ∈ p.events, types.EventValid ws event
  storages : ∀ side, types.StoragesValid p.storages side

structure JobValid (types : TypeTable) (j : Job) : Prop where
  schedule : Schedule.check j.schedule = .ok ()
  states : types.StoragesValid j.storages .states
  intents : j.storages.intents.isEmpty = true

/-- The body of a type is in order. -/
def BodyValid (types : TypeTable) (t : TypeDef) : Prop :=
  match t.body with
  | .null | .any | .role | .tag _ | .rate _ => True
  | .data data => types.DataValid t.name data
  | .structured s => ∀ container ∈ s.containers, types.ContainerValid t.kind container
  | .view view => ViewValid view
  | .function f => types.FunctionValid f
  | .projector p => types.ProjectorValid t.workspace p
  | .job j => types.JobValid j
  | .workspace home => types.DescriptorValid t home
  | .limit limit => types.LimitValid t.workspace limit

inductive BodyViolates (types : TypeTable) (t : TypeDef) : Violation → Prop
  | data {data : DataType} {v : Violation} : t.body = .data data →
    types.DataViolates t.name data v → BodyViolates types t v
  | container {s : Structure} {container : Container} {v : Violation} : t.body = .structured s →
    container ∈ s.containers → types.ContainerViolates t.kind container v → BodyViolates types t v
  | view {view : View} {v : Violation} : t.body = .view view → ViewViolates view v →
    BodyViolates types t v
  | slot {f : Callable} {slot : FunctionSlot} {v : Violation} : t.body = .function f →
    types.SlotViolates f slot v → BodyViolates types t v
  | functionStorages {f : Callable} {side : StorageSide} {v : Violation} : t.body = .function f →
    types.StoragesViolate f.storages side v → BodyViolates types t v
  | noEvents {p : Projector} : t.body = .projector p → p.events = [] →
    BodyViolates types t .noEvents
  | event {p : Projector} {event : ProjectorEvent} {v : Violation} : t.body = .projector p →
    event ∈ p.events → types.EventViolates t.workspace event v → BodyViolates types t v
  | projectorStorages {p : Projector} {side : StorageSide} {v : Violation} :
    t.body = .projector p → types.StoragesViolate p.storages side v → BodyViolates types t v
  | schedule {j : Job} {flaw : Schedule.Flaw} : t.body = .job j →
    Schedule.check j.schedule = .error flaw →
    BodyViolates types t (.badSchedule j.schedule flaw)
  | jobStates {j : Job} {v : Violation} : t.body = .job j →
    types.StoragesViolate j.storages .states v → BodyViolates types t v
  | jobIntents {j : Job} : t.body = .job j → j.storages.intents.isEmpty ≠ true →
    BodyViolates types t .jobIntents
  | descriptor {home : Workspace} {v : Violation} : t.body = .workspace home →
    types.DescriptorViolates t home v → BodyViolates types t v
  | limit {limit : Limit} {v : Violation} : t.body = .limit limit →
    types.LimitViolates t.workspace limit v → BodyViolates types t v

theorem checkSchedule_eq_nil_iff {schedule : String} :
    checkSchedule schedule = [] ↔ Schedule.check schedule = .ok () := by
  unfold checkSchedule
  cases Schedule.check schedule <;> simp

theorem mem_checkSchedule_iff {schedule : String} :
    v ∈ checkSchedule schedule ↔
      ∃ flaw, Schedule.check schedule = .error flaw ∧ .badSchedule schedule flaw = v := by
  unfold checkSchedule
  cases Schedule.check schedule <;> simp [eq_comm]

theorem checkBody_eq_nil_iff : types.checkBody t = [] ↔ types.BodyValid t := by
  unfold checkBody BodyValid
  cases body : t.body with
  | null | any | role | tag _ | rate _ => simp
  | data data => exact checkData_eq_nil_iff
  | structured s => simp only [List.flatMap_eq_nil_iff, checkContainer_eq_nil_iff]
  | view view => exact checkView_eq_nil_iff
  | function f =>
      simp only [List.append_eq_nil_iff, checkSlot_eq_nil_iff, checkStorages_eq_nil_iff]
      constructor
      · intro clean
        obtain ⟨⟨⟨⟨param, unlogged⟩, result⟩, states⟩, intents⟩ := clean
        exact ⟨fun slot => by cases slot <;> assumption, fun side => by cases side <;> assumption⟩
      · intro valid
        exact ⟨⟨⟨⟨valid.slots _, valid.slots _⟩, valid.slots _⟩, valid.storages _⟩,
          valid.storages _⟩
  | projector p =>
      simp only [List.append_eq_nil_iff, List.flatMap_eq_nil_iff, checkEvent_eq_nil_iff,
        checkStorages_eq_nil_iff, ite_eq_right_iff, List.cons_ne_nil, imp_false, List.isEmpty_iff]
      constructor
      · intro clean
        obtain ⟨⟨⟨some, events⟩, states⟩, intents⟩ := clean
        exact ⟨some, events, fun side => by cases side <;> assumption⟩
      · intro valid
        exact ⟨⟨⟨valid.events, valid.event⟩, valid.storages _⟩, valid.storages _⟩
  | job j =>
      simp only [List.append_eq_nil_iff, checkSchedule_eq_nil_iff, checkStorages_eq_nil_iff,
        ite_eq_left_iff, List.cons_ne_nil, imp_false, Decidable.not_not]
      exact ⟨fun clean => ⟨clean.1.1, clean.1.2, clean.2⟩,
        fun valid => ⟨⟨valid.schedule, valid.states⟩, valid.intents⟩⟩
  | workspace home => exact checkDescriptor_eq_nil_iff
  | limit limit => exact checkLimit_eq_nil_iff

theorem mem_checkBody_of_violates (violates : types.BodyViolates t v) : v ∈ types.checkBody t := by
  unfold checkBody
  cases violates with
  | data body violates =>
      rw [body]
      exact mem_checkData_iff.mpr violates
  | container body listed violates =>
      rw [body]
      exact List.mem_flatMap.mpr ⟨_, listed, mem_checkContainer_iff.mpr violates⟩
  | view body violates =>
      rw [body]
      exact mem_checkView_iff.mpr violates
  | @slot _ slot _ body violates =>
      rw [body]
      have reported := mem_checkSlot_iff.mpr violates
      cases slot <;> simp [reported]
  | @functionStorages _ side _ body violates =>
      rw [body]
      have reported := mem_checkStorages_iff.mpr violates
      cases side <;> simp [reported]
  | noEvents body none =>
      rw [body]
      simp [none]
  | event body listed violates =>
      rw [body]
      have reported := List.mem_flatMap.mpr ⟨_, listed, mem_checkEvent_iff.mpr violates⟩
      simp only [List.mem_append, reported, or_true, true_or]
  | @projectorStorages _ side _ body violates =>
      rw [body]
      have reported := mem_checkStorages_iff.mpr violates
      cases side <;> simp [reported]
  | schedule body refused =>
      rw [body]
      have reported := mem_checkSchedule_iff.mpr ⟨_, refused, rfl⟩
      simp [reported]
  | jobStates body violates =>
      rw [body]
      simp [mem_checkStorages_iff.mpr violates]
  | jobIntents body some =>
      rw [body]
      simp [some]
  | descriptor body violates =>
      rw [body]
      exact mem_checkDescriptor_iff.mpr violates
  | limit body violates =>
      rw [body]
      exact mem_checkLimit_iff.mpr violates

theorem violates_of_mem_checkBody (reported : v ∈ types.checkBody t) : types.BodyViolates t v := by
  unfold checkBody at reported
  cases body : t.body with
  | null | any | role | tag _ | rate _ =>
      rw [body] at reported
      cases reported
  | data data =>
      rw [body] at reported
      exact .data body (mem_checkData_iff.mp reported)
  | structured s =>
      rw [body] at reported
      obtain ⟨container, listed, reported⟩ := List.mem_flatMap.mp reported
      exact .container body listed (mem_checkContainer_iff.mp reported)
  | view view =>
      rw [body] at reported
      exact .view body (mem_checkView_iff.mp reported)
  | function f =>
      rw [body] at reported
      simp only [List.mem_append, mem_checkSlot_iff, mem_checkStorages_iff] at reported
      rcases reported with (((violates | violates) | violates) | violates) | violates
      · exact .slot body violates
      · exact .slot body violates
      · exact .slot body violates
      · exact .functionStorages body violates
      · exact .functionStorages body violates
  | projector p =>
      rw [body] at reported
      simp only [List.mem_append, List.mem_flatMap, mem_checkEvent_iff, mem_checkStorages_iff,
        List.mem_ite_nil_right, List.isEmpty_iff, List.mem_singleton] at reported
      rcases reported with ((⟨none, rfl⟩ | ⟨event, listed, violates⟩) | violates) | violates
      · exact .noEvents body none
      · exact .event body listed violates
      · exact .projectorStorages body violates
      · exact .projectorStorages body violates
  | job j =>
      rw [body] at reported
      simp only [List.mem_append, mem_checkSchedule_iff, mem_checkStorages_iff,
        List.mem_ite_nil_left, List.mem_singleton] at reported
      rcases reported with (⟨flaw, refused, rfl⟩ | violates) | ⟨some, rfl⟩
      · exact .schedule body refused
      · exact .jobStates body violates
      · exact .jobIntents body some
  | workspace home =>
      rw [body] at reported
      exact .descriptor body (mem_checkDescriptor_iff.mp reported)
  | limit limit =>
      rw [body] at reported
      exact .limit body (mem_checkLimit_iff.mp reported)

/-! ## Types -/

/-- The fields that were declared and the body of a type are in order. -/
structure TypeValid (types : TypeTable) (t : TypeDef) : Prop where
  fields : ∀ fields, t.fields? = some fields → ∀ field ∈ Fields.ofUser fields,
    types.FieldValid field
  body : types.BodyValid t

inductive TypeViolates (types : TypeTable) (t : TypeDef) : Violation → Prop
  | field {fields : Fields} {field : Field} {v : Violation} : t.fields? = some fields →
    field ∈ Fields.ofUser fields → types.FieldViolates field v → TypeViolates types t v
  | body {v : Violation} : types.BodyViolates t v → TypeViolates types t v

theorem checkType_eq_nil_iff : types.checkType t = [] ↔ types.TypeValid t := by
  have fields : types.checkFields t = [] ↔ ∀ fields, t.fields? = some fields →
      ∀ field ∈ Fields.ofUser fields, types.FieldValid field := by
    unfold checkFields
    cases t.fields? with
    | none => simp
    | some fields => simp [List.flatMap_eq_nil_iff, checkField_eq_nil_iff]
  unfold checkType
  rw [List.append_eq_nil_iff, fields, checkBody_eq_nil_iff]
  exact ⟨fun clean => ⟨clean.1, clean.2⟩, fun valid => ⟨valid.fields, valid.body⟩⟩

theorem mem_checkType_iff : v ∈ types.checkType t ↔ types.TypeViolates t v := by
  unfold checkType checkFields
  rw [List.mem_append]
  constructor
  · intro reported
    rcases reported with reported | reported
    · cases has : t.fields? with
      | none =>
          rw [has] at reported
          cases reported
      | some fields =>
          rw [has] at reported
          obtain ⟨field, listed, reported⟩ := List.mem_flatMap.mp reported
          exact .field has listed (mem_checkField_iff.mp reported)
    · exact .body (violates_of_mem_checkBody reported)
  · intro violates
    cases violates with
    | field has listed violates =>
        rw [has]
        exact .inl (List.mem_flatMap.mpr ⟨_, listed, mem_checkField_iff.mpr violates⟩)
    | body violates => exact .inr (mem_checkBody_of_violates violates)

end TypeTable

/-! ## Drafts -/

namespace Draft

variable {draft : Draft} {owner : QName} {violation : Violation}

/-- All types and all rules are in order. -/
structure Valid (draft : Draft) : Prop where
  types : ∀ (name : QName) (t : TypeDef), draft.types[name]? = some t → draft.types.TypeValid t
  rules : ∀ rule ∈ draft.rules, draft.types.RuleValid rule

/-- The violation comes about in the type with the given name, or in a rule of the workspace with
the given name. -/
inductive Violates (draft : Draft) : QName → Violation → Prop
  | type {name : QName} {t : TypeDef} {violation : Violation} : draft.types[name]? = some t →
    draft.types.TypeViolates t violation → Violates draft name violation
  | rule {rule : Rule} {violation : Violation} : rule ∈ draft.rules →
    draft.types.RuleViolates rule violation → Violates draft rule.workspace violation

theorem findings_eq_nil_iff : draft.findings = [] ↔ draft.Valid := by
  unfold findings
  rw [List.append_eq_nil_iff, List.flatMap_eq_nil_iff, List.flatMap_eq_nil_iff]
  simp only [List.map_eq_nil_iff, TypeTable.mem_defs_iff, TypeTable.checkType_eq_nil_iff,
    TypeTable.checkRule_eq_nil_iff]
  constructor
  · intro clean
    exact ⟨fun name t found => clean.1 t ⟨name, found⟩, clean.2⟩
  · intro valid
    refine ⟨fun t found => ?_, valid.rules⟩
    obtain ⟨name, found⟩ := found
    exact valid.types name t found

/-- Findings name the types and workspaces that they are about. -/
theorem WellFormed.mem_findings_iff (wellFormed : draft.WellFormed) :
    ⟨owner, violation⟩ ∈ draft.findings ↔ draft.Violates owner violation := by
  unfold findings
  simp only [List.mem_append, List.mem_flatMap, List.mem_map, TypeTable.mem_defs_iff,
    TypeTable.mem_checkType_iff, TypeTable.mem_checkRule_iff, Finding.mk.injEq]
  constructor
  · intro reported
    rcases reported with ⟨t, ⟨name, found⟩, _, violates, rfl, rfl⟩ |
      ⟨rule, listed, _, violates, rfl, rfl⟩
    · rw [wellFormed.named found]
      exact .type found violates
    · exact .rule listed violates
  · intro violates
    cases violates with
    | type found violates =>
        exact .inl ⟨_, ⟨_, found⟩, _, violates, wellFormed.named found, rfl⟩
    | rule listed violates => exact .inr ⟨_, listed, _, violates, rfl, rfl⟩

end Draft

end TypeCatalog
