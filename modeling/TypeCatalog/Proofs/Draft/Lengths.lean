import TypeCatalog.Proofs.Draft.FieldConstraints
import TypeCatalog.Proofs.Draft.Overriding
import TypeCatalog.Proofs.Draft.Validation

/-!
# Contradictions of lengths

A list of constraints may have several least and several greatest lengths.  Contradictions are
looked for between the first of each, and inheritance leaves those of one data type together.

* `Constraint.reportsLengths_iff`: a contradiction is reported if the first least length exceeds the
  first greatest length.
* `Constraint.lengthsAgree_iff`: lengths that agree with each other agree all at once.
* `Draft.Reachable.lengths_agree_of_build`: what is reported is a contradiction, and the data types
  of a built catalog are free of contradictions if they declare their tightest lengths first.
* `Draft.not_forall_lengths_agree`: otherwise they need not be.
-/

namespace TypeCatalog

/-! ## Lengths of a list -/

namespace Constraint

variable {list : List Constraint}

/-- Values of the given length are neither too short nor too long for the constraint. -/
def Admits (length : Nat) : Constraint → Prop
  | minLen least => least ≤ length
  | maxLen greatest => length ≤ greatest
  | _ => True

/-- There is a length that all constraints of the list admit. -/
def LengthsAgree (list : List Constraint) : Prop := ∃ length, ∀ c ∈ list, c.Admits length

/-- A contradiction between two lengths is among the conflicts of the list. -/
def ReportsLengths (list : List Constraint) : Prop :=
  ∃ least greatest, Conflict.lengths least greatest ∈ conflicts list

def leastLengths (list : List Constraint) : List Nat := list.filterMap minLength?

def greatestLengths (list : List Constraint) : List Nat := list.filterMap maxLength?

/-- There is a length that the first constraints on either side admit. -/
def FirstLengthsAgree (list : List Constraint) : Prop :=
  ∃ length, (∀ least ∈ (leastLengths list).head?, least ≤ length) ∧
    ∀ greatest ∈ (greatestLengths list).head?, length ≤ greatest

/-- The first constraints on either side are the tightest ones. -/
structure TightestFirst (list : List Constraint) : Prop where
  least : ∀ first ∈ (leastLengths list).head?, ∀ least ∈ leastLengths list, least ≤ first
  greatest : ∀ first ∈ (greatestLengths list).head?, ∀ greatest ∈ greatestLengths list,
    first ≤ greatest

theorem minLength?_eq_some_iff {c : Constraint} {least : Nat} :
    c.minLength? = some least ↔ c = minLen least := by
  cases c <;> simp [minLength?]

theorem maxLength?_eq_some_iff {c : Constraint} {greatest : Nat} :
    c.maxLength? = some greatest ↔ c = maxLen greatest := by
  cases c <;> simp [maxLength?]

theorem mem_leastLengths_iff {least : Nat} : least ∈ leastLengths list ↔ minLen least ∈ list := by
  unfold leastLengths
  simp only [List.mem_filterMap, minLength?_eq_some_iff, exists_eq_right]

theorem mem_greatestLengths_iff {greatest : Nat} :
    greatest ∈ greatestLengths list ↔ maxLen greatest ∈ list := by
  unfold greatestLengths
  simp only [List.mem_filterMap, maxLength?_eq_some_iff, exists_eq_right]

/-- A length is admitted if it lies between all least and all greatest lengths. -/
theorem forall_admits_iff {length : Nat} :
    (∀ c ∈ list, c.Admits length) ↔
      (∀ least ∈ leastLengths list, least ≤ length) ∧
        ∀ greatest ∈ greatestLengths list, length ≤ greatest := by
  simp only [mem_leastLengths_iff, mem_greatestLengths_iff]
  constructor
  · intro admitted
    exact ⟨fun least listed => admitted _ listed, fun greatest listed => admitted _ listed⟩
  · intro between c listed
    cases c with
    | minLen least => exact between.1 least listed
    | maxLen greatest => exact between.2 greatest listed
    | _ => trivial

/-- Lower and upper bounds leave room if no lower bound exceeds an upper one: there is room at the
greatest lower bound. -/
theorem exists_between_iff (lower upper : List Nat) :
    (∃ length, (∀ least ∈ lower, least ≤ length) ∧ ∀ greatest ∈ upper, length ≤ greatest) ↔
      ∀ least ∈ lower, ∀ greatest ∈ upper, least ≤ greatest := by
  constructor
  · intro room least isLower greatest isUpper
    obtain ⟨length, above, below⟩ := room
    exact (above least isLower).trans (below greatest isUpper)
  · intro ordered
    refine ⟨lower.max?.getD 0, fun least isLower => ?_, fun greatest isUpper => ?_⟩
    · exact List.le_max?_getD_of_mem isLower
    · cases most : lower.max? with
      | none => exact Nat.zero_le _
      | some least => exact ordered least (List.max?_mem most) greatest isUpper

theorem lengthsAgree_iff :
    LengthsAgree list ↔
      ∀ least ∈ leastLengths list, ∀ greatest ∈ greatestLengths list, least ≤ greatest := by
  unfold LengthsAgree
  simp only [forall_admits_iff]
  exact exists_between_iff _ _

theorem firstLengthsAgree_iff :
    FirstLengthsAgree list ↔
      ∀ least ∈ (leastLengths list).head?, ∀ greatest ∈ (greatestLengths list).head?,
        least ≤ greatest := by
  have room := exists_between_iff (leastLengths list).head?.toList
    (greatestLengths list).head?.toList
  simp only [Option.mem_toList] at room
  exact room

theorem LengthsAgree.first (agree : LengthsAgree list) : FirstLengthsAgree list := by
  rw [firstLengthsAgree_iff]
  intro least isLeast greatest isGreatest
  exact lengthsAgree_iff.mp agree least (List.mem_of_head? isLeast) greatest
    (List.mem_of_head? isGreatest)

theorem exists_head?_of_mem {lengths : List Nat} {length : Nat} (listed : length ∈ lengths) :
    ∃ first, first ∈ lengths.head? := by
  cases lengths with
  | nil => cases listed
  | cons first _ => exact ⟨first, rfl⟩

theorem TightestFirst.lengthsAgree (tight : TightestFirst list) (agree : FirstLengthsAgree list) :
    LengthsAgree list := by
  obtain ⟨length, above, below⟩ := agree
  refine ⟨length, forall_admits_iff.mpr ⟨fun least listed => ?_, fun greatest listed => ?_⟩⟩
  · obtain ⟨first, isFirst⟩ := exists_head?_of_mem listed
    exact (tight.least first isFirst least listed).trans (above first isFirst)
  · obtain ⟨first, isFirst⟩ := exists_head?_of_mem listed
    exact (below first isFirst).trans (tight.greatest first isFirst greatest listed)

/-! ## Reported contradictions -/

theorem mem_lengthConflict_iff {least greatest : Nat} :
    Conflict.lengths least greatest ∈ lengthConflict list ↔
      least ∈ (leastLengths list).head? ∧ greatest ∈ (greatestLengths list).head? ∧
        greatest < least := by
  unfold lengthConflict leastLengths greatestLengths
  rw [List.head?_filterMap, List.head?_filterMap]
  cases list.findSome? minLength? with
  | none => simp
  | some firstLeast =>
      cases list.findSome? maxLength? with
      | none => simp
      | some firstGreatest =>
          simp only [List.mem_ite_nil_right, List.mem_singleton, Conflict.lengths.injEq,
            Option.mem_some_iff]
          constructor
          · intro holds
            obtain ⟨exceeds, rfl, rfl⟩ := holds
            exact ⟨rfl, rfl, exceeds⟩
          · intro holds
            obtain ⟨rfl, rfl, exceeds⟩ := holds
            exact ⟨exceeds, rfl, rfl⟩

theorem mem_conflicts_lengths_iff {least greatest : Nat} :
    Conflict.lengths least greatest ∈ conflicts list ↔
      Conflict.lengths least greatest ∈ lengthConflict list := by
  have bounds : Conflict.lengths least greatest ∉ boundConflict list := by
    unfold boundConflict
    split
    next =>
      dsimp only
      split <;> simp
    next => simp
  unfold conflicts
  simp only [List.mem_append, bounds, or_false, List.mem_ite_nil_right, List.mem_singleton,
    reduceCtorEq, and_false]

theorem reportsLengths_iff : ReportsLengths list ↔ ¬ FirstLengthsAgree list := by
  unfold ReportsLengths
  simp only [mem_conflicts_lengths_iff, mem_lengthConflict_iff, firstLengthsAgree_iff, not_forall,
    not_le]
  constructor
  · intro reported
    obtain ⟨least, greatest, isLeast, isGreatest, exceeds⟩ := reported
    exact ⟨least, isLeast, greatest, isGreatest, exceeds⟩
  · intro exceeds
    obtain ⟨least, isLeast, greatest, isGreatest, exceeds⟩ := exceeds
    exact ⟨least, greatest, isLeast, isGreatest, exceeds⟩

theorem firstLengthsAgree_of_conflicts (clean : conflicts list = []) : FirstLengthsAgree list := by
  have unreported : ¬ ReportsLengths list := by
    intro reported
    obtain ⟨_, _, listed⟩ := reported
    rw [clean] at listed
    cases listed
  exact not_not.mp (mt reportsLengths_iff.mpr unreported)

/-- What is reported is a contradiction.  All contradictions are reported in lists that begin with
their tightest lengths. -/
theorem TightestFirst.reportsLengths_iff (tight : TightestFirst list) :
    ReportsLengths list ↔ ¬ LengthsAgree list := by
  rw [Constraint.reportsLengths_iff]
  exact not_congr ⟨tight.lengthsAgree, LengthsAgree.first⟩

/-! ## Inherited lengths -/

/-- What is read off the constraints of one kind only. -/
theorem filterMap_ofKind {kind : ConstraintKind} {read : Constraint → Option Nat}
    (reads : ∀ c, c.kind ≠ kind → read c = none) (list : List Constraint) :
    (ofKind kind list).filterMap read = list.filterMap read := by
  unfold ofKind
  rw [List.filterMap_filter]
  refine List.filterMap_congr fun c _ => ?_
  by_cases same : c.kind = kind
  · rw [beq_iff_eq.mpr same]
    rfl
  · rw [beq_eq_false_iff_ne.mpr same, reads c same]
    rfl

end Constraint

open Constraint

namespace TypeTable

variable {chain : List DataType}

theorem filterMap_overlaid {kind : ConstraintKind} {read : Constraint → Option Nat}
    (reads : ∀ c, c.kind ≠ kind → read c = none) (chain : List DataType) :
    (overlaid chain).filterMap read =
      (chain.find? (DataType.declares kind)).elim [] fun nearest =>
        nearest.constraints.filterMap read := by
  rw [← filterMap_ofKind reads, ofKind_overlaid]
  cases chain.find? (DataType.declares kind) with
  | none => rfl
  | some nearest => exact filterMap_ofKind reads nearest.constraints

theorem leastLengths_overlaid (chain : List DataType) :
    leastLengths (overlaid chain) =
      (chain.find? (DataType.declares .minLen)).elim [] fun nearest =>
        leastLengths nearest.constraints := by
  refine filterMap_overlaid (fun c other => ?_) chain
  cases c with
  | minLen _ => exact absurd rfl other
  | _ => rfl

theorem greatestLengths_overlaid (chain : List DataType) :
    greatestLengths (overlaid chain) =
      (chain.find? (DataType.declares .maxLen)).elim [] fun nearest =>
        greatestLengths nearest.constraints := by
  refine filterMap_overlaid (fun c other => ?_) chain
  cases c with
  | maxLen _ => exact absurd rfl other
  | _ => rfl

/-- The lengths on either side are those of one data type, in the order in which it declares
them. -/
theorem tightestFirst_overlaid (tight : ∀ data ∈ chain, TightestFirst data.constraints) :
    TightestFirst (overlaid chain) := by
  constructor
  · rw [leastLengths_overlaid]
    cases found : chain.find? (DataType.declares .minLen) with
    | none => exact fun _ _ _ listed => nomatch listed
    | some nearest => exact (tight nearest (List.mem_of_find?_eq_some found)).least
  · rw [greatestLengths_overlaid]
    cases found : chain.find? (DataType.declares .maxLen) with
    | none => exact fun _ _ _ listed => nomatch listed
    | some nearest => exact (tight nearest (List.mem_of_find?_eq_some found)).greatest

end TypeTable

/-! ## Built catalogs -/

namespace Draft

variable {draft : Draft} {catalog : Catalog} {name : QName}

/-- Of the constraints of texts, validation asks nothing but that the first lengths agree. -/
theorem Reachable.conflicts_eq_nil_iff_of_text (reached : Reachable draft) {data : DataType}
    (found : draft.types.data? name = some data) (isText : data.kind = .string) :
    conflicts (draft.types.effectiveConstraints name) = [] ↔
      FirstLengthsAgree (draft.types.effectiveConstraints name) := by
  refine ⟨firstLengthsAgree_of_conflicts, fun agree => ?_⟩
  have applies : ∀ c ∈ draft.types.effectiveConstraints name,
      c.kind.appliesTo .string = true := by
    intro c listed
    rw [← isText]
    exact appliesTo_of_check (reached.check_of_mem_effective found listed)
  rw [conflicts_of_string applies]
  refine (lengthConflict_eq _).resolve_right fun conflict => ?_
  obtain ⟨least, greatest, _, conflict⟩ := conflict
  refine reportsLengths_iff.mp ⟨least, greatest, ?_⟩ agree
  rw [mem_conflicts_lengths_iff, conflict]
  exact List.mem_singleton_self _

/-- A contradiction of lengths is reported if and only if no length is admitted by the first least
and the first greatest length of the list.  So what is reported is a contradiction, and with the
tightest lengths first, every contradiction is reported.  In a built catalog there are none between
the first lengths of a data type, and none at all if its whole lineage declares the tightest lengths
first. -/
theorem Reachable.lengths_agree_of_build (reached : Reachable draft)
    (built : draft.build = .ok catalog) :
    (∀ list : List Constraint,
      (ReportsLengths list ↔ ¬ FirstLengthsAgree list) ∧
      (ReportsLengths list → ¬ LengthsAgree list) ∧
      (TightestFirst list → (ReportsLengths list ↔ ¬ LengthsAgree list))) ∧
    ∀ (name : QName) (t : TypeDef), catalog.types[name]? = some t → t.kind = .data →
      FirstLengthsAgree (draft.types.effectiveConstraints name) ∧
      ∃ data names, t.body = .data data ∧ draft.types.Lineage data.kind name names ∧
        ((∀ above ∈ names.filterMap draft.types.data?, TightestFirst above.constraints) →
          LengthsAgree (draft.types.effectiveConstraints name)) := by
  obtain ⟨clean, rfl⟩ := build_eq_ok_iff.mp built
  refine ⟨fun list => ⟨reportsLengths_iff, fun reported agree => ?_, fun tight =>
    tight.reportsLengths_iff⟩, fun name t found isData => ?_⟩
  · exact reportsLengths_iff.mp reported agree.first
  rw [reached.getElem?_freeze] at found
  obtain ⟨data, body⟩ := exists_data_of_fits (reached.wellFormed.fits found) isData
  have firstAgree : FirstLengthsAgree (draft.types.effectiveConstraints name) := by
    have valid := ((findings_eq_nil_iff.mp clean).types name t found).body
    unfold TypeTable.BodyValid at valid
    rw [body, reached.wellFormed.named found] at valid
    exact firstLengthsAgree_of_conflicts valid.constraints
  have isDataType := TypeTable.data?_eq_some_iff.mpr ⟨t, found, body⟩
  obtain ⟨⟨names, lineage⟩, _⟩ := reached.derives name data isDataType
  refine ⟨firstAgree, data, names, body, lineage, fun tight => ?_⟩
  rw [reached.effectiveConstraints_eq lineage] at firstAgree ⊢
  exact (TypeTable.tightestFirst_overlaid tight).lengthsAgree firstAgree

end Draft

namespace Library

/-- Codes of at least five and at most three letters, and shelves with their tightest lengths
first. -/
def codes : List Edit := [
  .within (name "base") (.declare (name "code")
    (.data .string .null [.minLen 1, .minLen 5, .maxLen 3])),
  .within (name "base") (.declare (name "shelf") (.data .string .null [.minLen 3, .minLen 2])),
  .within (name "app") (.declare (name "shortShelf")
    (.data .string (name "shelf") [.maxLen 8, .maxLen 9]))]

def draftWithCodes : Draft := draft.applyAll codes

theorem reachable_draftWithCodes : draftWithCodes.Reachable :=
  ((Draft.Reachable.initial {}).applyAll edits).applyAll codes

def codeNames : List QName := [name "code", name "shelf", name "shortShelf"]

/-- What the effective constraints of codes and shelves come from. -/
def chain (name : QName) : List DataType :=
  draftWithCodes.types.derivation draftWithCodes.types.size [] name

theorem firstLengthsAgree_codes :
    ∀ name ∈ codeNames, FirstLengthsAgree (draftWithCodes.types.effectiveConstraints name) := by
  intro name listed
  change FirstLengthsAgree (TypeTable.overlaid (chain name))
  rw [firstLengthsAgree_iff, TypeTable.leastLengths_overlaid, TypeTable.greatestLengths_overlaid]
  revert name
  decide +kernel

theorem typeValid_codes {n : QName} {t : TypeDef} (isCode : n ∈ codeNames)
    (found : draftWithCodes.types[n]? = some t) : draftWithCodes.types.TypeValid t := by
  have shaped : ∀ n ∈ codeNames, (draftWithCodes.types.data? n).map (fun data =>
      (data.kind, (draftWithCodes.types.checkAncestor data).isEmpty)) = some (.string, true) := by
    decide +kernel
  obtain ⟨data, isData, facts⟩ := Option.map_eq_some_iff.mp (shaped n isCode)
  obtain ⟨isText, founded⟩ := Prod.mk.inj facts
  obtain ⟨_, same, body⟩ := TypeTable.data?_eq_some_iff.mp isData
  rw [found] at same
  cases same
  refine ⟨fun fields has => ?_, ?_⟩
  · unfold TypeDef.fields? at has
    rw [body] at has
    cases has
  · unfold TypeTable.BodyValid
    rw [body, reachable_draftWithCodes.named n t found]
    exact ⟨TypeTable.checkAncestor_eq_nil_iff.mp (List.isEmpty_iff.mp founded),
      (reachable_draftWithCodes.conflicts_eq_nil_iff_of_text isData isText).mpr
        (firstLengthsAgree_codes n isCode)⟩

theorem findings_draftWithCodes : draftWithCodes.findings = [] := by
  have others : ∀ t ∈ draftWithCodes.types.defs,
      t.name ∈ codeNames ∨ (draftWithCodes.types.checkType t).isEmpty = true := by decide +kernel
  have rules : ∀ rule ∈ draftWithCodes.rules,
      (draftWithCodes.types.checkRule rule).isEmpty = true := by decide +kernel
  refine Draft.findings_eq_nil_iff.mpr ⟨fun n t found => ?_, fun rule listed => ?_⟩
  · rcases others t (TypeTable.mem_defs_iff.mpr ⟨n, found⟩) with isCode | clean
    · rw [reachable_draftWithCodes.named n t found] at isCode
      exact typeValid_codes isCode found
    · exact TypeTable.checkType_eq_nil_iff.mp (List.isEmpty_iff.mp clean)
  · exact TypeTable.checkRule_eq_nil_iff.mp (List.isEmpty_iff.mp (rules rule listed))

theorem build_draftWithCodes : draftWithCodes.build = .ok draftWithCodes.freeze :=
  Draft.build_eq_ok_iff.mpr ⟨findings_draftWithCodes, rfl⟩

theorem exists_data_codes :
    ∀ name ∈ codeNames, ∃ t, draftWithCodes.freeze.types[name]? = some t ∧ t.kind = .data := by
  have declared : ∀ name ∈ codeNames,
      (draftWithCodes.types[name]?).map TypeDef.kind = some .data := by decide +kernel
  intro name listed
  obtain ⟨t, found, isData⟩ := Option.map_eq_some_iff.mp (declared name listed)
  rw [← reachable_draftWithCodes.getElem?_freeze] at found
  exact ⟨t, found, isData⟩

end Library

namespace Draft

/-- The first lengths of codes go together, and so do all lengths of short shelves. -/
theorem Reachable.lengths_agree_of_build_codes :
    FirstLengthsAgree (Library.draftWithCodes.types.effectiveConstraints (Library.name "code")) ∧
      LengthsAgree
        (Library.draftWithCodes.types.effectiveConstraints (Library.name "shortShelf")) := by
  obtain ⟨_, ofData⟩ := Reachable.lengths_agree_of_build Library.reachable_draftWithCodes
    Library.build_draftWithCodes
  obtain ⟨code, isCode, codeIsData⟩ := Library.exists_data_codes (Library.name "code") (by decide)
  obtain ⟨shelf, isShelf, shelfIsData⟩ :=
    Library.exists_data_codes (Library.name "shortShelf") (by decide)
  obtain ⟨_, _, names, _, lineage, agree⟩ := ofData _ shelf isShelf shelfIsData
  have tight : ∀ above ∈ Library.chain (Library.name "shortShelf"),
      (∀ first ∈ (leastLengths above.constraints).head?,
        ∀ least ∈ leastLengths above.constraints, least ≤ first) ∧
      ∀ first ∈ (greatestLengths above.constraints).head?,
        ∀ greatest ∈ greatestLengths above.constraints, first ≤ greatest := by decide +kernel
  refine ⟨(ofData _ code isCode codeIsData).1, agree ?_⟩
  rw [← lineage.derivation_size_eq Library.reachable_draftWithCodes.data?_null]
  exact fun above listed => ⟨(tight above listed).1, (tight above listed).2⟩

/-- Not all contradictions are reported.  No code has an admitted length, but there are codes in a
built catalog. -/
theorem not_forall_lengths_agree :
    (¬ ∀ list : List Constraint, ReportsLengths list ↔ ¬ LengthsAgree list) ∧
    ¬ ∀ (draft : Draft) (catalog : Catalog), Reachable draft → draft.build = .ok catalog →
      ∀ (name : QName) (t : TypeDef), catalog.types[name]? = some t → t.kind = .data →
        LengthsAgree (draft.types.effectiveConstraints name) := by
  have isCode : Library.name "code" ∈ Library.codeNames := by decide
  have lengths : leastLengths (TypeTable.overlaid (Library.chain (Library.name "code"))) = [1, 5] ∧
      greatestLengths (TypeTable.overlaid (Library.chain (Library.name "code"))) = [3] := by
    rw [TypeTable.leastLengths_overlaid, TypeTable.greatestLengths_overlaid]
    decide +kernel
  have disagree : ¬ LengthsAgree
      (Library.draftWithCodes.types.effectiveConstraints (Library.name "code")) := by
    change ¬ LengthsAgree (TypeTable.overlaid (Library.chain (Library.name "code")))
    rw [lengthsAgree_iff, lengths.1, lengths.2]
    decide
  refine ⟨fun detected => ?_, fun agree => ?_⟩
  · have reported := (detected _).mpr disagree
    exact reportsLengths_iff.mp reported (Library.firstLengthsAgree_codes _ isCode)
  · obtain ⟨code, found, isData⟩ := Library.exists_data_codes _ isCode
    exact disagree (agree _ _ Library.reachable_draftWithCodes Library.build_draftWithCodes _ code
      found isData)

end Draft

end TypeCatalog
