import TypeCatalog.Proofs.Draft.Derivation

/-!
# Constraints that override inherited ones

A data type inherits constraints kind by kind: where it declares constraints of a kind, all
inherited ones of that kind go.  The effective constraints come about by overlays all the way down
from the system data type, each of which drops, appends and sorts.

* `Constraint.ofKind_overlay`: what an overlay has of a kind.  Sorting does not reorder constraints
  of one kind, and does not mix up kinds.
* `TypeTable.ofKind_overlaid`: what overlays along a chain of data types have of a kind is what the
  nearest data type declares that declares any.
* `Draft.Reachable.constraints_of_nearest`: so it is with the effective constraints of every data
  type of a reachable draft.
-/

namespace TypeCatalog

/-! ## Overlays kind by kind -/

namespace Constraint

variable {kind : ConstraintKind} {list inherited own : List Constraint}

/-- The constraints of a kind, in order. -/
def ofKind (kind : ConstraintKind) (list : List Constraint) : List Constraint :=
  list.filter fun c => c.kind == kind

/-- The constraints come kind by kind, in the order of kinds. -/
def InKindOrder (list : List Constraint) : Prop := list.Pairwise fun a b => a.kindLe b = true

theorem mem_ofKind_iff {c : Constraint} : c ∈ ofKind kind list ↔ c ∈ list ∧ c.kind = kind := by
  unfold ofKind
  rw [List.mem_filter, beq_iff_eq]

theorem ofKind_eq_nil_iff : ofKind kind list = [] ↔ hasKind list kind = false := by
  unfold ofKind hasKind
  rw [List.filter_eq_nil_iff, List.any_eq_false]

theorem kindLe_trans (a b c : Constraint) (first : a.kindLe b = true)
    (second : b.kindLe c = true) : a.kindLe c = true :=
  Std.TransOrd.isLE_trans first second

theorem kindLe_total (a b : Constraint) : (a.kindLe b || b.kindLe a) = true := by
  rw [Bool.or_eq_true]
  unfold kindLe
  cases order : compare a.kind b.kind with
  | lt | eq => exact .inl rfl
  | gt =>
      rw [Std.OrientedOrd.eq_swap (a := b.kind), order]
      exact .inr rfl

theorem inKindOrder_overlay (inherited own : List Constraint) :
    InKindOrder (overlay inherited own) :=
  List.pairwise_mergeSort kindLe_trans kindLe_total _

/-- Sorting by kind leaves the constraints of one kind in their order. -/
theorem ofKind_mergeSort (kind : ConstraintKind) (list : List Constraint) :
    ofKind kind (list.mergeSort kindLe) = ofKind kind list := by
  have level : (ofKind kind list).Pairwise fun a b => a.kindLe b = true := by
    refine List.pairwise_of_forall_mem_list fun a isA b isB => ?_
    unfold kindLe
    rw [(mem_ofKind_iff.mp isA).2, (mem_ofKind_iff.mp isB).2, Std.ReflOrd.compare_self]
    rfl
  have inside : (ofKind kind list).Sublist (list.mergeSort kindLe) :=
    List.sublist_mergeSort kindLe_trans kindLe_total level List.filter_sublist
  have again : ofKind kind (ofKind kind list) = ofKind kind list :=
    List.filter_eq_self.mpr fun c isC => beq_iff_eq.mpr (mem_ofKind_iff.mp isC).2
  have among : (ofKind kind (ofKind kind list)).Sublist (ofKind kind (list.mergeSort kindLe)) :=
    inside.filter fun c : Constraint => c.kind == kind
  rw [again] at among
  have count : (ofKind kind list).length = (ofKind kind (list.mergeSort kindLe)).length :=
    ((list.mergeSort_perm kindLe).filter _).length_eq.symm
  exact (among.eq_of_length count).symm

/-- An overlay has the constraints of a kind that are its own, or if there are none, those that it
inherits. -/
theorem ofKind_overlay (kind : ConstraintKind) (inherited own : List Constraint) :
    ofKind kind (overlay inherited own) =
      if hasKind own kind then ofKind kind own else ofKind kind inherited := by
  unfold overlay
  rw [ofKind_mergeSort]
  unfold ofKind
  rw [List.filter_append, List.filter_filter]
  split
  next declared =>
    have none : inherited.filter (fun c => c.kind == kind && !own.any fun o => o.kind == c.kind) =
        [] := by
      refine List.filter_eq_nil_iff.mpr fun c _ kept => ?_
      rw [Bool.and_eq_true, beq_iff_eq] at kept
      obtain ⟨rfl, undeclared⟩ := kept
      unfold hasKind at declared
      rw [declared] at undeclared
      cases undeclared
    rw [none, List.nil_append]
  next undeclared =>
    rw [Bool.not_eq_true] at undeclared
    have all : inherited.filter (fun c => c.kind == kind && !own.any fun o => o.kind == c.kind) =
        inherited.filter fun c => c.kind == kind := by
      refine List.filter_congr fun c _ => ?_
      by_cases same : c.kind = kind
      · unfold hasKind at undeclared
        rw [same, undeclared]
        simp
      · simp [same]
    have nothing := ofKind_eq_nil_iff.mpr undeclared
    unfold ofKind at nothing
    rw [all, nothing, List.append_nil]

end Constraint

/-! ## Chains of data types -/

open Constraint

/-- The data type declares constraints of the kind itself. -/
def DataType.declares (kind : ConstraintKind) (data : DataType) : Bool :=
  hasKind data.constraints kind

namespace TypeTable

variable {kind : ConstraintKind} {chain : List DataType}

/-- The constraints that several data types have together, each of which overrides those after
it. -/
def overlaid (chain : List DataType) : List Constraint :=
  chain.foldr (fun data inherited => overlay inherited data.constraints) []

theorem inKindOrder_overlaid (chain : List DataType) : InKindOrder (overlaid chain) := by
  cases chain with
  | nil => exact List.Pairwise.nil
  | cons data rest => exact inKindOrder_overlay _ _

theorem ofKind_overlaid (kind : ConstraintKind) (chain : List DataType) :
    ofKind kind (overlaid chain) =
      match chain.find? (DataType.declares kind) with
      | some nearest => ofKind kind nearest.constraints
      | none => [] := by
  induction chain with
  | nil => rfl
  | cons data rest ih =>
      change ofKind kind (overlay (overlaid rest) data.constraints) = _
      rw [ofKind_overlay, ih, List.find?_cons]
      cases declared : data.declares kind with
      | true =>
          unfold DataType.declares at declared
          rw [if_pos declared]
      | false =>
          unfold DataType.declares at declared
          rw [declared]
          rfl

end TypeTable

/-! ## Effective constraints -/

namespace Draft

variable {draft : Draft} {name : QName} {t : TypeDef}

/-- The effective constraints of a data type are overlaid along its lineage. -/
theorem Reachable.effectiveConstraints_eq (reached : Reachable draft) {kind : DataKind}
    {names : List QName} (lineage : draft.types.Lineage kind name names) :
    draft.types.effectiveConstraints name =
      TypeTable.overlaid (names.filterMap draft.types.data?) := by
  unfold TypeTable.effectiveConstraints
  rw [lineage.derivation_size_eq reached.data?_null]
  rfl

/-- In every reachable draft a data type has exactly the constraints of a kind, in the same order,
that are declared by the first data type on the way up from it that declares any, and none if none
does.  They come in the order of kinds. -/
theorem Reachable.constraints_of_nearest (reached : Reachable draft)
    (registered : draft.types[name]? = some t) (isData : t.kind = .data) :
    ∃ data names, t.body = .data data ∧ draft.types.Lineage data.kind name names ∧
      (∀ kind : ConstraintKind,
        (∀ nearest,
          (names.filterMap draft.types.data?).find? (DataType.declares kind) = some nearest →
          ofKind kind (draft.types.effectiveConstraints name) = ofKind kind nearest.constraints) ∧
        ((∀ above ∈ names.filterMap draft.types.data?, above.declares kind = false) →
          ofKind kind (draft.types.effectiveConstraints name) = [])) ∧
      InKindOrder (draft.types.effectiveConstraints name) := by
  obtain ⟨data, body⟩ := exists_data_of_fits (reached.wellFormed.fits registered) isData
  have found := TypeTable.data?_eq_some_iff.mpr ⟨t, registered, body⟩
  obtain ⟨⟨names, lineage⟩, _⟩ := reached.derives name data found
  refine ⟨data, names, body, lineage, ?_, ?_⟩
  · intro kind
    rw [reached.effectiveConstraints_eq lineage, TypeTable.ofKind_overlaid]
    refine ⟨fun nearest first => by rw [first], fun silent => ?_⟩
    have none : (names.filterMap draft.types.data?).find? (DataType.declares kind) = none :=
      List.find?_eq_none.mpr fun above listed => Bool.eq_false_iff.mp (silent above listed)
    rw [none]
  · rw [reached.effectiveConstraints_eq lineage]
    exact TypeTable.inKindOrder_overlaid _

end Draft

/-- Marks of books.  Those of `app` derive from those of `base` in two steps, the first of which
overrides their greatest length. -/
def Library.marks : List Edit := [
  .within (Library.name "base") (.declare (Library.name "mark")
    (.data .string .null [.minLen 2, .maxLen 20, .minLen 3])),
  .within (Library.name "app") (.declare (Library.name "shelfMark")
    (.data .string (Library.name "mark") [.maxLen 8])),
  .within (Library.name "app") (.declare (Library.name "oldMark")
    (.data .string (Library.name "shelfMark") [.enum ["A1", "B2"]]))]

/-- Old marks have both least lengths from two steps up, the greatest length from one step up, and
no pattern. -/
theorem Draft.Reachable.constraints_of_nearest_oldMark :
    let types := (Library.draft.applyAll Library.marks).types
    let effective := types.effectiveConstraints (Library.name "oldMark")
    (ofKind .minLen effective).map minLength? = [some 2, some 3] ∧
      (ofKind .maxLen effective).map maxLength? = [some 8] ∧ ofKind .pattern effective = [] := by
  intro types effective
  have reached : (Library.draft.applyAll Library.marks).Reachable :=
    ((Draft.Reachable.initial {}).applyAll Library.edits).applyAll Library.marks
  have declared : (types[Library.name "oldMark"]?).map TypeDef.kind = some .data := by
    decide +kernel
  obtain ⟨t, registered, isData⟩ := Option.map_eq_some_iff.mp declared
  obtain ⟨_, names, _, lineage, byKind, _⟩ :=
    Draft.Reachable.constraints_of_nearest reached registered isData
  have chain := lineage.derivation_size_eq reached.data?_null
  have least : ((names.filterMap types.data?).find? (DataType.declares .minLen)).map
      (fun data => (ofKind .minLen data.constraints).map minLength?) = some [some 2, some 3] := by
    rw [← chain]
    decide +kernel
  have greatest : ((names.filterMap types.data?).find? (DataType.declares .maxLen)).map
      (fun data => (ofKind .maxLen data.constraints).map maxLength?) = some [some 8] := by
    rw [← chain]
    decide +kernel
  have silent : ∀ above ∈ names.filterMap types.data?, above.declares .pattern = false := by
    rw [← chain]
    decide +kernel
  obtain ⟨mark, isNearest, lengths⟩ := Option.map_eq_some_iff.mp least
  obtain ⟨shelfMark, isNearer, length⟩ := Option.map_eq_some_iff.mp greatest
  refine ⟨?_, ?_, (byKind .pattern).2 silent⟩
  · rw [(byKind .minLen).1 mark isNearest, lengths]
  · rw [(byKind .maxLen).1 shelfMark isNearer, length]

end TypeCatalog
