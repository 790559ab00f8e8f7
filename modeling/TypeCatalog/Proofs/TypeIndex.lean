import TypeCatalog.Proofs.Table
import TypeCatalog.TypeIndex

/-!
# An index answers like the table that it was made from

Positions, the array that they point into and the search by halving are how a frozen table is
looked up.  None of them shows in the answers.

* `TypeIndex.getElem?_ofTable`: the index of a table in which every type is stored under its own
  name has the same types under the same names.
* `halve_eq_some`: halving finds a place if the places rise up to it and on from it.
* `Window.getElem?_eq_some_iff`: a part of an index in name order is searched without a miss.
-/

namespace TypeCatalog

/-! ## Halving -/

section Halve

variable {order : Nat → Ordering} {rounds low high place size : Nat}

theorem halve_sound (found : halve order rounds low high = some place) :
    low ≤ place ∧ place < high ∧ order place = .eq := by
  induction rounds generalizing low high with
  | zero => cases found
  | succ rounds ih =>
      unfold halve at found
      split at found
      next ordered =>
        dsimp only at found
        split at found
        next =>
          obtain ⟨above, below, same⟩ := ih found
          exact ⟨by omega, below, same⟩
        next =>
          obtain ⟨above, below, same⟩ := ih found
          exact ⟨above, by omega, same⟩
        next same =>
          cases found
          exact ⟨by omega, by omega, same⟩
      next => cases found

/-- Halving never leaves the place that is looked for out of its bounds. -/
theorem halve_eq_some (before : ∀ i < place, order i = .lt) (here : order place = .eq)
    (after : ∀ i, place < i → i < size → order i = .gt) (above : low ≤ place)
    (below : place < high) (inside : high ≤ size) (enough : high - low ≤ rounds) :
    halve order rounds low high = some place := by
  induction rounds generalizing low high with
  | zero => omega
  | succ rounds ih =>
      unfold halve
      rw [if_pos (by omega)]
      dsimp only
      rcases Nat.lt_trichotomy ((low + high) / 2) place with early | same | late
      · rw [before _ early]
        exact ih (by omega) below inside (by omega)
      · rw [same, here]
      · rw [after _ late (by omega)]
        exact ih above late (by omega) (by omega)

end Halve

/-! ## The index of a table -/

/-- Every type is stored under its own name. -/
def TypeTable.Named (types : TypeTable) : Prop :=
  ∀ (name : QName) (t : TypeDef), types[name]? = some t → t.name = name

namespace TypeTable.Named

variable {types : TypeTable} {name : QName} {t : TypeDef} (named : types.Named)
include named

theorem pairwise_defs : types.defs.Pairwise fun a b => compare a.name b.name = .lt :=
  TypeTable.pairwise_defs fun found => named _ _ found

theorem nodup_names : (types.defs.map TypeDef.name).Nodup :=
  nodup_map_name named.pairwise_defs

theorem mem_defs_iff : t ∈ types.defs ↔ types[t.name]? = some t := by
  rw [TypeTable.mem_defs_iff]
  constructor
  · intro holds
    obtain ⟨name, found⟩ := holds
    rw [named name t found]
    exact found
  · intro found
    exact ⟨t.name, found⟩

end TypeTable.Named

theorem TypeTable.map_fst_places (types : TypeTable) :
    types.places.map Prod.fst = types.defs.map TypeDef.name := by
  have names : types.defs.map TypeDef.name =
      (types.defs.zipIdx.map Prod.fst).map TypeDef.name := by rw [List.zipIdx_map_fst]
  unfold places
  rw [names, List.map_map, List.map_map]
  rfl

namespace TypeIndex

variable {types : TypeTable} {name : QName} {t : TypeDef}

theorem typeAt_ofTable {position : Nat} (stands : types.defs[position]? = some t) :
    (ofTable types).typeAt position = t := by
  unfold typeAt ofTable
  rw [List.getElem?_toArray, stands, Option.getD_some]

section Named

variable (named : types.Named)
include named

/-- The position of a name is where its type stands. -/
theorem positions_ofTable_eq_some_iff {position : Nat} :
    (ofTable types).positions[name]? = some position ↔
      ∃ t, types.defs[position]? = some t ∧ t.name = name := by
  have distinct : (types.places.map Prod.fst).Nodup := by
    rw [TypeTable.map_fst_places]
    exact named.nodup_names
  unfold ofTable
  rw [getElem?_ofList_eq_some_iff distinct]
  unfold TypeTable.places
  rw [List.mem_map]
  simp only [Prod.exists, List.mk_mem_zipIdx_iff_getElem?, Prod.mk.injEq]
  constructor
  · intro holds
    obtain ⟨t, _, found, rfl, rfl⟩ := holds
    exact ⟨t, found, rfl⟩
  · intro holds
    obtain ⟨t, found, rfl⟩ := holds
    exact ⟨t, position, found, rfl, rfl⟩

theorem exists_position (found : types[name]? = some t) :
    ∃ position, (ofTable types).positions[name]? = some position ∧
      (ofTable types).typeAt position = t := by
  have listed : t ∈ types.defs := TypeTable.mem_defs_iff.mpr ⟨name, found⟩
  obtain ⟨position, stands⟩ := List.mem_iff_getElem?.mp listed
  exact ⟨position, (positions_ofTable_eq_some_iff named).mpr ⟨t, stands, named name t found⟩,
    typeAt_ofTable stands⟩

/-- An index knows the types of the table by their names. -/
theorem map_positions_ofTable (name : QName) :
    ((ofTable types).positions[name]?).map (ofTable types).typeAt = types[name]? := by
  cases found : types[name]? with
  | some t =>
      obtain ⟨position, isAt, same⟩ := exists_position named found
      rw [isAt, Option.map_some, same]
  | none =>
      rw [Option.map_eq_none_iff]
      refine Option.eq_none_iff_forall_ne_some.mpr fun position isAt => ?_
      obtain ⟨t, stands, rfl⟩ := (positions_ofTable_eq_some_iff named).mp isAt
      rw [named.mem_defs_iff.mp (List.mem_of_getElem? stands)] at found
      cases found

theorem getElem?_ofTable (name : QName) : (ofTable types)[name]? = types[name]? :=
  map_positions_ofTable named name

theorem resolve_ofTable (name : QName) : (ofTable types).resolve name = types.resolve name := by
  unfold resolve TypeTable.resolve
  rw [getElem?_ofTable named]

end Named

end TypeIndex

/-! ## Parts of an index -/

namespace Window

variable {window : Window} {types : TypeTable} {name : QName} {t : TypeDef}

theorem length_defs : window.defs.length = window.positions.size := by
  unfold defs
  rw [List.length_map, Array.length_toList]

theorem getElem?_defs (place : Nat) :
    window.defs[place]? = (window.positions[place]?).map window.index.typeAt := by
  unfold defs
  rw [List.getElem?_map, Array.getElem?_toList]

theorem typeAt_of_getElem? {place : Nat} (stands : window.defs[place]? = some t) :
    window.typeAt place = t := by
  unfold typeAt
  rw [← getElem?_defs, stands, Option.getD_some]

/-- What a search finds is one of the types and bears the name, whatever the order. -/
theorem mem_defs_of_find? (found : window.find? name = some t) :
    t ∈ window.defs ∧ t.name = name := by
  unfold find? at found
  obtain ⟨place, halved, rfl⟩ := Option.map_eq_some_iff.mp found
  obtain ⟨_, inside, same⟩ := halve_sound halved
  rw [← length_defs] at inside
  have stands : window.defs[place]? = some window.defs[place] := List.getElem?_eq_getElem inside
  rw [typeAt_of_getElem? stands] at same ⊢
  exact ⟨List.mem_of_getElem? stands, Std.LawfulEqOrd.eq_of_compare same⟩

/-- In name order, halving finds a name if and only if there is a type of this name. -/
theorem getElem?_eq_some_iff
    (ordered : window.defs.Pairwise fun a b => compare a.name b.name = .lt) :
    window[name]? = some t ↔ t ∈ window.defs ∧ t.name = name := by
  constructor
  · exact mem_defs_of_find?
  · intro holds
    obtain ⟨listed, rfl⟩ := holds
    obtain ⟨place, inside, rfl⟩ := List.mem_iff_getElem.mp listed
    have names : ∀ i (below : i < window.defs.length), window.typeAt i = window.defs[i] :=
      fun i below => typeAt_of_getElem? (List.getElem?_eq_getElem below)
    rw [List.pairwise_iff_getElem] at ordered
    change window.find? _ = _
    unfold find?
    dsimp only
    rw [Option.map_eq_some_iff, ← length_defs]
    refine ⟨place, ?_, names place inside⟩
    refine halve_eq_some (fun i early => ?_) ?_ (fun i late below => ?_) (Nat.zero_le _) inside
      (Nat.le_refl _) (Nat.le_refl _)
    · rw [names i (by omega)]
      exact ordered i place (by omega) inside early
    · rw [names place inside]
      exact Std.ReflOrd.compare_self
    · rw [names i below, Std.OrientedCmp.gt_iff_lt]
      exact ordered place i inside below late

/-- A part that is given by names has the types of these names, in order. -/
theorem defs_positionsOf (named : types.Named) (names : NameSet) :
    defs ⟨.ofTable types, (TypeIndex.ofTable types).positionsOf names⟩ =
      names.toList.filterMap fun name => types[name]? := by
  unfold defs TypeIndex.positionsOf
  dsimp only
  rw [List.map_filterMap]
  simp only [TypeIndex.map_positions_ofTable named]

end Window

end TypeCatalog
