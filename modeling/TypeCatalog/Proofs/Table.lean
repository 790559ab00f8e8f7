import TypeCatalog.TypeTable

/-!
# Sets and tables by their elements

The ordered sets and tables of the library are read through `∈` and `[·]?`.  This module adds
the readings that the library of ordered trees leaves open.

* `mem_eraseMany`: what is left of a set after several names are taken out.
* `getElem?_ofList_eq_some_iff`: a table made from entries with different names holds exactly
  these entries.
* `lookup_eq_some_of_mem`: the same for lists of entries.
* `TypeTable.mem_defs_iff` and `TypeTable.pairwise_defs`: the types of a table, and their order.
-/

namespace TypeCatalog

/-! ## Sets -/

section Sets

variable {α : Type} {cmp : α → α → Ordering} [Std.TransCmp cmp] [Std.LawfulEqCmp cmp]

omit [Std.LawfulEqCmp cmp] in
/-- Taking out several keys takes them out one by one. -/
theorem eraseMany_eq_foldl {β : Type} (t : Std.ExtDTreeMap α (fun _ => β) cmp) (keys : List α) :
    t.eraseMany keys = keys.foldl (fun left key => left.erase key) t := by
  unfold Std.ExtDTreeMap.eraseMany
  simp only [List.forIn_pure_yield_eq_foldl, pure_bind, Id.run_pure]
  exact (List.foldl_hom Subtype.val fun _ _ => rfl).symm

theorem mem_foldl_erase_iff {β : Type} (keys : List α)
    (t : Std.ExtDTreeMap α (fun _ => β) cmp) (k : α) :
    k ∈ keys.foldl (fun left key => left.erase key) t ↔ k ∈ t ∧ k ∉ keys := by
  induction keys generalizing t with
  | nil => simp
  | cons key rest ih =>
      rw [List.foldl_cons, ih, Std.ExtDTreeMap.mem_erase, List.mem_cons, not_or]
      simp only [ne_eq, Std.LawfulEqCmp.compare_eq_iff_eq, eq_comm (a := k)]
      constructor
      · intro holds
        obtain ⟨⟨other, mem⟩, later⟩ := holds
        exact ⟨mem, other, later⟩
      · intro holds
        obtain ⟨mem, other, later⟩ := holds
        exact ⟨⟨other, mem⟩, later⟩

/-- What is left of a set is what was in it and is not taken out. -/
theorem mem_eraseMany (s : Std.ExtTreeSet α cmp) (keys : List α) (k : α) :
    k ∈ s.eraseMany keys ↔ k ∈ s ∧ k ∉ keys := by
  change k ∈ s.inner.inner.eraseMany keys ↔ k ∈ s.inner.inner ∧ k ∉ keys
  rw [eraseMany_eq_foldl]
  exact mem_foldl_erase_iff keys s.inner.inner k

theorem mem_insert_key_iff {s : Std.ExtTreeSet α cmp} {k other : α} :
    other ∈ s.insert k ↔ other = k ∨ other ∈ s := by
  rw [Std.ExtTreeSet.mem_insert, Std.LawfulEqCmp.compare_eq_iff_eq, eq_comm]

theorem isEmpty_eq_false_iff_exists_mem {s : Std.ExtTreeSet α cmp} :
    s.isEmpty = false ↔ ∃ k, k ∈ s := by
  rw [Std.ExtTreeSet.isEmpty_eq_false_iff]
  constructor
  · intro nonempty
    refine Classical.byContradiction fun none => nonempty (Std.ExtTreeSet.ext_mem fun k => ?_)
    exact iff_of_false (fun mem => none ⟨k, mem⟩) Std.ExtTreeSet.not_mem_empty
  · intro some empty
    obtain ⟨k, mem⟩ := some
    rw [empty] at mem
    exact Std.ExtTreeSet.not_mem_empty mem

theorem size_le_size {s t : Std.ExtTreeSet α cmp} (inside : ∀ k ∈ s, k ∈ t) : s.size ≤ t.size := by
  have distinct : s.toList.Nodup := Std.ExtTreeSet.distinct_toList.imp Std.ReflCmp.ne_of_cmp_ne_eq
  have contained : s.toList ⊆ t.toList := by
    intro k listed
    exact Std.ExtTreeSet.mem_toList.mpr (inside k (Std.ExtTreeSet.mem_toList.mp listed))
  have counted := distinct.length_le_of_subset contained
  rwa [Std.ExtTreeSet.length_toList, Std.ExtTreeSet.length_toList] at counted

/-- A set that is as large as one inside it has nothing else in it. -/
theorem mem_of_size_le {s t : Std.ExtTreeSet α cmp} (inside : ∀ k ∈ s, k ∈ t)
    (large : t.size ≤ s.size) {k : α} (mem : k ∈ t) : k ∈ s := by
  refine Classical.byContradiction fun outside => ?_
  have larger : (s.insert k).size ≤ t.size := by
    refine size_le_size fun other holds => ?_
    rcases mem_insert_key_iff.mp holds with rfl | old
    · exact mem
    · exact inside other old
  rw [Std.ExtTreeSet.size_insert,
    if_neg fun holds => outside (Std.ExtTreeSet.contains_iff_mem.mp holds)] at larger
  omega

end Sets

/-! ## Tables -/

section Tables

variable {α β : Type}

theorem values_eq_map_snd_toList {cmp : α → α → Ordering} [Std.TransCmp cmp]
    (t : Std.ExtTreeMap α β cmp) : t.values = t.toList.map Prod.snd := by
  rcases t with ⟨⟨q⟩⟩
  induction q using Quotient.ind with
  | _ m =>
      change m.inner.values = (Std.DTreeMap.Internal.Impl.Const.toList m.inner).map Prod.snd
      rw [Std.DTreeMap.Internal.Impl.values_eq_map_snd,
        Std.DTreeMap.Internal.Impl.Const.toList_eq_toListModel_map]
      simp [Function.comp_def]

theorem getElem?_insert (table : NameMap β) (name other : QName) (b : β) :
    (table.insert name b)[other]? = if name = other then some b else table[other]? := by
  rw [Std.ExtTreeMap.getElem?_insert]
  by_cases same : name = other
  · rw [if_pos same, if_pos (by rw [same, Std.ReflOrd.compare_self])]
  · rw [if_neg same, if_neg fun eq => same (Std.LawfulEqOrd.eq_of_compare eq)]

/-- An entry under a free key takes the place of none. -/
theorem getElem?_insert_of_free {cmp : α → α → Ordering} [Std.TransCmp cmp] [Std.LawfulEqCmp cmp]
    {table : Std.ExtTreeMap α β cmp} {key other : α} {b old : β} (free : table[key]? = none)
    (bound : table[other]? = some old) : (table.insert key b)[other]? = some old := by
  have apart : ¬ cmp key other = .eq := by
    intro eq
    rw [Std.LawfulEqCmp.eq_of_compare eq, bound] at free
    cases free
  rw [Std.ExtTreeMap.getElem?_insert, if_neg apart]
  exact bound

theorem mem_insert_iff {table : NameMap β} {name other : QName} {b : β} :
    other ∈ table.insert name b ↔ other = name ∨ other ∈ table := by
  rw [Std.ExtTreeMap.mem_insert, Std.LawfulEqCmp.compare_eq_iff_eq, eq_comm]

/-- A table made from entries with different names holds exactly these entries. -/
theorem getElem?_ofList_eq_some_iff {entries : List (QName × β)}
    (distinct : (entries.map Prod.fst).Nodup) {name : QName} {b : β} :
    (Std.ExtTreeMap.ofList entries : NameMap β)[name]? = some b ↔ (name, b) ∈ entries := by
  have apart : entries.Pairwise fun x y => ¬ compare x.1 y.1 = .eq := by
    rw [List.nodup_iff_pairwise_ne, List.pairwise_map] at distinct
    exact distinct.imp fun ne eq => ne (Std.LawfulEqOrd.eq_of_compare eq)
  have holds {b' : β} (mem : (name, b') ∈ entries) :
      (Std.ExtTreeMap.ofList entries : NameMap β)[name]? = some b' :=
    Std.ExtTreeMap.getElem?_ofList_of_mem (Std.ReflOrd.compare_self) apart mem
  constructor
  · intro found
    have listed : name ∈ (Std.ExtTreeMap.ofList entries : NameMap β) :=
      Std.ExtTreeMap.mem_iff_isSome_getElem?.mpr (by rw [found]; rfl)
    rw [Std.ExtTreeMap.mem_ofList, List.contains_iff_mem, List.mem_map] at listed
    obtain ⟨⟨_, b'⟩, mem, rfl⟩ := listed
    rw [holds mem] at found
    cases found
    exact mem
  · exact holds

/-- In a list of entries with different keys every entry is found. -/
theorem lookup_eq_some_of_mem [BEq α] [LawfulBEq α] {entries : List (α × β)}
    (distinct : (entries.map Prod.fst).Nodup) {key : α} {b : β} (listed : (key, b) ∈ entries) :
    entries.lookup key = some b := by
  obtain ⟨before, later, same⟩ := List.append_of_mem listed
  refine List.lookup_eq_some_iff.mpr ⟨before, later, same, fun entry isBefore => ?_⟩
  rw [same, List.map_append, List.nodup_append] at distinct
  have apart := distinct.2.2 entry.1 (List.mem_map_of_mem isBefore) key (by simp)
  exact bne_iff_ne.mpr apart.symm

/-- Entries made from keys that are different, with the keys kept, have different keys. -/
theorem nodup_keys_filterMap {source : List α} {key : α → QName} {entry : α → Option (QName × β)}
    (keeps : ∀ a e, entry a = some e → e.1 = key a) (distinct : (source.map key).Nodup) :
    ((source.filterMap entry).map Prod.fst).Nodup := by
  refine distinct.sublist ?_
  clear distinct
  induction source with
  | nil => exact .slnil
  | cons a rest ih =>
      cases made : entry a with
      | none =>
          rw [List.filterMap_cons_none made]
          exact ih.cons _
      | some e =>
          rw [List.filterMap_cons_some made, List.map_cons, List.map_cons, keeps a e made]
          exact ih.cons_cons _

end Tables

/-! ## Tables of types -/

/-- Types whose names rise strictly have different names. -/
theorem nodup_map_name {types : List TypeDef}
    (ordered : types.Pairwise fun a b => compare a.name b.name = .lt) :
    (types.map TypeDef.name).Nodup := by
  rw [List.nodup_iff_pairwise_ne, List.pairwise_map]
  refine ordered.imp fun {a b} before same => ?_
  rw [same, Std.ReflOrd.compare_self] at before
  cases before

namespace TypeTable

theorem mem_defs_iff {types : TypeTable} {t : TypeDef} :
    t ∈ types.defs ↔ ∃ name : QName, types[name]? = some t := by
  unfold defs
  rw [values_eq_map_snd_toList, List.mem_map]
  constructor
  · intro holds
    obtain ⟨⟨name, _⟩, mem, rfl⟩ := holds
    exact ⟨name, Std.ExtTreeMap.mem_toList_iff_getElem?_eq_some.mp mem⟩
  · intro holds
    obtain ⟨name, found⟩ := holds
    exact ⟨(name, t), Std.ExtTreeMap.mem_toList_iff_getElem?_eq_some.mpr found, rfl⟩

/-- Where every type is stored under its own name, the types come in name order. -/
theorem pairwise_defs {types : TypeTable}
    (named : ∀ {name : QName} {t : TypeDef}, types[name]? = some t → t.name = name) :
    types.defs.Pairwise fun a b => compare a.name b.name = .lt := by
  unfold defs
  rw [values_eq_map_snd_toList, List.pairwise_map]
  refine Std.ExtTreeMap.ordered_keys_toList.imp_of_mem fun {x y} memX memY before => ?_
  rw [named (Std.ExtTreeMap.mem_toList_iff_getElem?_eq_some.mp memX),
    named (Std.ExtTreeMap.mem_toList_iff_getElem?_eq_some.mp memY)]
  exact before

end TypeTable

end TypeCatalog
