import TypeCatalog.Proofs.Draft.Fields
import TypeCatalog.Proofs.Draft.Mirror

/-!
# Uniques

A unique is added in two steps: the structure takes it, after a look at its own fields and at the
uniques that it has, and then its name is bound in the draft.  What was looked at stays true, since
fields keep their names and uniques are only appended.

* `Structure.addUnique_eq_ok_iff`: what is asked of a unique that is added.
* `Structure.UniquesSound`: what holds of the uniques of one structure; adding to them and changing
  anything else of the structure keeps it.
* `Draft.Reachable.uniques_sound`: in every reachable draft all structures are like that, and the
  name of a unique is bound to the one structure that declares it.
-/

namespace TypeCatalog

/-! ## What is asked of uniques -/

theorem allAmong_iff_subset {names others : List String} :
    allAmong names others = true ↔ names ⊆ others := by
  unfold allAmong
  rw [List.all_eq_true, List.subset_def]
  simp

namespace Unique

/-- Neither unique has its fields among those of the other. -/
def Apart (u v : Unique) : Prop := ¬ u.fields ⊆ v.fields ∧ ¬ v.fields ⊆ u.fields

/-- The fields of the unique are different ones among the given fields, not none and not too
many. -/
structure Fits (u : Unique) (fields : Fields) (config : Config) : Prop where
  nonempty : u.fields ≠ []
  distinct : u.fields.Nodup
  present : u.fields ⊆ fields.names
  bounded : u.fields.length ≤ config.maxUniqueFields

theorem overlaps_eq_false_iff {u : Unique} {name : QName} {fields : List String} :
    u.overlaps fields = false ↔ u.Apart ⟨name, fields⟩ := by
  unfold overlaps Apart
  rw [Bool.or_eq_false_iff, ← Bool.not_eq_true, ← Bool.not_eq_true, allAmong_iff_subset,
    allAmong_iff_subset, and_comm]

end Unique

namespace Structure

variable {s changed : Structure} {unique : QName} {fields : List String} {config : Config}

/-- A unique is added if its fields are in order, if there is room for it, and if it is apart from
the uniques that are there. -/
theorem addUnique_eq_ok_iff : s.addUnique unique fields config = .ok changed ↔
    Unique.Fits ⟨unique, fields⟩ s.fields config ∧ s.uniques.length < config.maxUniques ∧
      (∀ other ∈ s.uniques, other.Apart ⟨unique, fields⟩) ∧
      changed = { s with uniques := s.uniques ++ [⟨unique, fields⟩] } := by
  have present : (fields.find? fun f => !s.fields.has f) = none ↔ fields ⊆ s.fields.names := by
    rw [List.find?_eq_none, List.subset_def]
    simp [Fields.has_iff_mem_names]
  have apart : (s.uniques.find? fun u => u.overlaps fields) = none ↔
      ∀ other ∈ s.uniques, other.Apart ⟨unique, fields⟩ := by
    rw [List.find?_eq_none]
    refine forall₂_congr fun other _ => ?_
    rw [Bool.not_eq_true]
    exact Unique.overlaps_eq_false_iff
  unfold addUnique
  constructor
  · intro added
    obtain ⟨nonempty, added⟩ := Check.unless_eq_ok_iff.mp added
    obtain ⟨bounded, added⟩ := Check.unless_eq_ok_iff.mp added
    obtain ⟨room, added⟩ := Check.unless_eq_ok_iff.mp added
    obtain ⟨distinct, added⟩ := Check.unless_eq_ok_iff.mp added
    dsimp only at added
    split at added
    next => cases added
    next allPresent =>
      split at added
      next => cases added
      next allApart =>
        cases added
        exact ⟨⟨by simpa using nonempty, by simpa using distinct, present.mp allPresent,
          Nat.not_lt.mp bounded⟩, Nat.not_le.mp room, apart.mp allApart, rfl⟩
  · intro holds
    obtain ⟨fits, room, allApart, rfl⟩ := holds
    refine Check.unless_eq_ok_iff.mpr ⟨by simpa using fits.nonempty, ?_⟩
    refine Check.unless_eq_ok_iff.mpr ⟨Nat.not_lt.mpr fits.bounded, ?_⟩
    refine Check.unless_eq_ok_iff.mpr ⟨Nat.not_le.mpr room, ?_⟩
    refine Check.unless_eq_ok_iff.mpr ⟨by simpa using fits.distinct, ?_⟩
    dsimp only
    rw [present.mpr fits.present, apart.mpr allApart]
    rfl

/-! ## The uniques of one structure -/

/-- What holds of the uniques of a structure. -/
structure UniquesSound (config : Config) (s : Structure) : Prop where
  fits : ∀ u ∈ s.uniques, u.Fits s.fields config
  count : s.uniques.length ≤ config.maxUniques
  apart : s.uniques.Pairwise Unique.Apart

theorem uniquesSound_ofKind (config : Config) (kind : TypeKind) :
    (ofKind kind).UniquesSound config where
  fits _ listed := absurd listed List.not_mem_nil
  count := Nat.zero_le _
  apart := .nil

/-- Uniques do not mind what else is made of the structure, as long as the fields keep their
names. -/
theorem UniquesSound.of_uniques_eq (sound : s.UniquesSound config)
    (same : changed.uniques = s.uniques) (kept : s.fields.names ⊆ changed.fields.names) :
    changed.UniquesSound config where
  fits u listed := by
    rw [same] at listed
    have fits := sound.fits u listed
    exact { fits with present := List.Subset.trans fits.present kept }
  count := by
    rw [same]
    exact sound.count
  apart := by
    rw [same]
    exact sound.apart

theorem UniquesSound.addUnique (sound : s.UniquesSound config)
    (added : s.addUnique unique fields config = .ok changed) : changed.UniquesSound config := by
  obtain ⟨fits, room, apart, rfl⟩ := addUnique_eq_ok_iff.mp added
  refine ⟨fun u listed => ?_, ?_, ?_⟩
  · rcases List.mem_append.mp listed with old | new
    · exact sound.fits u old
    · cases List.mem_singleton.mp new
      exact fits
  · rw [List.length_append]
    exact room
  · refine List.pairwise_append.mpr ⟨sound.apart, List.pairwise_singleton .., ?_⟩
    intro other listed new isNew
    cases List.mem_singleton.mp isNew
    exact apart other listed

end Structure

namespace Draft

variable {draft after : Draft} {name ws : QName}

/-! ## The uniques of a draft -/

/-- The uniques of every structure are sound. -/
def UniquesHold (draft : Draft) : Prop :=
  ∀ (name : QName) (s : Structure), draft.types.structure? name = some s →
    s.UniquesSound draft.config

/-- Only the structure that is put into the table has to be looked at. -/
theorem UniquesHold.of_update {changed : Structure} (hold : UniquesHold draft)
    (config : after.config = draft.config)
    (becomes : after.types.structure? =
      Function.update draft.types.structure? name (some changed))
    (sound : changed.UniquesSound draft.config) : UniquesHold after := by
  intro other s isStructure
  rw [config]
  rw [becomes, Function.update_apply] at isStructure
  split at isStructure
  next =>
    cases isStructure
    exact sound
  next => exact hold other s isStructure

theorem Step.uniquesHold (step : Step draft after) (hold : UniquesHold draft) :
    UniquesHold after := by
  cases step.members with
  | kept same _ =>
      intro name s isStructure
      rw [step.config_eq]
      rw [same] at isStructure
      exact hold name s isStructure
  | created kind _ becomes _ =>
      exact hold.of_update step.config_eq becomes (Structure.uniquesSound_ofKind _ kind)
  | amended isStructure change becomes _ =>
      have sound := (hold _ _ isStructure).of_uniques_eq change.uniques_eq
        change.fields.names_subset
      exact hold.of_update step.config_eq becomes sound
  | bound isStructure _ added becomes _ =>
      exact hold.of_update step.config_eq becomes ((hold _ _ isStructure).addUnique added)

theorem Reachable.uniquesHold (reached : Reachable draft) : UniquesHold draft := by
  refine reached.invariant (fun config name s isStructure => ?_) fun _ _ hold step =>
    step.uniquesHold hold
  rw [structure?_initial] at isStructure
  cases isStructure

/-- The structure with the given name has a unique of the given name. -/
def Declares (draft : Draft) (owner unique : QName) : Prop :=
  ∃ s, draft.types.structure? owner = some s ∧ s.Declares unique

/-- In every reachable draft the names of uniques are bound to the structures that declare them, one
to each, and the uniques of every structure are sound: each is over different fields that the
structure has, within the limits, and none is over fields that another is over. -/
theorem Reachable.uniques_sound (reached : Reachable draft) :
    (∀ unique owner : QName, draft.uniques[unique]? = some owner ↔ draft.Declares owner unique) ∧
    (∀ unique owner other : QName, draft.Declares owner unique → draft.Declares other unique →
      owner = other) ∧
    ∀ (owner : QName) (s : Structure), draft.types.structure? owner = some s →
      s.UniquesSound draft.config := by
  have bound {unique owner : QName} :
      draft.uniques[unique]? = some owner ↔ draft.Declares owner unique := reached.members.uniques
  refine ⟨fun _ _ => bound, fun unique owner other first second => ?_, reached.uniquesHold⟩
  rw [← bound] at first second
  exact Option.some.inj (first.symm.trans second)

end Draft

/-- Books come to have different prices, too. -/
def Library.prices : Edit :=
  .within (Library.name "base")
    (.amend (Library.name "book") (.addUnique (Library.name "prices") ["price"]))

/-- The titles and the prices of books are apart, and books are what has them. -/
theorem Draft.Reachable.uniques_sound_books :
    (Library.draftWithChapters.apply Library.prices).2.uniques[Library.name "prices"]? =
      some (Library.name "book") ∧
    ∃ titles prices : Unique, titles.fields = ["title"] ∧ prices.fields = ["price"] ∧
      titles.Apart prices := by
  have reached : (Library.draftWithChapters.apply Library.prices).2.Reachable :=
    .apply Library.prices Library.reachable_draftWithChapters
  have uniques : ((Library.draftWithChapters.apply Library.prices).2.types.structure?
      (Library.name "book")).map Structure.uniques =
      some [⟨Library.name "titles", ["title"]⟩, ⟨Library.name "prices", ["price"]⟩] := by
    decide +kernel
  obtain ⟨s, isStructure, same⟩ := Option.map_eq_some_iff.mp uniques
  obtain ⟨owners, _, sound⟩ := Draft.Reachable.uniques_sound reached
  have apart := (sound (Library.name "book") s isStructure).apart
  rw [same] at apart
  refine ⟨(owners _ _).mpr ⟨s, isStructure, ?_⟩, _, _, rfl, rfl,
    (List.pairwise_cons.mp apart).1 ⟨Library.name "prices", ["price"]⟩ (List.mem_singleton_self _)⟩
  unfold Structure.Declares
  rw [same]
  decide

end TypeCatalog
