import Mathlib.Logic.Relation
import TypeCatalog.Proofs.Table

/-!
# Saturation finds what can be reached

`saturate` works in rounds, and a bound on the rounds keeps it from running on.  With a bound as
large as the number of names that steps lead to, a round that brings nothing comes before the
bound is used up.

* `Closed`: no step leads out of a set.  `closed_saturate`: saturation ends in a closed set.
* `mem_saturate_iff`: the names found are exactly those that steps lead to from the start,
  whatever the steps are like.
-/

namespace TypeCatalog

open Relation (ReflTransGen)

variable {step : QName → List QName} {names : NameSet} {name : QName} {rounds : Nat}

/-- One step leads from a name to another. -/
def StepsTo (step : QName → List QName) (a b : QName) : Prop := b ∈ step a

/-- No step leads out of the set. -/
def Closed (step : QName → List QName) (names : NameSet) : Prop :=
  ∀ a ∈ names, ∀ b ∈ step a, b ∈ names

theorem mem_advance_iff :
    name ∈ advance step names ↔ name ∈ names ∨ ∃ a ∈ names, name ∈ step a := by
  unfold advance
  rw [Std.ExtTreeSet.mem_insertMany_list, List.contains_iff_mem, List.mem_flatMap]
  simp only [Std.ExtTreeSet.mem_toList]

theorem size_le_size_advance : names.size ≤ (advance step names).size :=
  Std.ExtTreeSet.size_le_size_insertMany_list

/-- A round that brings nothing was started from a closed set. -/
theorem closed_of_size_advance (same : (advance step names).size = names.size) :
    Closed step names := by
  intro a mem b leads
  have grown : b ∈ advance step names := mem_advance_iff.mpr (.inr ⟨a, mem, leads⟩)
  exact mem_of_size_le (fun _ old => mem_advance_iff.mpr (.inl old)) (Nat.le_of_eq same) grown

theorem mem_saturate_of_mem (mem : name ∈ names) : name ∈ saturate step rounds names := by
  induction rounds generalizing names with
  | zero => exact mem
  | succ rounds ih =>
      unfold saturate
      dsimp only
      split
      next => exact mem
      next => exact ih (mem_advance_iff.mpr (.inl mem))

/-- Every name found can be reached. -/
theorem reaches_of_mem_saturate (mem : name ∈ saturate step rounds names) :
    ∃ start ∈ names, ReflTransGen (StepsTo step) start name := by
  induction rounds generalizing names with
  | zero => exact ⟨name, mem, .refl⟩
  | succ rounds ih =>
      unfold saturate at mem
      dsimp only at mem
      split at mem
      next => exact ⟨name, mem, .refl⟩
      next =>
        obtain ⟨middle, grown, reaches⟩ := ih mem
        rcases mem_advance_iff.mp grown with old | ⟨start, old, leads⟩
        · exact ⟨middle, old, reaches⟩
        · exact ⟨start, old, .head leads reaches⟩

/-- Each round but the last brings at least one name.  A bound that covers what is still missing
from all that steps lead to is therefore never what ends the saturation. -/
theorem closed_saturate {all : NameSet} (inside : ∀ a, ∀ b ∈ step a, b ∈ all)
    (started : ∀ a ∈ names, a ∈ all) (enough : all.size ≤ names.size + rounds) :
    Closed step (saturate step rounds names) := by
  induction rounds generalizing names with
  | zero =>
      -- No rounds are left, and nothing is missing any more.
      intro a _ b leads
      exact mem_of_size_le started enough (inside a b leads)
  | succ rounds ih =>
      unfold saturate
      dsimp only
      split
      next same => exact closed_of_size_advance same
      next grown =>
        have larger : names.size ≤ (advance step names).size := size_le_size_advance
        refine ih (fun a mem => ?_) (by omega)
        rcases mem_advance_iff.mp mem with old | ⟨b, _, leads⟩
        · exact started a old
        · exact inside b a leads

theorem mem_of_reaches (closed : Closed step names) {start : QName} (mem : start ∈ names)
    (reaches : ReflTransGen (StepsTo step) start name) : name ∈ names := by
  induction reaches with
  | refl => exact mem
  | tail _ leads ih => exact closed _ ih _ leads

section Enough

variable {pool : List QName} (inPool : ∀ a, ∀ b ∈ step a, b ∈ pool) (enough : pool.length ≤ rounds)
include inPool enough

theorem closed_saturate_of_length : Closed step (saturate step rounds names) := by
  have bounded : (names.insertMany pool).size ≤ names.size + pool.length :=
    Std.ExtTreeSet.size_insertMany_list_le
  have inside : ∀ a, ∀ b ∈ step a, b ∈ names.insertMany pool := by
    intro a b leads
    have listed := List.contains_iff_mem.mpr (inPool a b leads)
    exact Std.ExtTreeSet.mem_insertMany_list.mpr (.inr listed)
  have started : ∀ a ∈ names, a ∈ names.insertMany pool := by
    intro a mem
    exact Std.ExtTreeSet.mem_insertMany_list.mpr (.inl mem)
  exact closed_saturate inside started (by omega)

/-- If the bound is as large as the number of names that steps lead to, saturation finds exactly
the names that can be reached. -/
theorem mem_saturate_iff :
    name ∈ saturate step rounds names ↔
      ∃ start ∈ names, ReflTransGen (StepsTo step) start name := by
  refine ⟨reaches_of_mem_saturate, fun reached => ?_⟩
  obtain ⟨start, mem, reaches⟩ := reached
  exact mem_of_reaches (closed_saturate_of_length inPool enough) (mem_saturate_of_mem mem) reaches

end Enough

end TypeCatalog
