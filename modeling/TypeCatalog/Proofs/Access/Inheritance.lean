import TypeCatalog.Access
import TypeCatalog.Proofs.Saturation

/-!
# Inherited roles

* `Scope.Leads`: one role inherits another by a grant in scope.
* `Scope.mem_expand_iff`: expansion finds exactly the roles that inheritance leads to, through
  cycles as well.
* `Scope.eq_expand_of_closed`: it does not matter in which order roles come in; whatever adds
  inherited roles until there are no more ends in the same set.
* `Scope.expand_congr`, `Scope.expand_of_perm`, `Scope.expand_append`,
  `Scope.expand_toList_expand`: what follows for other lists of roles and for other rules.
-/

namespace TypeCatalog

open Relation (ReflTransGen)

namespace Scope

variable {scope : Scope} {principals others : List QName} {name : QName}

/-- A grant in scope lets the role `a` inherit from the role `b`. -/
def Leads (scope : Scope) (a b : QName) : Prop :=
  ∃ rule ∈ scope.rules, rule.policy = .allow ∧ Operation.inherits ∈ rule.operations ∧
    rule.principal = a ∧ ∃ role ∈ scope.roles, role.name = b ∧ rule.selector.selects role = true

theorem mem_inherited_iff {a b : QName} : b ∈ scope.inherited a ↔ scope.Leads a b := by
  unfold inherited Leads Selector.select
  simp only [List.mem_flatMap, List.mem_filter, List.mem_map, Bool.and_eq_true, beq_iff_eq,
    Std.ExtTreeSet.contains_iff_mem]
  constructor
  · intro listed
    obtain ⟨rule, ⟨inRules, ⟨grants, inherits⟩, principal⟩, role, ⟨known, selected⟩, named⟩ :=
      listed
    exact ⟨rule, inRules, grants, inherits, principal, role, known, named, selected⟩
  · intro leads
    obtain ⟨rule, inRules, grants, inherits, principal, role, known, named, selected⟩ := leads
    exact ⟨rule, ⟨inRules, ⟨grants, inherits⟩, principal⟩, role, ⟨known, selected⟩, named⟩

theorem stepsTo_inherited : StepsTo scope.inherited = scope.Leads := by
  funext a b
  exact propext mem_inherited_iff

/-- Roles inherit roles in scope only. -/
theorem mem_roles_of_inherited (a b : QName) (inherited : b ∈ scope.inherited a) :
    b ∈ scope.roles.map TypeDef.name := by
  obtain ⟨_, _, _, _, _, role, known, named, _⟩ := mem_inherited_iff.mp inherited
  exact List.mem_map.mpr ⟨role, known, named⟩

theorem mem_expand_iff :
    name ∈ scope.expand principals ↔ ∃ p ∈ principals, ReflTransGen scope.Leads p name := by
  have enough : (scope.roles.map TypeDef.name).length ≤ scope.roles.length :=
    Nat.le_of_eq (List.length_map _)
  unfold expand
  rw [mem_saturate_iff mem_roles_of_inherited enough, stepsTo_inherited]
  simp only [Std.ExtTreeSet.mem_ofList, List.contains_iff_mem]

/-- The expansion is the only set that has the principals, is closed under inheritance and has
no role that inheritance does not lead to. -/
theorem eq_expand_of_closed {names : NameSet} (started : ∀ p ∈ principals, p ∈ names)
    (closed : ∀ a ∈ names, ∀ b, scope.Leads a b → b ∈ names)
    (sound : ∀ n ∈ names, ∃ p ∈ principals, ReflTransGen scope.Leads p n) :
    names = scope.expand principals := by
  refine Std.ExtTreeSet.ext_mem fun n => ?_
  rw [mem_expand_iff]
  refine ⟨sound n, fun reached => ?_⟩
  obtain ⟨p, given, reaches⟩ := reached
  rw [← stepsTo_inherited] at reaches
  refine mem_of_reaches (fun a mem b inherited => ?_) (started p given) reaches
  exact closed a mem b (mem_inherited_iff.mp inherited)

theorem expand_congr (same : ∀ p, p ∈ principals ↔ p ∈ others) :
    scope.expand principals = scope.expand others := by
  refine Std.ExtTreeSet.ext_mem fun n => ?_
  rw [mem_expand_iff, mem_expand_iff]
  exact exists_congr fun p => and_congr_left' (same p)

theorem expand_of_perm {rules : List Rule} (permuted : rules.Perm scope.rules) :
    { scope with rules }.expand principals = scope.expand principals := by
  have same : { scope with rules }.Leads = scope.Leads := by
    funext a b
    exact propext (exists_congr fun rule => and_congr_left' permuted.mem_iff)
  refine Std.ExtTreeSet.ext_mem fun n => ?_
  rw [mem_expand_iff, mem_expand_iff, same]

theorem expand_append :
    scope.expand (principals ++ others) = scope.expand principals ∪ scope.expand others := by
  refine Std.ExtTreeSet.ext_mem fun n => ?_
  rw [Std.ExtTreeSet.mem_union_iff, mem_expand_iff, mem_expand_iff, mem_expand_iff]
  simp only [List.mem_append, or_and_right, exists_or]

/-- Roles that were expanded have nothing more to inherit. -/
theorem expand_toList_expand :
    scope.expand (scope.expand principals).toList = scope.expand principals := by
  refine Std.ExtTreeSet.ext_mem fun n => ?_
  rw [mem_expand_iff]
  simp only [Std.ExtTreeSet.mem_toList]
  constructor
  · intro reached
    obtain ⟨a, mem, reaches⟩ := reached
    obtain ⟨p, given, first⟩ := mem_expand_iff.mp mem
    exact mem_expand_iff.mpr ⟨p, given, first.trans reaches⟩
  · intro mem
    exact ⟨n, mem, .refl⟩

end Scope

end TypeCatalog
