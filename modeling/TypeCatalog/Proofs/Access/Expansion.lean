import Mathlib.Logic.Function.Iterate
import TypeCatalog.Proofs.Access.Inheritance

/-!
# Expanding roles in place

The roles that some roles inherit are also found in a single set that grows in place.  The grants
of roles are gone through in order, and a role that one grant brings counts at once for the grants
after it.  As long as a pass through the grants brought any role, there is another pass.

* `Expansion.pass`, `Expansion.round`: one pass, and the decision whether there is another.
* `Expansion.Passing`: what holds throughout a pass.  All roles that one grant leads to from the
  start are in at the end (`Expansion.mem_pass_of_leads`), so that a pass that brings nothing was
  started from a closed set (`Expansion.roles_pass_of_not_grown`).
* `Expansion.grown_iterate`: each pass but the last brings a role in scope, so that passes end.
* `Scope.expand_reachability`: in every scope the passes end with `Scope.expand`, and what follows
  for expansions of several lists of roles.
-/

namespace TypeCatalog

open Relation (ReflTransGen)

/-- An expansion under way: the roles found, and whether the last pass brought any. -/
structure Expansion where
  roles : NameSet
  grown : Bool

namespace Expansion

variable {scope : Scope} {principals : List QName} {name other : QName} {names all : NameSet}
  {found : Expansion} {rule : Rule} {rules : List Rule} {known : List TypeDef}

/-! ## Passes -/

/-- Only the roles to expand are there, and a first pass is due. -/
def initial (principals : List QName) : Expansion := { roles := .ofList principals, grown := true }

/-- Takes in one role. -/
def adopt (found : Expansion) (role : TypeDef) : Expansion where
  roles := found.roles.insert role.name
  grown := found.grown || !found.roles.contains role.name

/-- Takes in all the roles that a grant selects, if the role that it is made to is there. -/
def follow (known : List TypeDef) (found : Expansion) (rule : Rule) : Expansion :=
  if found.roles.contains rule.principal then (rule.selector.select known).foldl adopt found
  else found

/-- The rules by which roles inherit from others. -/
def lending (scope : Scope) : List Rule :=
  scope.rules.filter fun rule => rule.policy == .allow && rule.operations.contains .inherits

/-- Follows these rules one after the other, from a set of roles. -/
def pass (scope : Scope) (names : NameSet) : Expansion :=
  (lending scope).foldl (follow scope.roles) { roles := names, grown := false }

/-- Another pass, unless the last one brought nothing. -/
def round (scope : Scope) (found : Expansion) : Expansion :=
  if found.grown then pass scope found.roles else found

theorem round_of_grown (grown : found.grown = true) : round scope found = pass scope found.roles :=
  if_pos grown

theorem round_of_not_grown (ended : found.grown = false) : round scope found = found :=
  if_neg (Bool.eq_false_iff.mp ended)

theorem leads_iff {a b : QName} :
    scope.Leads a b ↔ ∃ rule ∈ lending scope, rule.principal = a ∧
      ∃ role ∈ rule.selector.select scope.roles, role.name = b := by
  unfold Scope.Leads lending Selector.select
  simp only [List.mem_filter, Bool.and_eq_true, beq_iff_eq, Std.ExtTreeSet.contains_iff_mem]
  constructor
  · intro leads
    obtain ⟨rule, inRules, grants, inherits, principal, role, known, named, selected⟩ := leads
    exact ⟨rule, ⟨inRules, grants, inherits⟩, principal, role, ⟨known, selected⟩, named⟩
  · intro leads
    obtain ⟨rule, ⟨inRules, grants, inherits⟩, principal, role, ⟨known, selected⟩, named⟩ := leads
    exact ⟨rule, inRules, grants, inherits, principal, role, known, named, selected⟩

/-! ## What a pass brings -/

theorem mem_adopt_iff {role : TypeDef} :
    name ∈ (found.adopt role).roles ↔ name = role.name ∨ name ∈ found.roles :=
  mem_insert_key_iff

theorem mem_foldl_adopt_iff {chosen : List TypeDef} :
    name ∈ (chosen.foldl adopt found).roles ↔
      name ∈ found.roles ∨ ∃ role ∈ chosen, role.name = name := by
  induction chosen generalizing found with
  | nil => simp
  | cons role rest ih =>
      rw [List.foldl_cons, ih, mem_adopt_iff]
      simp only [List.mem_cons, exists_eq_or_imp]
      rw [or_assoc, or_left_comm, eq_comm]

theorem mem_follow_iff :
    name ∈ (follow known found rule).roles ↔
      name ∈ found.roles ∨
        rule.principal ∈ found.roles ∧ ∃ role ∈ rule.selector.select known, role.name = name := by
  unfold follow
  split
  next there =>
    rw [mem_foldl_adopt_iff, and_iff_right (Std.ExtTreeSet.contains_iff_mem.mp there)]
  next missing =>
    rw [Std.ExtTreeSet.contains_iff_mem] at missing
    rw [or_iff_left fun brought => missing brought.1]

theorem mem_foldl_follow_of_mem (mem : name ∈ found.roles) :
    name ∈ (rules.foldl (follow known) found).roles := by
  induction rules generalizing found with
  | nil => exact mem
  | cons rule rest ih => exact ih (mem_follow_iff.mpr (.inl mem))

/-- A rule brings its roles whenever the role that it is made to was there before. -/
theorem mem_foldl_follow_of_rule (listed : rule ∈ rules) (mem : rule.principal ∈ found.roles)
    (brings : ∃ role ∈ rule.selector.select known, role.name = name) :
    name ∈ (rules.foldl (follow known) found).roles := by
  induction rules generalizing found with
  | nil => cases listed
  | cons first rest ih =>
      rw [List.foldl_cons]
      rcases List.mem_cons.mp listed with rfl | later
      · exact mem_foldl_follow_of_mem (mem_follow_iff.mpr (.inr ⟨mem, brings⟩))
      · exact ih later (mem_follow_iff.mpr (.inl mem))

theorem mem_pass_of_leads (mem : name ∈ names) (leads : scope.Leads name other) :
    other ∈ (pass scope names).roles := by
  obtain ⟨rule, listed, rfl, brings⟩ := leads_iff.mp leads
  exact mem_foldl_follow_of_rule listed mem brings

/-- What holds throughout a pass: the roles that it began with are kept, grants lead from them to
all others, and growth is growth in size. -/
structure Passing (scope : Scope) (names : NameSet) (found : Expansion) : Prop where
  kept : ∀ name ∈ names, name ∈ found.roles
  led : ∀ name ∈ found.roles, ∃ a ∈ names, ReflTransGen scope.Leads a name
  counted : found.grown = true ↔ names.size < found.roles.size

theorem passing_refl : Passing scope names { roles := names, grown := false } where
  kept := fun _ mem => mem
  led := fun name mem => ⟨name, mem, .refl⟩
  counted := by simp

theorem Passing.adopt (passing : Passing scope names found) {role : TypeDef}
    (leads : ∃ a ∈ found.roles, scope.Leads a role.name) :
    Passing scope names (found.adopt role) where
  kept name mem := mem_adopt_iff.mpr (.inr (passing.kept name mem))
  led := by
    intro name mem
    rcases mem_adopt_iff.mp mem with rfl | old
    · obtain ⟨a, there, leads⟩ := leads
      obtain ⟨start, began, reaches⟩ := passing.led a there
      exact ⟨start, began, reaches.tail leads⟩
    · exact passing.led name old
  counted := by
    have notLess : names.size ≤ found.roles.size := size_le_size passing.kept
    unfold Expansion.adopt
    dsimp only
    rw [Bool.or_eq_true, passing.counted, Std.ExtTreeSet.size_insert]
    cases found.roles.contains role.name with
    | true => simp
    | false => simp; omega

/-- Roles that one grant selects are taken in while the role that it is made to stays there. -/
theorem Passing.foldl_adopt (passing : Passing scope names found) {chosen : List TypeDef}
    {a : QName} (there : a ∈ found.roles) (leads : ∀ role ∈ chosen, scope.Leads a role.name) :
    Passing scope names (chosen.foldl Expansion.adopt found) := by
  induction chosen generalizing found with
  | nil => exact passing
  | cons role rest ih =>
      have first : scope.Leads a role.name := leads role List.mem_cons_self
      exact ih (passing.adopt ⟨a, there, first⟩) (mem_adopt_iff.mpr (.inr there))
        fun later chosen => leads later (List.mem_cons_of_mem _ chosen)

theorem Passing.follow (passing : Passing scope names found) (listed : rule ∈ lending scope) :
    Passing scope names (follow scope.roles found rule) := by
  unfold Expansion.follow
  split
  next there =>
    refine passing.foldl_adopt (Std.ExtTreeSet.contains_iff_mem.mp there) fun role chosen => ?_
    exact leads_iff.mpr ⟨rule, listed, rfl, role, chosen, rfl⟩
  next => exact passing

theorem passing_pass : Passing scope names (pass scope names) := by
  unfold pass
  refine List.foldlRecOn _ _ passing_refl fun _ passing _ listed => ?_
  exact passing.follow listed

/-- A pass that brings nothing leaves the roles as they were. -/
theorem roles_pass_of_not_grown (ended : (pass scope names).grown = false) :
    (pass scope names).roles = names := by
  have passing : Passing scope names (pass scope names) := passing_pass
  have same : (pass scope names).roles.size ≤ names.size := by
    rw [← Nat.not_lt, ← passing.counted, ended]
    exact Bool.false_ne_true
  refine Std.ExtTreeSet.ext_mem fun name => ⟨fun mem => ?_, passing.kept name⟩
  exact mem_of_size_le passing.kept same mem

/-! ## Rounds -/

/-- What holds throughout an expansion: the roles to expand are there, grants lead to all others,
and after a pass that brought nothing no grant leads any further. -/
structure Sound (scope : Scope) (principals : List QName) (found : Expansion) : Prop where
  began : ∀ p ∈ principals, p ∈ found.roles
  reached : ∀ name ∈ found.roles, ∃ p ∈ principals, ReflTransGen scope.Leads p name
  closed : found.grown = false → ∀ a ∈ found.roles, ∀ b, scope.Leads a b → b ∈ found.roles

theorem mem_initial_iff : name ∈ (initial principals).roles ↔ name ∈ principals := by
  unfold initial
  rw [Std.ExtTreeSet.mem_ofList, List.contains_iff_mem]

theorem sound_initial : Sound scope principals (initial principals) where
  began _ given := mem_initial_iff.mpr given
  reached name mem := ⟨name, mem_initial_iff.mp mem, .refl⟩
  closed ended := by cases ended

theorem Sound.round (sound : Sound scope principals found) :
    Sound scope principals (round scope found) := by
  cases grown : found.grown with
  | false =>
      rw [round_of_not_grown grown]
      exact sound
  | true =>
      rw [round_of_grown grown]
      have passing : Passing scope found.roles (pass scope found.roles) := passing_pass
      exact {
        began := fun p given => passing.kept p (sound.began p given)
        reached := by
          intro name mem
          obtain ⟨a, old, reaches⟩ := passing.led name mem
          obtain ⟨p, given, first⟩ := sound.reached a old
          exact ⟨p, given, first.trans reaches⟩
        closed := by
          intro ended a mem b leads
          rw [roles_pass_of_not_grown ended] at mem
          exact mem_pass_of_leads mem leads }

theorem Sound.iterate (sound : Sound scope principals found) (rounds : Nat) :
    Sound scope principals ((Expansion.round scope)^[rounds] found) :=
  Function.Iterate.rec _ sound (fun _ => Sound.round) rounds

/-- Each pass but the last brings a role.  As many passes as roles are missing from all that grants
lead to, and one more, are therefore enough. -/
theorem grown_iterate (inside : ∀ a b, scope.Leads a b → b ∈ all)
    (started : ∀ name ∈ found.roles, name ∈ all) {rounds : Nat}
    (enough : all.size < found.roles.size + rounds) :
    ((round scope)^[rounds] found).grown = false := by
  induction rounds generalizing found with
  | zero =>
      have bounded : found.roles.size ≤ all.size := size_le_size started
      omega
  | succ rounds ih =>
      rw [Function.iterate_succ_apply]
      cases next : (round scope found).grown with
      | false =>
          rw [Function.iterate_fixed (round_of_not_grown next)]
          exact next
      | true =>
          have grown : found.grown = true := by
            rw [← Bool.not_eq_false]
            intro ended
            rw [round_of_not_grown ended, ended] at next
            cases next
          rw [round_of_grown grown] at next ⊢
          have passing : Passing scope found.roles (pass scope found.roles) := passing_pass
          have larger : found.roles.size < (pass scope found.roles).roles.size :=
            passing.counted.mp next
          refine ih (fun name mem => ?_) (by omega)
          obtain ⟨a, old, reaches⟩ := passing.led name mem
          rcases reaches.cases_tail with rfl | ⟨b, _, leads⟩
          · exact started _ old
          · exact inside b name leads

end Expansion

/-! ## Expansion as reachability -/

namespace Scope

variable {scope : Scope} {principals : List QName}

/-- One pass more than there are roles in scope is enough for the expansion. -/
theorem iterate_round_initial {rounds : Nat} (enough : scope.roles.length < rounds) :
    (Expansion.round scope)^[rounds] (.initial principals) =
      { roles := scope.expand principals, grown := false } := by
  have bounded : ((Expansion.initial principals).roles.insertMany
      (scope.roles.map TypeDef.name)).size ≤
        (Expansion.initial principals).roles.size + scope.roles.length := by
    rw [← List.length_map TypeDef.name]
    exact Std.ExtTreeSet.size_insertMany_list_le
  have inside : ∀ a b, scope.Leads a b →
      b ∈ (Expansion.initial principals).roles.insertMany (scope.roles.map TypeDef.name) := by
    intro a b leads
    have known := mem_roles_of_inherited a b (mem_inherited_iff.mpr leads)
    exact Std.ExtTreeSet.mem_insertMany_list.mpr (.inr (List.contains_iff_mem.mpr known))
  have ended : ((Expansion.round scope)^[rounds] (.initial principals)).grown = false :=
    Expansion.grown_iterate inside (fun _ mem => Std.ExtTreeSet.mem_insertMany_list.mpr (.inl mem))
      (by omega)
  have sound : Expansion.Sound scope principals
      ((Expansion.round scope)^[rounds] (.initial principals)) :=
    Expansion.sound_initial.iterate rounds
  have found : ((Expansion.round scope)^[rounds] (.initial principals)).roles =
      scope.expand principals :=
    eq_expand_of_closed sound.began (sound.closed ended) sound.reached
  rw [← found, ← ended]

/-- Whatever inherits from what, in circles as well: to go through the grants of roles again and
again, taking in roles at once, ends after at most one pass more than there are roles in scope, and
finds exactly the roles that inheritance leads to.  So it depends on the roles to expand and on the
rules as sets only, goes through unions and has nothing to add to what it found. -/
theorem expand_reachability (scope : Scope) (principals others : List QName) :
    (∀ rounds, scope.roles.length < rounds →
      (Expansion.round scope)^[rounds] (.initial principals) =
        { roles := scope.expand principals, grown := false }) ∧
    (∀ name, name ∈ scope.expand principals ↔
      ∃ p ∈ principals, ReflTransGen scope.Leads p name) ∧
    ((∀ p, p ∈ principals ↔ p ∈ others) → scope.expand principals = scope.expand others) ∧
    (∀ rules : List Rule, rules.Perm scope.rules →
      { scope with rules }.expand principals = scope.expand principals) ∧
    scope.expand (principals ++ others) = scope.expand principals ∪ scope.expand others ∧
    scope.expand (scope.expand principals).toList = scope.expand principals :=
  ⟨fun _ => iterate_round_initial, fun _ => mem_expand_iff, expand_congr, fun _ => expand_of_perm,
    expand_append, expand_toList_expand⟩

/-- Three roles in a circle: by the rules in order, `c` inherits from `a`, `b` from `c` and `a`
from `b`. -/
def circle : Scope :=
  let named (entity : String) : QName := ⟨"circle", entity⟩
  let role (entity : String) : TypeDef := { TypeDef.null with name := named entity, kind := .role }
  let lends (position : Nat) (entity heir : String) : Rule := {
    position, policy := .allow, operations := .ofList [Operation.inherits]
    selector := .names (.ofList [named entity]), fields := [], principal := named heir
    workspace := ⟨"circle", "home"⟩ }
  { resolve := fun _ => .null
    roles := [role "a", role "b", role "c"]
    rules := [lends 0 "a" "c", lends 1 "c" "b", lends 2 "b" "a"]
    logsDenials := false }

/-- From `a` the first pass finds `b` only, since `c` comes in too late for the rules before.  With
the rules in reverse the first pass finds both.  Either way the expansion is the same. -/
theorem expand_reachability_circle :
    let a : QName := ⟨"circle", "a"⟩
    let b : QName := ⟨"circle", "b"⟩
    let c : QName := ⟨"circle", "c"⟩
    (Expansion.pass circle (.ofList [a])).roles.toList = [a, b] ∧
    (Expansion.round circle)^[4] (.initial [a]) =
      { roles := circle.expand [a], grown := false } ∧
    (circle.expand [a]).toList = [a, b, c] ∧
    (Expansion.pass { circle with rules := circle.rules.reverse } (.ofList [a])).roles.toList =
      [a, b, c] ∧
    { circle with rules := circle.rules.reverse }.expand [a] = circle.expand [a] ∧
    circle.expand [a] = circle.expand [a, a] ∧
    ReflTransGen circle.Leads a c := by
  intro a b c
  obtain ⟨ends, reached, sameRoles, sameRules, _⟩ := expand_reachability circle [a] [a, a]
  have found : (circle.expand [a]).toList = [a, b, c] := by decide +kernel
  have listed : c ∈ circle.expand [a] := by
    rw [← Std.ExtTreeSet.mem_toList, found]
    simp
  obtain ⟨p, given, reaches⟩ := (reached c).mp listed
  rw [List.mem_singleton.mp given] at reaches
  exact ⟨by decide +kernel, ends 4 (by decide), found, by decide +kernel,
    sameRules _ (List.reverse_perm _), sameRoles (by simp), reaches⟩

end Scope

end TypeCatalog
