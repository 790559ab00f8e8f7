import TypeCatalog.Identifier

/-!
# What identifiers are

`checkIdentifier` looks for the rule that a text breaks first.  A text that breaks none of them is
an identifier, and such a text has no dot.

* `IsIdentifier`: the rules for identifiers, without an order.
* `checkIdentifier_eq_ok_iff`: the check accepts the identifiers and nothing else.
-/

namespace TypeCatalog

/-- The text is an identifier of at most `limit` bytes. -/
structure IsIdentifier (limit : Nat) (ident : String) : Prop where
  bounded : ident.utf8ByteSize ≤ limit
  letters : ∃ first rest, ident.toList = first :: rest ∧ isIdentifierStart first = true ∧
    ∀ c ∈ rest, isIdentifierPart c = true

variable {limit : Nat} {ident : String}

theorem checkIdentifier_eq_ok_iff :
    checkIdentifier limit ident = .ok () ↔ IsIdentifier limit ident := by
  unfold checkIdentifier
  cases letters : ident.toList with
  | nil =>
      refine iff_of_false (fun accepted => by cases accepted) fun isIdentifier => ?_
      obtain ⟨first, rest, spelled, _⟩ := isIdentifier.letters
      rw [letters] at spelled
      cases spelled
  | cons first rest =>
      dsimp only
      constructor
      · intro accepted
        split at accepted
        next => cases accepted
        next bounded =>
          split at accepted
          next => cases accepted
          next starts =>
            split at accepted
            next => cases accepted
            next clean =>
              exact ⟨Nat.not_lt.mp bounded, first, rest, letters, by simpa using starts,
                by simpa using clean⟩
      · intro isIdentifier
        obtain ⟨_, _, spelled, starts, parts⟩ := isIdentifier.letters
        rw [letters] at spelled
        cases spelled
        have clean : (rest.find? fun c => !isIdentifierPart c) = none := by simpa using parts
        rw [if_neg (Nat.not_lt.mpr isIdentifier.bounded), starts, clean]
        rfl

theorem IsIdentifier.ne_empty (isIdentifier : IsIdentifier limit ident) : ident ≠ "" := by
  intro empty
  obtain ⟨first, rest, spelled, _⟩ := isIdentifier.letters
  rw [empty] at spelled
  cases spelled

theorem isIdentifierPart_of_start {c : Char} (starts : isIdentifierStart c = true) :
    isIdentifierPart c = true := by
  unfold isIdentifierStart at starts
  unfold isIdentifierPart Char.isAlphanum
  rw [Bool.or_eq_true] at starts
  rcases starts with letter | underscore
  · simp [letter]
  · simp [underscore]

/-- Every letter of an identifier is one that identifiers go on with. -/
theorem IsIdentifier.part_of_mem (isIdentifier : IsIdentifier limit ident) {c : Char}
    (listed : c ∈ ident.toList) : isIdentifierPart c = true := by
  obtain ⟨first, rest, spelled, starts, parts⟩ := isIdentifier.letters
  rw [spelled] at listed
  rcases List.mem_cons.mp listed with rfl | among
  · exact isIdentifierPart_of_start starts
  · exact parts c among

theorem IsIdentifier.dot_not_mem (isIdentifier : IsIdentifier limit ident) :
    '.' ∉ ident.toList := by
  intro dotted
  have isPart := isIdentifier.part_of_mem dotted
  revert isPart
  decide

end TypeCatalog
