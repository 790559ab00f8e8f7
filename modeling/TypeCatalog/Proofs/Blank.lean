import Mathlib.Data.List.TakeWhile
import TypeCatalog.Text.Blank

/-!
# Texts and the blanks in them

Trimming a text and cutting it at its blanks, seen from the results: how a text is put together
from what is left of it and the blanks that were taken away.

* `isBlank_iff`: which characters blanks are.
* `Trims`: a text without the blanks around it; `trimBlanks_eq_iff` says that trimming finds it.
* `SplitsInto`: the words of a text; `blankFields_eq_iff` says that cutting at blanks finds them.
* `cutAt_eq_splitOnP`: cutting a text is splitting a list.
-/

namespace TypeCatalog

/-! ## Blanks -/

/-- The code points with the property of white space. -/
def blankCodes : List Nat :=
  [0x09, 0x0a, 0x0b, 0x0c, 0x0d, 0x20, 0x85, 0xa0, 0x1680, 0x2000, 0x2001, 0x2002, 0x2003, 0x2004,
    0x2005, 0x2006, 0x2007, 0x2008, 0x2009, 0x200a, 0x2028, 0x2029, 0x202f, 0x205f, 0x3000]

theorem isBlank_iff {c : Char} : isBlank c = true ↔ c.toNat ∈ blankCodes := by
  simp only [isBlank, blankCodes, Bool.or_eq_true, Bool.and_eq_true, decide_eq_true_eq, beq_iff_eq,
    List.mem_cons, List.not_mem_nil, or_false]
  omega

/-! ## Trimmed texts -/

/-- The inner text neither starts nor ends with a blank, and around it are blanks only. -/
structure Trims (text inner : List Char) : Prop where
  around : ∃ front back, text = front ++ (inner ++ back) ∧ (∀ c ∈ front, isBlank c = true) ∧
    ∀ c ∈ back, isBlank c = true
  first : ∀ c ∈ inner.head?, isBlank c = false
  last : ∀ c ∈ inner.getLast?, isBlank c = false

theorem dropBlanks_append {blanks : List Char} (blank : ∀ c ∈ blanks, isBlank c = true)
    (rest : List Char) : dropBlanks (blanks ++ rest) = dropBlanks rest :=
  List.dropWhile_append_of_pos blank

theorem dropBlanks_of_head {text : List Char} (first : ∀ c ∈ text.head?, isBlank c = false) :
    dropBlanks text = text := by
  cases text with
  | nil => rfl
  | cons c rest =>
      have solid := first c rfl
      unfold dropBlanks
      rw [List.dropWhile_cons_of_neg (by simp [solid])]

theorem exists_blanks_append (text : List Char) :
    ∃ blanks, text = blanks ++ dropBlanks text ∧ ∀ c ∈ blanks, isBlank c = true :=
  ⟨text.takeWhile isBlank, List.takeWhile_append_dropWhile.symm, fun _ => List.mem_takeWhile_imp⟩

theorem head_dropBlanks (text : List Char) : ∀ c ∈ (dropBlanks text).head?, isBlank c = false := by
  intro c isFirst
  have solid := List.head?_dropWhile_not isBlank text
  unfold dropBlanks at isFirst
  rw [Option.mem_def.mp isFirst] at solid
  exact solid

theorem trims_trimBlanks (text : List Char) : Trims text (trimBlanks text) := by
  obtain ⟨front, whole, blankFront⟩ := exists_blanks_append text
  obtain ⟨back, rest, blankBack⟩ := exists_blanks_append (dropBlanks text).reverse
  have middle : dropBlanks text = trimBlanks text ++ back.reverse := by
    unfold trimBlanks
    rw [← List.reverse_append, ← rest, List.reverse_reverse]
  refine ⟨⟨front, back.reverse, middle ▸ whole, blankFront, by simpa using blankBack⟩, ?_, ?_⟩
  · intro c isFirst
    refine head_dropBlanks text c ?_
    rw [middle, List.head?_append, Option.mem_def.mp isFirst]
    rfl
  · unfold trimBlanks
    rw [List.getLast?_reverse]
    exact head_dropBlanks _

theorem trimBlanks_eq_iff {text inner : List Char} :
    trimBlanks text = inner ↔ Trims text inner := by
  constructor
  · intro same
    exact same ▸ trims_trimBlanks text
  · intro trims
    obtain ⟨front, back, rfl, blankFront, blankBack⟩ := trims.around
    unfold trimBlanks
    rw [dropBlanks_append blankFront]
    by_cases empty : inner = []
    · subst empty
      have nothing : dropBlanks ([] ++ back) = [] := List.dropWhile_eq_nil_iff.mpr blankBack
      rw [nothing]
      rfl
    · have whole : dropBlanks (inner ++ back) = inner ++ back := by
        refine dropBlanks_of_head fun c isFirst => trims.first c ?_
        rw [List.head?_append, List.head?_eq_some_head empty] at isFirst
        rw [List.head?_eq_some_head empty]
        exact isFirst
      have rest : dropBlanks inner.reverse = inner.reverse := by
        refine dropBlanks_of_head ?_
        rw [List.head?_reverse]
        exact trims.last
      rw [whole, List.reverse_append, dropBlanks_append (by simpa using blankBack), rest,
        List.reverse_reverse]

/-- A text that does not end with a blank is trimmed at its start only. -/
theorem Trims.exists_front {text inner : List Char} (trims : Trims text inner)
    (last : ∀ c ∈ text.getLast?, isBlank c = false) :
    ∃ front, text = front ++ inner ∧ ∀ c ∈ front, isBlank c = true := by
  obtain ⟨front, back, rfl, blankFront, blankBack⟩ := trims.around
  by_cases empty : back = []
  · subst empty
    exact ⟨front, by rw [List.append_nil], blankFront⟩
  · have isLast : (front ++ (inner ++ back)).getLast? = some (back.getLast empty) := by
      rw [List.getLast?_append, List.getLast?_append, List.getLast?_eq_some_getLast empty]
      rfl
    have blank := blankBack _ (List.getLast_mem empty)
    rw [last _ isLast] at blank
    cases blank

/-! ## Words -/

theorem cutAt_eq_splitOnP (cut : Char → Bool) (text : List Char) :
    cutAt cut text = text.splitOnP cut := by
  induction text with
  | nil => rfl
  | cons c rest ih =>
      rw [cutAt, ih, List.splitOnP_cons_eq_if_modifyHead]
      split
      next => rfl
      next =>
        cases pieces : rest.splitOnP cut with
        | nil => exact absurd pieces (List.splitOnP_ne_nil cut rest)
        | cons => rfl

/-- The text consists of the words, in order, with blanks between them and maybe around them. -/
inductive SplitsInto : List Char → List (List Char) → Prop
  | blank {blanks : List Char} : (∀ c ∈ blanks, isBlank c = true) → SplitsInto blanks []
  | word {blanks word rest : List Char} {words : List (List Char)} :
    (∀ c ∈ blanks, isBlank c = true) → word ≠ [] → (∀ c ∈ word, isBlank c = false) →
    (∀ c ∈ rest.head?, isBlank c = true) → SplitsInto rest words →
    SplitsInto (blanks ++ (word ++ rest)) (word :: words)

theorem blankFields_append {blanks : List Char} (blank : ∀ c ∈ blanks, isBlank c = true)
    (rest : List Char) : blankFields (blanks ++ rest) = blankFields rest := by
  induction blanks with
  | nil => rfl
  | cons c others ih =>
      obtain ⟨blank_c, blank⟩ := List.forall_mem_cons.mp blank
      rw [← ih blank]
      unfold blankFields
      rw [List.cons_append, cutAt, if_pos blank_c]
      rfl

theorem blankFields_word {word rest : List Char} (nonempty : word ≠ [])
    (solid : ∀ c ∈ word, isBlank c = false) (ends : ∀ c ∈ rest.head?, isBlank c = true) :
    blankFields (word ++ rest) = word :: blankFields rest := by
  have kept : ∀ pieces : List (List Char), ((word :: pieces).filter fun piece => !piece.isEmpty) =
      word :: pieces.filter fun piece => !piece.isEmpty :=
    fun _ => List.filter_cons_of_pos (by simpa using nonempty)
  cases rest with
  | nil =>
      unfold blankFields
      rw [List.append_nil, cutAt_eq_splitOnP, List.splitOnP_eq_singleton solid, kept]
      rfl
  | cons c rest =>
      have blank_c := ends c rfl
      have past := blankFields_append (List.forall_mem_singleton.mpr blank_c) rest
      rw [← List.singleton_append, past]
      unfold blankFields
      rw [cutAt_eq_splitOnP, cutAt_eq_splitOnP, List.singleton_append,
        List.splitOnP_append_cons_of_forall_mem solid c blank_c, kept]

theorem SplitsInto.blankFields_eq {text : List Char} {words : List (List Char)}
    (splits : SplitsInto text words) : blankFields text = words := by
  induction splits with
  | blank blank =>
      have past := blankFields_append blank []
      rw [List.append_nil] at past
      rw [past]
      rfl
  | word blank nonempty solid ends _ ih =>
      rw [blankFields_append blank, blankFields_word nonempty solid ends, ih]

theorem SplitsInto.blank_cons {c : Char} {text : List Char} {words : List (List Char)}
    (blank_c : isBlank c = true) (splits : SplitsInto text words) :
    SplitsInto (c :: text) words := by
  cases splits with
  | blank blank => exact .blank (List.forall_mem_cons.mpr ⟨blank_c, blank⟩)
  | @word blanks _ _ _ blank nonempty solid ends rest =>
      have longer : ∀ b ∈ c :: blanks, isBlank b = true :=
        List.forall_mem_cons.mpr ⟨blank_c, blank⟩
      exact .word longer nonempty solid ends rest

/-- Another character goes on with the first word if there is no blank before that, and is a word of
its own otherwise. -/
theorem SplitsInto.solid_cons {c : Char} {text : List Char} {words : List (List Char)}
    (solid_c : isBlank c = false) (splits : SplitsInto text words) :
    ∃ words, SplitsInto (c :: text) words := by
  have alone : (∀ b ∈ text.head?, isBlank b = true) → SplitsInto (c :: text) ([c] :: words) :=
    fun ends => .word (List.forall_mem_nil _) (List.cons_ne_nil c [])
      (List.forall_mem_singleton.mpr solid_c) ends splits
  cases splits with
  | blank blank => exact ⟨_, alone fun b isFirst => blank b (List.mem_of_head? isFirst)⟩
  | @word blanks word rest others blank nonempty solid ends more =>
      -- Without blanks before it the first word is at the start of the text.
      cases blanks with
      | nil =>
          have longer : ∀ b ∈ c :: word, isBlank b = false :=
            List.forall_mem_cons.mpr ⟨solid_c, solid⟩
          exact ⟨(c :: word) :: others, .word blank (List.cons_ne_nil c word) longer ends more⟩
      | cons b blanks =>
          refine ⟨_, alone fun first isFirst => ?_⟩
          cases isFirst
          exact blank b List.mem_cons_self

theorem exists_splitsInto (text : List Char) : ∃ words, SplitsInto text words := by
  induction text with
  | nil => exact ⟨[], .blank (by simp)⟩
  | cons c rest ih =>
      obtain ⟨words, splits⟩ := ih
      cases kind : isBlank c with
      | true => exact ⟨words, splits.blank_cons kind⟩
      | false => exact splits.solid_cons kind

theorem blankFields_eq_iff {text : List Char} {words : List (List Char)} :
    blankFields text = words ↔ SplitsInto text words := by
  constructor
  · intro same
    obtain ⟨found, splits⟩ := exists_splitsInto text
    rw [← same, splits.blankFields_eq]
    exact splits
  · exact SplitsInto.blankFields_eq

end TypeCatalog
