import Mathlib.Data.List.TakeWhile
import TypeCatalog.Proofs.Draft.Names

/-!
# The text of names

A name is written as its two parts with a dot between them.  Reading a text asks for exactly one
dot and for nothing else, so that writing gives back every text that can be read; and a name whose
parts are identifiers, which have no dots, is read back from its text.

* `QName.parse_eq_ok_iff`: a text is read as the one name that it is the text of, if neither part
  of this name has a dot.
* `IsNamePart`, `QName.check_eq_ok_iff_parts`: which names are in order, letter by letter.
* `Draft.Reachable.exists_check`: the types and uniques of a draft have names that are in order for
  some limit, the system's own types included.
* `QName.text_round_trip`: texts to names and back, and names to texts and back.
-/

namespace TypeCatalog

/-! ## Parts of names -/

/-- A letter of the English alphabet. -/
def IsLetter (c : Char) : Prop := 'a' ≤ c ∧ c ≤ 'z' ∨ 'A' ≤ c ∧ c ≤ 'Z'

/-- A decimal digit. -/
def IsDecimalDigit (c : Char) : Prop := '0' ≤ c ∧ c ≤ '9'

/-- What either part of a name has to be like: neither empty nor longer than `limit` bytes, with a
letter or an underscore first and with letters, digits and underscores after it. -/
structure IsNamePart (limit : Nat) (part : String) : Prop where
  nonempty : part ≠ ""
  bounded : part.utf8ByteSize ≤ limit
  first : ∀ c, part.toList.head? = some c → IsLetter c ∨ c = '_'
  rest : ∀ c ∈ part.toList.tail, IsLetter c ∨ IsDecimalDigit c ∨ c = '_'

theorem isAlpha_iff {c : Char} : c.isAlpha = true ↔ IsLetter c := by
  unfold Char.isAlpha Char.isUpper Char.isLower IsLetter
  simp only [Bool.or_eq_true, Bool.and_eq_true, decide_eq_true_eq, ge_iff_le, Char.le_def]
  exact or_comm

theorem isDigit_iff {c : Char} : c.isDigit = true ↔ IsDecimalDigit c := by
  unfold Char.isDigit IsDecimalDigit
  simp only [Bool.and_eq_true, decide_eq_true_eq, ge_iff_le, Char.le_def]

theorem isIdentifierStart_iff {c : Char} : isIdentifierStart c = true ↔ IsLetter c ∨ c = '_' := by
  unfold isIdentifierStart
  rw [Bool.or_eq_true, isAlpha_iff, beq_iff_eq]

theorem isIdentifierPart_iff {c : Char} :
    isIdentifierPart c = true ↔ IsLetter c ∨ IsDecimalDigit c ∨ c = '_' := by
  unfold isIdentifierPart Char.isAlphanum
  rw [Bool.or_eq_true, Bool.or_eq_true, isAlpha_iff, isDigit_iff, beq_iff_eq, or_assoc]

/-- Identifiers are what the parts of names have to be. -/
theorem isIdentifier_iff {limit : Nat} {part : String} :
    IsIdentifier limit part ↔ IsNamePart limit part := by
  constructor
  · intro isIdentifier
    obtain ⟨first, rest, spelled, starts, parts⟩ := isIdentifier.letters
    refine ⟨isIdentifier.ne_empty, isIdentifier.bounded, fun c isFirst => ?_, fun c listed => ?_⟩
    · rw [spelled] at isFirst
      cases isFirst
      exact isIdentifierStart_iff.mp starts
    · rw [spelled] at listed
      exact isIdentifierPart_iff.mp (parts c listed)
  · intro isPart
    refine ⟨isPart.bounded, ?_⟩
    cases spelled : part.toList with
    | nil => exact absurd (String.toList_eq_nil_iff.mp spelled) isPart.nonempty
    | cons first rest =>
        have starts := isPart.first first (by rw [spelled]; rfl)
        have parts := isPart.rest
        rw [spelled] at parts
        exact ⟨first, rest, rfl, isIdentifierStart_iff.mpr starts,
          fun c listed => isIdentifierPart_iff.mpr (parts c listed)⟩

/-! ## Names that are in order -/

namespace QName

variable {limit : Nat} {text : String} {name other : QName}

theorem check_eq_ok_iff :
    name.check limit = .ok () ↔ IsIdentifier limit name.pkg ∧ IsIdentifier limit name.entity := by
  rw [← checkIdentifier_eq_ok_iff, ← checkIdentifier_eq_ok_iff]
  unfold check
  constructor
  · intro accepted
    by_cases isNull : name.isNull = true
    · rw [if_pos isNull] at accepted
      cases accepted
    · rw [if_neg isNull] at accepted
      cases pkg : checkIdentifier limit name.pkg with
      | error error =>
          rw [pkg] at accepted
          cases error <;> cases accepted
      | ok _ =>
          cases entity : checkIdentifier limit name.entity with
          | error error =>
              rw [pkg, entity] at accepted
              cases error <;> cases accepted
          | ok _ => exact ⟨rfl, rfl⟩
  · intro parts
    obtain ⟨pkg, entity⟩ := parts
    have given : name.isNull = false := by
      refine Bool.eq_false_iff.mpr fun isNull => ?_
      rw [isNull_iff.mp isNull] at pkg
      cases pkg
    rw [given, if_neg Bool.false_ne_true, pkg, entity]

theorem check_eq_ok_iff_parts :
    name.check limit = .ok () ↔ IsNamePart limit name.pkg ∧ IsNamePart limit name.entity := by
  rw [check_eq_ok_iff, isIdentifier_iff, isIdentifier_iff]

/-! ## Reading and writing -/

theorem toList_text (name : QName) :
    name.text.toList = name.pkg.toList ++ '.' :: name.entity.toList := by
  unfold text
  rw [String.toList_append, String.toList_append, List.append_assoc]
  rfl

/-- A text is read as a name if it is the text of this name and the dot between the parts of the
name is the only one. -/
theorem parse_eq_ok_iff :
    parse text = .ok name ↔
      name.text = text ∧ '.' ∉ name.pkg.toList ∧ '.' ∉ name.entity.toList := by
  unfold parse
  constructor
  · intro read
    split at read
    next entity rest =>
      split at read
      next => cases read
      next clean =>
        cases read
        refine ⟨String.toList_inj.mp ?_, fun dotted => ?_, ?_⟩
        · rw [toList_text, String.toList_ofList, String.toList_ofList, ← rest,
            List.takeWhile_append_dropWhile]
        · rw [String.toList_ofList] at dotted
          exact absurd (List.mem_takeWhile_imp dotted) (by decide)
        · rw [String.toList_ofList]
          simpa using clean
    next => cases read
  · intro holds
    obtain ⟨rfl, cleanPkg, cleanEntity⟩ := holds
    have solid : ∀ c ∈ name.pkg.toList, (c != '.') = true := by
      intro c listed
      refine bne_iff_ne.mpr fun isDot => ?_
      exact cleanPkg (isDot ▸ listed)
    rw [toList_text, List.dropWhile_append_of_pos solid, List.takeWhile_append_of_pos solid]
    simp [cleanEntity]

theorem exists_parse_iff : (∃ name, parse text = .ok name) ↔ text.toList.count '.' = 1 := by
  simp only [parse_eq_ok_iff]
  constructor
  · intro read
    obtain ⟨name, rfl, cleanPkg, cleanEntity⟩ := read
    rw [toList_text, List.count_append, List.count_cons_self, List.count_eq_zero.mpr cleanPkg,
      List.count_eq_zero.mpr cleanEntity]
  · intro single
    have dotted : '.' ∈ text.toList := List.count_pos_iff.mp (by omega)
    obtain ⟨pkg, entity, spelled, cleanPkg⟩ := List.eq_append_cons_of_mem dotted
    rw [spelled, List.count_append, List.count_cons_self, List.count_eq_zero.mpr cleanPkg] at single
    have cleanEntity : '.' ∉ entity := List.count_eq_zero.mp (by omega)
    refine ⟨⟨String.ofList pkg, String.ofList entity⟩, String.toList_inj.mp ?_, ?_, ?_⟩
    · rw [toList_text, String.toList_ofList, String.toList_ofList, spelled]
    · rw [String.toList_ofList]
      exact cleanPkg
    · rw [String.toList_ofList]
      exact cleanEntity

/-- A name that is in order is read back from its text. -/
theorem parse_text (valid : name.check limit = .ok ()) : parse name.text = .ok name := by
  obtain ⟨pkg, entity⟩ := check_eq_ok_iff.mp valid
  exact parse_eq_ok_iff.mpr ⟨rfl, pkg.dot_not_mem, entity.dot_not_mem⟩

theorem eq_of_text_eq {limitOther : Nat} (valid : name.check limit = .ok ())
    (validOther : other.check limitOther = .ok ()) (same : name.text = other.text) :
    name = other := by
  have read := parse_text valid
  rw [same, parse_text validOther] at read
  exact (Except.ok.inj read).symm

end QName

/-! ## Names of types and uniques -/

namespace Draft

variable {draft : Draft} {name : QName}

/-- The names of the initial draft are in order for the limit that is usual. -/
theorem check_of_mem_initial {config : Config} (listed : name ∈ (initial config).types) :
    name.check 255 = .ok () := by
  obtain ⟨t, found⟩ := mem_types_iff.mp listed
  have among := List.mem_map_of_mem (f := Prod.fst) (initial_getElem?_iff.mp found)
  rw [List.map_map] at among
  have valid : ∀ other ∈ (root :: DataKind.inhabitedKinds.map sysData).map TypeDef.name,
      (other.check 255).isOk = true := by decide +kernel
  exact Check.isOk_iff.mp (valid name among)

theorem Reachable.exists_check (reached : Reachable draft)
    (bound : name ∈ draft.types ∨ name ∈ draft.uniques) :
    ∃ limit, name.check limit = .ok () := by
  have names := reached.namesApart
  rcases bound with isType | isUnique
  · rcases names.types isType with initial | valid
    · exact ⟨_, check_of_mem_initial initial⟩
    · exact ⟨_, valid⟩
  · exact ⟨_, names.uniques isUnique⟩

end Draft

/-! ## Both ways -/

namespace QName

/-- Exactly the texts with one dot are read, each as a name of which it is the text.  A name that
is in order for whatever limit is read back from its text, so that types and uniques of a draft
with the same text have the same name.  And a name is in order exactly if its parts are. -/
theorem text_round_trip :
    (∀ text : String, ((∃ name, parse text = .ok name) ↔ text.toList.count '.' = 1) ∧
      ∀ name, parse text = .ok name → name.text = text) ∧
    (∀ (limit : Nat) (name : QName), name.check limit = .ok () → parse name.text = .ok name) ∧
    (∀ draft : Draft, draft.Reachable → ∀ name other : QName,
      name ∈ draft.types ∨ name ∈ draft.uniques → other ∈ draft.types ∨ other ∈ draft.uniques →
      name ≠ other → name.text ≠ other.text) ∧
    ∀ (limit : Nat) (name : QName), name.check limit = .ok () ↔
      IsNamePart limit name.pkg ∧ IsNamePart limit name.entity := by
  refine ⟨fun text => ⟨exists_parse_iff, fun name read => (parse_eq_ok_iff.mp read).1⟩,
    fun limit name => parse_text, ?_, fun limit name => check_eq_ok_iff_parts⟩
  intro draft reached name other bound boundOther apart same
  obtain ⟨limit, valid⟩ := reached.exists_check bound
  obtain ⟨limitOther, validOther⟩ := reached.exists_check boundOther
  exact apart (eq_of_text_eq valid validOther same)

/-- Books are read back from their text, and no unique is written like them. -/
theorem text_round_trip_book :
    parse "library.book" = .ok (Library.name "book") ∧
    (¬ ∃ name, parse "library.book.title" = .ok name) ∧
    (Library.name "book").text ≠ (Library.name "titles").text ∧
    IsNamePart 255 "book" := by
  obtain ⟨read, readBack, differ, accepted⟩ := text_round_trip
  have valid : (Library.name "book").check 255 = .ok () := Check.isOk_iff.mp (by decide +kernel)
  have isType : Library.name "book" ∈ Library.draftWithChapters.types :=
    Std.ExtTreeMap.contains_iff_mem.mp (by decide +kernel)
  have isUnique : Library.name "titles" ∈ Library.draftWithChapters.uniques :=
    Std.ExtTreeMap.contains_iff_mem.mp (by decide +kernel)
  refine ⟨readBack 255 _ valid, ?_, ?_, ((accepted 255 _).mp valid).2⟩
  · rw [(read "library.book.title").1]
    decide
  · exact differ _ Library.reachable_draftWithChapters _ _ (.inl isType) (.inr isUnique)
      (by decide)

end QName

end TypeCatalog
