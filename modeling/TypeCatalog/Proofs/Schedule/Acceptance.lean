import TypeCatalog.Proofs.Checks
import TypeCatalog.Proofs.Schedule.Grammar

/-!
# Accepted schedules

The checks of schedules read a text from its start and cut it where they first can.  Nothing is lost
by that, since the characters that they cut at are in no value: each check accepts what the grammar
says and nothing else.

* `Schedule.readNumber_eq_some_iff`, `Schedule.readValue_eq_ok_iff`: numbers and values.
* `Schedule.checkRange_eq_ok_iff`, `Schedule.checkItem_eq_ok_iff`,
  `Schedule.checkField_eq_ok_iff`: the layers of a field.
* `Schedule.durationFrom_eq`: durations, which are added up as far as 64 bits go.
* `Schedule.check_grammar`: schedules.
-/

namespace TypeCatalog

namespace Schedule

variable {field : FieldRule} {text : List Char} {n bound : Nat}

/-! ## Numbers -/

theorem digitsValue_eq (digits : List Char) :
    digitsValue digits = Nat.ofDigits 10 (digits.reverse.map fun c => c.toNat - '0'.toNat) := by
  unfold digitsValue
  rw [Nat.ofDigits_eq_foldr, List.foldr_map, List.foldr_reverse]
  simp only [Nat.cast_id, Nat.add_comm]

theorem readDigits_eq_some_iff {digits : List Char} :
    readDigits bound digits = some n ↔ IsDigits digits n ∧ n < bound := by
  unfold readDigits
  constructor
  · intro read
    split at read
    next => cases read
    next fits =>
      cases read
      simp only [Bool.or_eq_true, Bool.not_eq_true', decide_eq_true_eq, not_or, Bool.not_eq_false,
        List.all_eq_true, List.isEmpty_iff, Nat.not_le] at fits
      exact ⟨⟨fits.1.1, fits.1.2, (digitsValue_eq digits).symm⟩, fits.2⟩
  · intro holds
    obtain ⟨⟨nonempty, all, value⟩, small⟩ := holds
    rw [← digitsValue_eq] at value
    subst value
    rw [if_neg]
    simpa [nonempty, small] using all

theorem not_isDigits_plus {digits : List Char} : ¬ IsDigits ('+' :: digits) n := by
  intro read
  have digit := read.all '+' List.mem_cons_self
  revert digit
  decide

theorem readNumber_eq_some_iff : readNumber text = some n ↔ IsNumber text n := by
  constructor
  · intro read
    unfold readNumber at read
    split at read
    next digits =>
      obtain ⟨digits, small⟩ := readDigits_eq_some_iff.mp read
      exact .signed digits small
    next =>
      obtain ⟨digits, small⟩ := readDigits_eq_some_iff.mp read
      exact .plain digits small
  · intro number
    cases number with
    | signed digits small => exact readDigits_eq_some_iff.mpr ⟨digits, small⟩
    | plain digits small =>
        unfold readNumber
        split
        next => exact absurd digits not_isDigits_plus
        next => exact readDigits_eq_some_iff.mpr ⟨digits, small⟩

theorem checkStep_eq_ok_iff :
    checkStep field text = .ok () ↔ ∃ n, IsNumber text n ∧ 0 < n := by
  unfold checkStep
  simp only [← readNumber_eq_some_iff]
  constructor
  · intro accepted
    split at accepted
    next n read => exact ⟨n + 1, read, n.succ_pos⟩
    next => cases accepted
  · intro holds
    obtain ⟨n, read, positive⟩ := holds
    obtain ⟨m, rfl⟩ := Nat.exists_eq_add_one.mpr positive
    rw [read]

/-! ## Values -/

theorem isAlpha_eq_false_of_isDigit {c : Char} (digit : c.isDigit = true) : c.isAlpha = false := by
  refine Bool.eq_false_iff.mpr fun letter => ?_
  have above : 'A'.toNat ≤ c.toNat := by
    have kinds : (c.isUpper || c.isLower) = true := letter
    rcases (Bool.or_eq_true _ _).mp kinds with upper | lower
    · have range : 'A'.val ≤ c.val ∧ c.val ≤ 'Z'.val := of_decide_eq_true upper
      exact UInt32.le_iff_toNat_le.mp range.1
    · have range : 'a'.val ≤ c.val := of_decide_eq_true (Bool.and_eq_true_iff.mp lower).1
      have smaller : 'A'.toNat ≤ 'a'.toNat := by decide
      exact smaller.trans (UInt32.le_iff_toNat_le.mp range)
  have below : c.toNat ≤ '9'.toNat := (Char.isDigit_iff_toNat.mp digit).2
  have apart : '9'.toNat < 'A'.toNat := by decide
  omega

theorem IsNumber.exists_first (number : IsNumber text n) :
    ∃ c rest, text = c :: rest ∧ c.isAlpha = false := by
  cases number with
  | signed _ _ => exact ⟨'+', _, rfl, by decide⟩
  | plain digits _ =>
      obtain ⟨c, rest, rfl⟩ := List.exists_cons_of_ne_nil digits.nonempty
      exact ⟨c, rest, rfl, isAlpha_eq_false_of_isDigit (digits.all c List.mem_cons_self)⟩

/-- What is a number is not a name as well. -/
theorem Values.Spelled.not_named {values : Values} (spelled : values.Spelled)
    (number : IsNumber text n) {name : String} (listed : name ∈ values.names) :
    text.map Char.toUpper ≠ name.toList := by
  intro same
  obtain ⟨c, rest, rfl, noLetter⟩ := number.exists_first
  have upper := spelled.upper name listed c.toUpper (same ▸ List.mem_cons_self)
  rw [isAlpha_of_isUpper_toUpper upper] at noLetter
  cases noLetter

/-- A name is found at its own place. -/
theorem Values.Spelled.findIdx?_eq {values : Values} (spelled : values.Spelled) {name : String}
    {position : Nat} (isName : values.names[position]? = some name)
    (same : text.map Char.toUpper = name.toList) :
    (values.names.findIdx? fun name => name.toList == text.map Char.toUpper) =
      some position := by
  obtain ⟨inside, rfl⟩ := List.getElem?_eq_some_iff.mp isName
  refine List.findIdx?_eq_some_iff_getElem.mpr ⟨inside, by simp [same], fun other before => ?_⟩
  intro also
  have alike : values.names[other].toList = values.names[position].toList :=
    (beq_iff_eq.mp also).trans same
  have there : other = position :=
    (List.getElem_inj spelled.distinct).mp (String.toList_inj.mp alike)
  omega

/-- The values that a field is checked for. -/
def FieldRule.values (field : FieldRule) : Values where
  least := field.min
  most := field.max
  names := field.valueNames

theorem spelled_of_mem (listed : field ∈ fieldRules) : field.values.Spelled := by
  have spelled : (fieldRules.all fun field => decide field.valueNames.Nodup &&
      field.valueNames.all fun name => name.toList.all Char.isUpper) = true := by decide +kernel
  simp only [List.all_eq_true, Bool.and_eq_true, decide_eq_true_eq] at spelled
  obtain ⟨distinct, upper⟩ := spelled field listed
  exact ⟨distinct, upper⟩

theorem readValue_eq_ok_iff (spelled : field.values.Spelled) :
    readValue field text = .ok n ↔ IsValue field.values text n := by
  constructor
  · intro read
    unfold readValue at read
    split at read
    next position found =>
      cases read
      obtain ⟨inside, same, _⟩ := List.findIdx?_eq_some_iff_getElem.mp found
      exact .named (List.getElem?_eq_getElem inside) (beq_iff_eq.mp same).symm
    next =>
      split at read
      next => cases read
      next number =>
        split at read
        next => cases read
        next within =>
          cases read
          have bounds : field.min ≤ n ∧ n ≤ field.max := by omega
          exact .number (readNumber_eq_some_iff.mp number) bounds.1 bounds.2
  · intro value
    unfold readValue
    cases value with
    | @named name position isName same =>
        have found : (field.valueNames.findIdx? fun name =>
            name.toList == text.map Char.toUpper) = some position :=
          spelled.findIdx?_eq isName same
        rw [found]
        rfl
    | number number least most =>
        have unnamed : (field.valueNames.findIdx? fun name =>
            name.toList == text.map Char.toUpper) = none :=
          List.findIdx?_eq_none_iff.mpr fun name listed =>
            beq_eq_false_iff_ne.mpr fun same => spelled.not_named number listed same.symm
        rw [unnamed, readNumber_eq_some_iff.mpr number]
        exact if_neg (not_or.mpr ⟨Nat.not_lt.mpr least, Nat.not_lt.mpr most⟩)

/-! ## Texts cut at a mark -/

theorem splitOnce_of_not_mem {mark : Char} (fresh : mark ∉ text) :
    splitOnce mark text = (text, none) := by
  have whole : ∀ c ∈ text, (c != mark) = true :=
    fun c among => bne_iff_ne.mpr fun same => fresh (same ▸ among)
  unfold splitOnce
  rw [List.dropWhile_eq_nil_iff.mpr whole]

/-- Texts are cut where the mark is for the first time. -/
theorem splitOnce_append {mark : Char} {left : List Char} (fresh : mark ∉ left)
    (right : List Char) : splitOnce mark (left ++ mark :: right) = (left, some right) := by
  have whole : ∀ c ∈ left, (c != mark) = true :=
    fun c among => bne_iff_ne.mpr fun same => fresh (same ▸ among)
  unfold splitOnce
  rw [List.dropWhile_append_of_pos whole, List.takeWhile_append_of_pos whole]
  simp

/-! ## Ranges and items -/

section

variable (spelled : field.values.Spelled)
include spelled

theorem checkRange_eq_ok_iff : checkRange field text = .ok () ↔ IsRange field.values text := by
  constructor
  · intro accepted
    unfold checkRange at accepted
    split at accepted
    next isStar => exact isStar ▸ .star
    next =>
      by_cases dashed : '-' ∈ text
      · obtain ⟨low, high, rfl, fresh⟩ := List.eq_append_cons_of_mem dashed
        rw [splitOnce_append fresh] at accepted
        obtain ⟨m, readLow, accepted⟩ := Check.bind_eq_ok_iff.mp accepted
        obtain ⟨n, readHigh, accepted⟩ := Check.bind_eq_ok_iff.mp accepted
        split at accepted
        next => cases accepted
        next ordered =>
          exact .span ((readValue_eq_ok_iff spelled).mp readLow)
            ((readValue_eq_ok_iff spelled).mp readHigh) (Nat.not_lt.mp ordered)
      · rw [splitOnce_of_not_mem dashed] at accepted
        obtain ⟨n, read, _⟩ := Check.bind_eq_ok_iff.mp accepted
        exact .single ((readValue_eq_ok_iff spelled).mp read)
  · intro range
    unfold checkRange
    split
    next => rfl
    next noStar =>
      cases range with
      | star => exact absurd rfl noStar
      | single value =>
          have undashed : '-' ∉ text := fun among => value.unmarked spelled _ among (by decide)
          rw [splitOnce_of_not_mem undashed]
          exact Check.bind_eq_ok_iff.mpr ⟨_, (readValue_eq_ok_iff spelled).mpr value, rfl⟩
      | @span low _ _ _ lowValue highValue ordered =>
          have undashed : '-' ∉ low := fun among => lowValue.unmarked spelled _ among (by decide)
          rw [splitOnce_append undashed]
          refine Check.bind_eq_ok_iff.mpr ⟨_, (readValue_eq_ok_iff spelled).mpr lowValue, ?_⟩
          refine Check.bind_eq_ok_iff.mpr ⟨_, (readValue_eq_ok_iff spelled).mpr highValue, ?_⟩
          rw [if_neg (Nat.not_lt.mpr ordered)]
          rfl

theorem checkItem_eq_ok_iff : checkItem field text = .ok () ↔ IsItem field.values text := by
  unfold checkItem
  constructor
  · intro accepted
    by_cases slashed : '/' ∈ text
    · obtain ⟨range, step, rfl, fresh⟩ := List.eq_append_cons_of_mem slashed
      rw [splitOnce_append fresh] at accepted
      obtain ⟨stepped, accepted⟩ := Check.guard_eq_ok_iff.mp accepted
      obtain ⟨n, number, positive⟩ := checkStep_eq_ok_iff.mp stepped
      exact .stepped ((checkRange_eq_ok_iff spelled).mp accepted) number positive
    · rw [splitOnce_of_not_mem slashed] at accepted
      exact .range ((checkRange_eq_ok_iff spelled).mp accepted)
  · intro item
    cases item with
    | range range =>
        rw [splitOnce_of_not_mem (range.unmarked spelled).2]
        exact (checkRange_eq_ok_iff spelled).mpr range
    | stepped range number positive =>
        rw [splitOnce_append (range.unmarked spelled).2]
        exact Check.guard_eq_ok_iff.mpr ⟨checkStep_eq_ok_iff.mpr ⟨_, number, positive⟩,
          (checkRange_eq_ok_iff spelled).mpr range⟩

/-! ## Fields -/

omit spelled in
theorem checkItems_eq_ok_iff {items : List (List Char)} :
    checkItems field items = .ok () ↔ ∀ item ∈ items, checkItem field item = .ok () := by
  induction items with
  | nil => simp [checkItems]
  | cons item rest ih =>
      rw [checkItems, Check.guard_eq_ok_iff, ih, List.forall_mem_cons]

theorem checkItems_cutAt_eq_ok_iff :
    checkItems field (cutAt (· == ',') text) = .ok () ↔ IsList field.values text := by
  have cut : cutAt (· == ',') text = text.splitOn ',' := cutAt_eq_splitOnP ..
  rw [cut, checkItems_eq_ok_iff]
  constructor
  · intro accepted
    have form : IsList field.values ([','].intercalate (text.splitOn ',')) :=
      .items (List.splitOn_ne_nil ',' text) fun item listed =>
        (checkItem_eq_ok_iff spelled).mp (accepted item listed)
    rwa [List.intercalate_splitOn] at form
  · intro form
    cases form with
    | @items items nonempty all =>
        rw [List.splitOn_intercalate ',' (fun item listed => (all item listed).unmarked spelled)
          nonempty]
        exact fun item listed => (checkItem_eq_ok_iff spelled).mpr (all item listed)

theorem checkField_eq_ok_iff :
    checkField field text = .ok () ↔
      field.mayBeOpen = true ∧ text = ['?'] ∨ IsList field.values text := by
  unfold checkField
  split
  next unset => exact iff_of_true rfl (.inl unset)
  next set => rw [checkItems_cutAt_eq_ok_iff spelled, or_iff_right set]

end

theorem checkFields_eq_ok_iff {pairs : List (FieldRule × List Char)} :
    checkFields pairs = .ok () ↔ ∀ pair ∈ pairs, checkField pair.1 pair.2 = .ok () := by
  induction pairs with
  | nil => simp [checkFields]
  | cons pair rest ih =>
      rw [checkFields, Check.guard_eq_ok_iff, ih, List.forall_mem_cons]

/-- The rules in order are those of the five fields. -/
theorem checkFields_zip_eq_ok_iff {minute hour day month weekday : List Char} :
    checkFields (fieldRules.zip [minute, hour, day, month, weekday]) = .ok () ↔
      IsList minutes minute ∧ IsList hours hour ∧ (day = ['?'] ∨ IsList daysOfMonth day) ∧
        IsList months month ∧ (weekday = ['?'] ∨ IsList daysOfWeek weekday) := by
  have forms : ∀ pair ∈ fieldRules.zip [minute, hour, day, month, weekday],
      (checkField pair.1 pair.2 = .ok () ↔
        pair.1.mayBeOpen = true ∧ pair.2 = ['?'] ∨ IsList pair.1.values pair.2) :=
    fun _ listed => checkField_eq_ok_iff (spelled_of_mem (List.of_mem_zip listed).1)
  rw [checkFields_eq_ok_iff, forall₂_congr forms]
  simp only [fieldRules, List.zip_cons_cons, List.zip_nil_left, List.forall_mem_cons,
    List.not_mem_nil, false_implies, implies_true, Bool.false_eq_true, false_and, true_and,
    false_or, and_true]
  rfl

/-! ## Durations -/

theorem unitSeconds?_eq_some_iff {unit : Char} {seconds : Nat} :
    unitSeconds? unit = some seconds ↔ IsUnit unit seconds := by
  constructor
  · intro found
    unfold unitSeconds? at found
    split at found <;> cases found
    · exact .second
    · exact .minute
    · exact .hour
  · intro isUnit
    cases isUnit <;> rfl

theorem IsUnit.isDigit_eq_false {unit : Char} {seconds : Nat} (isUnit : IsUnit unit seconds) :
    unit.isDigit = false := by
  cases isUnit <;> rfl

theorem IsUnit.pos {unit : Char} {seconds : Nat} (isUnit : IsUnit unit seconds) : 0 < seconds := by
  cases isUnit <;> decide

theorem saturated_eq_zero_iff : saturated n = 0 ↔ n = 0 := by
  have large : 0 < UInt64.size - 1 := by decide
  unfold saturated
  omega

theorem saturated_saturated (n : Nat) : saturated (saturated n) = saturated n := by
  unfold saturated
  omega

/-- It makes no difference where a sum is cut off. -/
theorem saturated_add (m n k : Nat) :
    saturated (saturated (m + saturated n) + k) = saturated (m + (n + k)) := by
  unfold saturated
  omega

theorem durationFrom_digits {read digits : List Char} (all : ∀ c ∈ digits, c.isDigit = true)
    (total : Nat) (rest : List Char) :
    durationFrom read total (digits ++ rest) =
      durationFrom (digits.reverse ++ read) total rest := by
  induction digits generalizing read with
  | nil => rfl
  | cons c digits ih =>
      obtain ⟨digit, all⟩ := List.forall_mem_cons.mp all
      rw [List.cons_append, durationFrom, if_pos digit, ih all]
      simp

/-- A duration is added up as far as 64 bits go. -/
theorem durationFrom_eq {groups : List (Nat × Nat)} (duration : IsDuration text groups)
    {total : Nat} (fits : saturated total = total) :
    durationFrom [] total text = some (saturated (total + secondsOf groups)) := by
  induction duration generalizing total with
  | nil =>
      unfold secondsOf
      rw [List.map_nil, List.sum_nil, Nat.add_zero, fits]
      rfl
  | @group digits rest unit count seconds groups isDigits small isUnit _ ih =>
      -- The digits have been collected from the last to the first when their unit comes.
      have counted : readDigits UInt64.size digits.reverse.reverse = some count := by
        rw [List.reverse_reverse]
        exact readDigits_eq_some_iff.mpr ⟨isDigits, small⟩
      have noDigit : ¬ unit.isDigit = true := by simp [isUnit.isDigit_eq_false]
      rw [durationFrom_digits isDigits.all, List.append_nil, durationFrom, if_neg noDigit,
        unitSeconds?_eq_some_iff.mpr isUnit, counted]
      change durationFrom [] (saturated (total + saturated (count * seconds))) rest = _
      rw [ih (saturated_saturated _), saturated_add]
      rfl

/-- What is read as a duration consists of groups, of which the digits that were read before are the
beginning. -/
theorem isDuration_of_durationFrom {read : List Char} (all : ∀ c ∈ read, c.isDigit = true)
    {total sum : Nat} (added : durationFrom read total text = some sum) :
    ∃ groups, IsDuration (read.reverse ++ text) groups := by
  induction text generalizing read total with
  | nil =>
      unfold durationFrom at added
      split at added
      next empty =>
        rw [List.isEmpty_iff.mp empty]
        exact ⟨[], .nil⟩
      next => cases added
  | cons c rest ih =>
      unfold durationFrom at added
      split at added
      next digit =>
        obtain ⟨groups, duration⟩ := ih (List.forall_mem_cons.mpr ⟨digit, all⟩) added
        rw [List.reverse_cons, List.append_assoc] at duration
        exact ⟨groups, duration⟩
      next =>
        obtain ⟨seconds, unit, added⟩ := Option.bind_eq_some_iff.mp added
        obtain ⟨count, counted, added⟩ := Option.bind_eq_some_iff.mp added
        obtain ⟨groups, duration⟩ := ih (List.forall_mem_nil _) added
        obtain ⟨isDigits, small⟩ := readDigits_eq_some_iff.mp counted
        exact ⟨_, .group isDigits small (unitSeconds?_eq_some_iff.mp unit) duration⟩

theorem secondsOf_eq_zero_iff {groups : List (Nat × Nat)} (duration : IsDuration text groups) :
    secondsOf groups = 0 ↔ ∀ group ∈ groups, group.1 = 0 := by
  induction duration with
  | nil => simp [secondsOf]
  | @group _ _ _ count seconds groups _ _ isUnit _ ih =>
      have positive := isUnit.pos
      have sum : secondsOf ((count, seconds) :: groups) = count * seconds + secondsOf groups := rfl
      rw [sum, Nat.add_eq_zero_iff, ih, List.forall_mem_cons, Nat.mul_eq_zero]
      simp [positive.ne']

theorem checkDuration_eq_ok_iff :
    checkDuration text = .ok () ↔
      ∃ groups, IsDuration text groups ∧ ∃ group ∈ groups, group.1 ≠ 0 := by
  constructor
  · intro accepted
    unfold checkDuration at accepted
    split at accepted
    next => cases accepted
    next =>
      split at accepted
      next => cases accepted
      next => cases accepted
      next sum nonzero added =>
        obtain ⟨groups, duration⟩ := isDuration_of_durationFrom (List.forall_mem_nil _) added
        refine ⟨groups, duration, ?_⟩
        by_contra allZero
        push Not at allZero
        have nothing := (secondsOf_eq_zero_iff duration).mpr allZero
        rw [List.reverse_nil, List.nil_append] at duration
        rw [durationFrom_eq duration (saturated_eq_zero_iff.mpr rfl), nothing] at added
        cases added
        exact nonzero rfl
  · intro holds
    obtain ⟨groups, duration, group, listed, counts⟩ := holds
    have nonempty : text ≠ [] := by
      rintro rfl
      generalize empty : [] = text at duration
      cases duration with
      | nil => cases listed
      | group => simp at empty
    have something : saturated (0 + secondsOf groups) ≠ 0 := by
      rw [Nat.zero_add, Ne, saturated_eq_zero_iff, secondsOf_eq_zero_iff duration]
      exact fun allZero => counts (allZero group listed)
    obtain ⟨sum, isSum⟩ := Nat.exists_eq_succ_of_ne_zero something
    unfold checkDuration
    rw [if_neg nonempty, durationFrom_eq duration (saturated_eq_zero_iff.mpr rfl), isSum]
    rfl

/-! ## Schedules -/

theorem isOk_descriptor {descriptor : String} (listed : descriptor ∈ descriptors) :
    checkTrimmed descriptor.toList = .ok () := by
  have all : ∀ descriptor ∈ descriptors, (checkTrimmed descriptor.toList).isOk = true := by
    decide +kernel
  exact Check.isOk_iff.mp (all descriptor listed)

theorem isBlank_eq_false_of_isDigit {c : Char} (digit : c.isDigit = true) : isBlank c = false := by
  have bounds : 0x30 ≤ c.toNat ∧ c.toNat ≤ 0x39 := Char.isDigit_iff_toNat.mp digit
  simp only [isBlank, Bool.or_eq_false_iff, Bool.and_eq_false_iff, decide_eq_false_iff_not,
    beq_eq_false_iff_ne]
  omega

/-- There are no blanks in a duration. -/
theorem IsDuration.solid {groups : List (Nat × Nat)} (duration : IsDuration text groups) :
    ∀ c ∈ text, isBlank c = false := by
  induction duration with
  | nil => exact List.forall_mem_nil _
  | group digits _ isUnit _ ih =>
      have solidUnit : ∀ {unit : Char} {seconds : Nat}, IsUnit unit seconds →
          isBlank unit = false := by
        intro unit seconds isUnit
        cases isUnit <;> decide
      refine List.forall_mem_append.mpr ⟨fun c among => ?_, ?_⟩
      · exact isBlank_eq_false_of_isDigit (digits.all c among)
      · exact List.forall_mem_cons.mpr ⟨solidUnit isUnit, ih⟩

theorem IsDuration.trims {groups : List (Nat × Nat)} (duration : IsDuration text groups)
    {blanks : List Char} (blank : ∀ c ∈ blanks, isBlank c = true) :
    Trims (blanks ++ text) text where
  around := ⟨blanks, [], by rw [List.append_nil], blank, List.forall_mem_nil _⟩
  first c isFirst := duration.solid c (List.mem_of_head? isFirst)
  last c isLast := duration.solid c (List.mem_of_getLast? isLast)

/-- What follows the mark is a duration with nothing but blanks before it. -/
theorem checkDuration_trimBlanks_eq_ok_iff
    (last : ∀ c ∈ (everyMark ++ text).getLast?, isBlank c = false) :
    checkDuration (trimBlanks text) = .ok () ↔
      ∃ blanks duration groups, text = blanks ++ duration ∧ (∀ c ∈ blanks, isBlank c = true) ∧
        IsDuration duration groups ∧ ∃ group ∈ groups, group.1 ≠ 0 := by
  rw [checkDuration_eq_ok_iff]
  constructor
  · intro holds
    obtain ⟨groups, duration, counts⟩ := holds
    have ends : ∀ c ∈ text.getLast?, isBlank c = false := by
      intro c isLast
      refine last c ?_
      rw [List.getLast?_append, Option.mem_def.mp isLast]
      rfl
    obtain ⟨blanks, parts, blank⟩ := (trims_trimBlanks text).exists_front ends
    exact ⟨blanks, trimBlanks text, groups, parts, blank, duration, counts⟩
  · intro holds
    obtain ⟨blanks, duration, groups, rfl, blank, isDuration, counts⟩ := holds
    rw [trimBlanks_eq_iff.mpr (isDuration.trims blank)]
    exact ⟨groups, isDuration, counts⟩

theorem checkTrimmed_eq_ok_iff (last : ∀ c ∈ text.getLast?, isBlank c = false) :
    checkTrimmed text = .ok () ↔ IsSchedule text := by
  constructor
  · intro accepted
    unfold checkTrimmed at accepted
    split at accepted
    next => cases accepted
    next =>
      split at accepted
      next isEvery =>
        obtain ⟨rest, rfl⟩ := List.isPrefixOf_iff_prefix.mp isEvery
        rw [List.drop_left] at accepted
        obtain ⟨blanks, duration, groups, rfl, blank, isDuration, counts⟩ :=
          (checkDuration_trimBlanks_eq_ok_iff last).mp accepted
        exact .every blank isDuration counts
      next =>
        split at accepted
        next =>
          split at accepted
          next known =>
            obtain ⟨descriptor, listed, same⟩ := List.any_eq_true.mp known
            exact beq_iff_eq.mp same ▸ .descriptor listed
          next => cases accepted
        next plain =>
          dsimp only at accepted
          split at accepted
          next => cases accepted
          next counted =>
            have five : (blankFields text).length = 5 := Decidable.not_not.mp counted
            match parts : blankFields text, five with
            | [_, _, _, _, _], _ =>
              rw [parts] at accepted
              obtain ⟨minute, hour, day, month, weekday⟩ := checkFields_zip_eq_ok_iff.mp accepted
              exact .fields plain (blankFields_eq_iff.mp parts) minute hour day month weekday
  · intro schedule
    -- None of the three kinds is taken for one that is looked for before it.
    cases schedule with
    | descriptor listed => exact isOk_descriptor listed
    | @every blanks duration groups blank isDuration counts =>
        change checkTrimmed (everyMark ++ (blanks ++ duration)) = .ok ()
        have nonempty : everyMark ++ (blanks ++ duration) ≠ [] := by simp [everyMark]
        have marked : everyMark.isPrefixOf (everyMark ++ (blanks ++ duration)) = true :=
          List.isPrefixOf_iff_prefix.mpr (List.prefix_append ..)
        unfold checkTrimmed
        rw [if_neg nonempty, if_pos marked, List.drop_left]
        exact (checkDuration_trimBlanks_eq_ok_iff last).mpr
          ⟨blanks, duration, groups, rfl, blank, isDuration, counts⟩
    | fields plain splits minute hour day month weekday =>
        have nonempty : text ≠ [] := by
          rintro rfl
          have none := splits.blankFields_eq
          cases none
        have unmarked : ¬ everyMark.isPrefixOf text = true := by
          intro marked
          obtain ⟨rest, rfl⟩ := List.isPrefixOf_iff_prefix.mp marked
          exact plain rfl
        unfold checkTrimmed
        rw [if_neg nonempty, if_neg unmarked, if_neg plain, splits.blankFields_eq]
        exact checkFields_zip_eq_ok_iff.mpr ⟨minute, hour, day, month, weekday⟩

/-- A text is accepted just if what is left of it without the blanks around it is a schedule, where
blanks are the characters with the property of white space.  And the seconds of a duration do not
wrap around, however large its counts are: they are those of its groups as far as 64 bits go, and
there are none just if all of its counts are zero. -/
theorem check_grammar :
    (∀ text, check text = .ok () ↔ ∃ inner, Trims text.toList inner ∧ IsSchedule inner) ∧
    (∀ c, isBlank c = true ↔ c.toNat ∈ blankCodes) ∧
    ∀ duration groups, IsDuration duration groups →
      durationFrom [] 0 duration = some (min (secondsOf groups) (2 ^ 64 - 1)) ∧
      (durationFrom [] 0 duration = some 0 ↔ ∀ group ∈ groups, group.1 = 0) := by
  refine ⟨fun text => ?_, fun _ => isBlank_iff, fun text groups duration => ?_⟩
  · have trims := trims_trimBlanks text.toList
    unfold check
    rw [checkTrimmed_eq_ok_iff trims.last]
    constructor
    · intro schedule
      exact ⟨_, trims, schedule⟩
    · intro holds
      obtain ⟨inner, isInner, schedule⟩ := holds
      rw [trimBlanks_eq_iff.mpr isInner]
      exact schedule
  · have added := durationFrom_eq duration (saturated_eq_zero_iff.mpr rfl)
    rw [Nat.zero_add] at added
    refine ⟨added, ?_⟩
    rw [added, Option.some_inj, saturated_eq_zero_iff, secondsOf_eq_zero_iff duration]

/-- Numbers may have a plus sign and leading zeros, and names are in letters of any case.  Only days
may be left open, and no value is beyond the bounds of its field.  A duration is not taken for none
where 64 bits would come round to zero, but it is where all of its counts are zero. -/
theorem check_grammar_forms :
    (∃ inner, Trims " 0 9-17/+2,020 ?\tJAN-dec sat\n".toList inner ∧ IsSchedule inner) ∧
    (∃ inner, Trims "@daily ".toList inner ∧ IsSchedule inner) ∧
    (∃ inner, Trims "@every 0s1152921504606846976h".toList inner ∧ IsSchedule inner) ∧
    durationFrom [] 0 "1152921504606846976h".toList = some (2 ^ 64 - 1) ∧
    (¬ ∃ inner, Trims "@every 0h00m".toList inner ∧ IsSchedule inner) ∧
    (¬ ∃ inner, Trims "? * * * *".toList inner ∧ IsSchedule inner) ∧
    (¬ ∃ inner, Trims "* 24 * * *".toList inner ∧ IsSchedule inner) ∧
    ¬ ∃ inner, Trims "@fortnightly".toList inner ∧ IsSchedule inner := by
  obtain ⟨accepts, _, adds⟩ := check_grammar
  have accepted : ∀ text : String, (check text).isOk = true →
      ∃ inner, Trims text.toList inner ∧ IsSchedule inner :=
    fun text isOk => (accepts text).mp (Check.isOk_iff.mp isOk)
  have refused : ∀ text : String, (check text).isOk = false →
      ¬ ∃ inner, Trims text.toList inner ∧ IsSchedule inner := by
    intro text notOk schedule
    rw [Check.isOk_iff.mpr ((accepts text).mpr schedule)] at notOk
    cases notOk
  have digits : IsDigits "1152921504606846976".toList 1152921504606846976 :=
    ⟨by decide, List.all_eq_true.mp (by decide +kernel), by decide +kernel⟩
  have hours : IsDuration "1152921504606846976h".toList [(1152921504606846976, 3600)] :=
    .group digits (by decide) .hour .nil
  refine ⟨accepted _ ?_, accepted _ ?_, accepted _ ?_, (adds _ _ hours).1, refused _ ?_,
    refused _ ?_, refused _ ?_, refused _ ?_⟩ <;> decide +kernel

end Schedule

end TypeCatalog
