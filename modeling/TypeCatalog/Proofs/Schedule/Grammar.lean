import Mathlib.Data.Nat.Digits.Defs
import TypeCatalog.Proofs.Blank
import TypeCatalog.Schedule

/-!
# The grammar of schedules

What a schedule looks like, from its numbers up, without an order in which anything is looked at.
A form that stands for a number comes with it.  The grammar has its own names and bounds, and says
nothing about the tables that schedules are checked with.

* `Schedule.Values`: the values of the five fields.
* `Schedule.IsNumber`, `Schedule.IsValue`: decimals, and what stands for a value.
* `Schedule.IsRange`, `Schedule.IsItem`, `Schedule.IsList`: the layers of a field.
* `Schedule.IsDuration`: groups of digits with units, and what they count.
* `Schedule.IsSchedule`: the three kinds of schedules.

Fields are cut at characters that no value has in it; `Schedule.IsValue.unmarked` and the lemmas
after it say so layer by layer.
-/

namespace TypeCatalog

namespace Schedule

/-! ## The five fields -/

/-- The values of a field: the numbers within bounds.  If there are names, they are those of the
values from the least one on. -/
structure Values where
  least : Nat
  most : Nat
  names : List String := []

def minutes : Values := { least := 0, most := 59 }

def hours : Values := { least := 0, most := 23 }

def daysOfMonth : Values := { least := 1, most := 31 }

def months : Values where
  least := 1
  most := 12
  names := ["JAN", "FEB", "MAR", "APR", "MAY", "JUN", "JUL", "AUG", "SEP", "OCT", "NOV", "DEC"]

def daysOfWeek : Values where
  least := 0
  most := 6
  names := ["SUN", "MON", "TUE", "WED", "THU", "FRI", "SAT"]

variable {values : Values} {text : List Char} {n : Nat}

/-! ## Numbers and values -/

/-- The number that digits stand for, of which there is at least one. -/
structure IsDigits (digits : List Char) (n : Nat) : Prop where
  nonempty : digits ≠ []
  all : ∀ c ∈ digits, c.isDigit = true
  value : Nat.ofDigits 10 (digits.reverse.map fun c => c.toNat - '0'.toNat) = n

/-- A decimal that fits in 32 bits. -/
inductive IsNumber : List Char → Nat → Prop
  | plain {digits : List Char} {n : Nat} : IsDigits digits n → n < UInt32.size → IsNumber digits n
  | signed {digits : List Char} {n : Nat} : IsDigits digits n → n < UInt32.size →
    IsNumber ('+' :: digits) n

/-- A value: a name, in letters of any case, or a number within the bounds. -/
inductive IsValue (values : Values) : List Char → Nat → Prop
  | named {text : List Char} {name : String} {position : Nat} :
    values.names[position]? = some name → text.map Char.toUpper = name.toList →
    IsValue values text (position + values.least)
  | number {text : List Char} {n : Nat} : IsNumber text n → values.least ≤ n → n ≤ values.most →
    IsValue values text n

/-! ## Fields -/

/-- All values, one value, or the values from one to another that does not come before it. -/
inductive IsRange (values : Values) : List Char → Prop
  | star : IsRange values ['*']
  | single {value : List Char} {n : Nat} : IsValue values value n → IsRange values value
  | span {low high : List Char} {m n : Nat} : IsValue values low m → IsValue values high n →
    m ≤ n → IsRange values (low ++ '-' :: high)

/-- A range, of which a step may take every so many values. -/
inductive IsItem (values : Values) : List Char → Prop
  | range {range : List Char} : IsRange values range → IsItem values range
  | stepped {range step : List Char} {n : Nat} : IsRange values range → IsNumber step n → 0 < n →
    IsItem values (range ++ '/' :: step)

/-- Items with commas between them. -/
inductive IsList (values : Values) : List Char → Prop
  | items {items : List (List Char)} : items ≠ [] → (∀ item ∈ items, IsItem values item) →
    IsList values ([','].intercalate items)

/-! ## Durations and schedules -/

/-- The seconds in the units of durations. -/
inductive IsUnit : Char → Nat → Prop
  | second : IsUnit 's' 1
  | minute : IsUnit 'm' 60
  | hour : IsUnit 'h' 3600

/-- Groups of digits, each with a unit behind it.  A group counts what fits in 64 bits; it is given
as its count and the seconds of its unit. -/
inductive IsDuration : List Char → List (Nat × Nat) → Prop
  | nil : IsDuration [] []
  | group {digits rest : List Char} {unit : Char} {count seconds : Nat}
      {groups : List (Nat × Nat)} :
    IsDigits digits count → count < UInt64.size → IsUnit unit seconds → IsDuration rest groups →
    IsDuration (digits ++ unit :: rest) ((count, seconds) :: groups)

/-- The seconds that groups count together. -/
def secondsOf (groups : List (Nat × Nat)) : Nat := (groups.map fun group => group.1 * group.2).sum

/-- A schedule without blanks around it.  Only days may be left open, by a question mark. -/
inductive IsSchedule : List Char → Prop
  | descriptor {descriptor : String} :
    descriptor ∈ ["@yearly", "@annually", "@monthly", "@weekly", "@daily", "@midnight",
      "@hourly"] →
    IsSchedule descriptor.toList
  | every {blanks duration : List Char} {groups : List (Nat × Nat)} :
    (∀ c ∈ blanks, isBlank c = true) → IsDuration duration groups →
    (∃ group ∈ groups, group.1 ≠ 0) → IsSchedule ("@every".toList ++ (blanks ++ duration))
  | fields {text minute hour day month weekday : List Char} : text.head? ≠ some '@' →
    SplitsInto text [minute, hour, day, month, weekday] →
    IsList minutes minute → IsList hours hour → day = ['?'] ∨ IsList daysOfMonth day →
    IsList months month → weekday = ['?'] ∨ IsList daysOfWeek weekday → IsSchedule text

/-! ## Names of values -/

/-- The names of values can be told from each other and from numbers. -/
structure Values.Spelled (values : Values) : Prop where
  distinct : values.names.Nodup
  upper : ∀ name ∈ values.names, ∀ c ∈ name.toList, c.isUpper = true

/-! ## What forms are made of -/

/-- Texts are cut at these characters, from a field down to its values. -/
def marks : List Char := [',', '/', '-']

theorem not_mem_marks {c : Char} (plain : c.isAlphanum = true) : c ∉ marks := by
  intro marked
  have special : (marks.all fun c => !c.isAlphanum) = true := by decide
  have marked' := List.all_eq_true.mp special c marked
  rw [plain] at marked'
  cases marked'

theorem isAlpha_of_isUpper_toUpper {c : Char} (upper : c.toUpper.isUpper = true) :
    c.isAlpha = true := by
  change (c.isUpper || c.isLower) = true
  rw [Bool.or_eq_true]
  unfold Char.toUpper at upper
  split at upper
  next lower =>
    right
    change (decide (c.val ≥ 'a'.val) && decide (c.val ≤ 'z'.val)) = true
    rw [Bool.and_eq_true, decide_eq_true_eq, decide_eq_true_eq]
    exact lower
  next => exact .inl upper

theorem IsDigits.unmarked (digits : IsDigits text n) : ∀ c ∈ text, c ∉ marks :=
  fun c among => not_mem_marks (by simp [Char.isAlphanum, digits.all c among])

theorem IsNumber.unmarked (number : IsNumber text n) : ∀ c ∈ text, c ∉ marks := by
  cases number with
  | plain digits _ => exact digits.unmarked
  | signed digits _ => exact List.forall_mem_cons.mpr ⟨by decide, digits.unmarked⟩

theorem IsValue.unmarked (spelled : values.Spelled) (value : IsValue values text n) :
    ∀ c ∈ text, c ∉ marks := by
  cases value with
  | @named name position isName same =>
      intro c among
      have upper := spelled.upper name (List.mem_of_getElem? isName) c.toUpper
        (same ▸ List.mem_map_of_mem among)
      exact not_mem_marks (by simp [Char.isAlphanum, isAlpha_of_isUpper_toUpper upper])
  | number number _ _ => exact number.unmarked

theorem IsRange.unmarked (spelled : values.Spelled) (range : IsRange values text) :
    ',' ∉ text ∧ '/' ∉ text := by
  have apart : ∀ {value : List Char} {n : Nat}, IsValue values value n →
      ',' ∉ value ∧ '/' ∉ value := fun value =>
    ⟨fun among => value.unmarked spelled _ among (by decide),
      fun among => value.unmarked spelled _ among (by decide)⟩
  cases range with
  | star => decide
  | single value => exact apart value
  | span low high _ => simp [apart low, apart high]

theorem IsItem.unmarked (spelled : values.Spelled) (item : IsItem values text) : ',' ∉ text := by
  cases item with
  | range range => exact (range.unmarked spelled).1
  | @stepped _ digits _ range step _ =>
      have apart : ',' ∉ digits := fun among => step.unmarked ',' among (by decide)
      simp [(range.unmarked spelled).1, apart]

end Schedule

end TypeCatalog
