import TypeCatalog.DefinitionError
import TypeCatalog.Text.Blank

/-!
# Schedules of jobs

A schedule is a descriptor such as `@daily`, `@every` with a duration, or five fields: minute,
hour, day of month, month and day of week. A field is a list of ranges, each of which may have a
step.

* `Schedule.check` accepts schedules and says of others what is wrong with them first.
* `Schedule.readNumber` reads decimals, which may have a plus sign and leading zeros.
-/

namespace TypeCatalog

namespace Schedule

/-! ## Fields -/

/-- One of the five fields. -/
structure FieldRule where
  name : String
  min : Nat
  max : Nat
  valueNames : List String := []
  mayBeOpen : Bool := false
  deriving DecidableEq, Repr

def monthNames : List String :=
  ["JAN", "FEB", "MAR", "APR", "MAY", "JUN", "JUL", "AUG", "SEP", "OCT", "NOV", "DEC"]

def dayNames : List String := ["SUN", "MON", "TUE", "WED", "THU", "FRI", "SAT"]

def fieldRules : List FieldRule :=
  [{ name := "minute", min := 0, max := 59 },
    { name := "hour", min := 0, max := 23 },
    { name := "day of month", min := 1, max := 31, mayBeOpen := true },
    { name := "month", min := 1, max := 12, valueNames := monthNames },
    { name := "day of week", min := 0, max := 6, valueNames := dayNames, mayBeOpen := true }]

def descriptors : List String :=
  ["@yearly", "@annually", "@monthly", "@weekly", "@daily", "@midnight", "@hourly"]

/-! ## Flaws -/

/-- What is wrong with a schedule. -/
inductive Flaw where
  | empty
  | unknownDescriptor (descriptor : List Char)
  | fieldCount (found : Nat)
  | badStep (field : FieldRule) (step : List Char)
  | badValue (field : FieldRule) (value : List Char)
  | outside (field : FieldRule) (value : Nat)
  | emptyRange (field : FieldRule) (range : List Char)
  | durationMissing
  | badDuration (duration : List Char)
  | zeroDuration (duration : List Char)
  deriving DecidableEq, Repr

def Flaw.text : Flaw → String
  | empty => "empty schedule"
  | unknownDescriptor descriptor => "unknown descriptor " ++ quoted (.ofList descriptor)
  | fieldCount found =>
    "expected " ++ toString fieldRules.length ++ " fields, found " ++ toString found
  | badStep field step => field.name ++ ": bad step " ++ quoted (.ofList step)
  | badValue field value => field.name ++ ": bad value " ++ quoted (.ofList value)
  | outside field value =>
    field.name ++ ": value " ++ toString value ++ " outside " ++ toString field.min ++ "..="
      ++ toString field.max
  | emptyRange field range => field.name ++ ": empty range " ++ quoted (.ofList range)
  | durationMissing => "@every requires a duration"
  | badDuration duration => "bad duration " ++ quoted (.ofList duration)
  | zeroDuration duration => "zero duration " ++ quoted (.ofList duration)

/-! ## Numbers and values -/

def digitsValue (digits : List Char) : Nat :=
  digits.foldl (fun value digit => 10 * value + (digit.toNat - '0'.toNat)) 0

/-- Reads digits, at least one, as a number below `bound`. -/
def readDigits (bound : Nat) (digits : List Char) : Option Nat :=
  if digits.isEmpty || !digits.all Char.isDigit || bound ≤ digitsValue digits then none
  else some (digitsValue digits)

/-- Reads a decimal that fits in 32 bits and may have a plus sign. -/
def readNumber : List Char → Option Nat
  | '+' :: digits => readDigits UInt32.size digits
  | digits => readDigits UInt32.size digits

/-- Reads a value of a field: the name of one, or a number within the bounds. -/
def readValue (field : FieldRule) (value : List Char) : Except Flaw Nat :=
  match field.valueNames.findIdx? fun name => name.toList == value.map Char.toUpper with
  | some position => .ok (position + field.min)
  | none =>
    match readNumber value with
    | none => .error (.badValue field value)
    | some n => if n < field.min ∨ field.max < n then .error (.outside field n) else .ok n

/-- Splits a text at the first character equal to `mark`, if there is one. -/
def splitOnce (mark : Char) (cs : List Char) : List Char × Option (List Char) :=
  match cs.dropWhile (· != mark) with
  | [] => (cs, none)
  | _ :: rest => (cs.takeWhile (· != mark), some rest)

/-! ## Items, fields and durations -/

/-- Accepts a star, a value, or two values in order with a dash between them. -/
def checkRange (field : FieldRule) (range : List Char) : Except Flaw Unit :=
  if range = ['*'] then .ok ()
  else match splitOnce '-' range with
    | (value, none) => do
      let _ ← readValue field value
      return ()
    | (low, some high) => do
      let low ← readValue field low
      let high ← readValue field high
      if high < low then throw (.emptyRange field range)

/-- Accepts steps, which are positive numbers. -/
def checkStep (field : FieldRule) (step : List Char) : Except Flaw Unit :=
  match readNumber step with
  | some (_ + 1) => .ok ()
  | _ => .error (.badStep field step)

/-- Accepts a range with or without a step; the step is looked at first. -/
def checkItem (field : FieldRule) (item : List Char) : Except Flaw Unit :=
  match splitOnce '/' item with
  | (range, none) => checkRange field range
  | (range, some step) => do
    checkStep field step
    checkRange field range

/-- Accepts lists of items that are all accepted; the first that is not decides. -/
def checkItems (field : FieldRule) : List (List Char) → Except Flaw Unit
  | [] => .ok ()
  | item :: rest => do
    checkItem field item
    checkItems field rest

def checkField (field : FieldRule) (text : List Char) : Except Flaw Unit :=
  if field.mayBeOpen ∧ text = ['?'] then .ok ()
  else checkItems field (cutAt (· == ',') text)

/-- Accepts fields that are all accepted; the first that is not decides. -/
def checkFields : List (FieldRule × List Char) → Except Flaw Unit
  | [] => .ok ()
  | (field, text) :: rest => do
    checkField field text
    checkFields rest

def unitSeconds? : Char → Option Nat
  | 's' => some 1
  | 'm' => some 60
  | 'h' => some 3600
  | _ => none

/-- The number itself if it fits in 64 bits, or else the largest that does. -/
def saturated (n : Nat) : Nat := min n (UInt64.size - 1)

/-- Adds up a duration in seconds, as far as 64 bits go: groups of digits, each with a unit behind
it. The digits read last are given from the last to the first. -/
def durationFrom (digits : List Char) (total : Nat) : List Char → Option Nat
  | [] => if digits.isEmpty then some total else none
  | c :: rest =>
    if c.isDigit then durationFrom (c :: digits) total rest
    else do
      let seconds ← unitSeconds? c
      let count ← readDigits UInt64.size digits.reverse
      durationFrom [] (saturated (total + saturated (count * seconds))) rest

def checkDuration (duration : List Char) : Except Flaw Unit :=
  if duration = [] then .error .durationMissing
  else match durationFrom [] 0 duration with
    | none => .error (.badDuration duration)
    | some 0 => .error (.zeroDuration duration)
    | some _ => .ok ()

/-! ## Schedules -/

def everyMark : List Char := "@every".toList

/-- Accepts schedules that have no blanks around them. -/
def checkTrimmed (text : List Char) : Except Flaw Unit :=
  if text = [] then .error .empty
  else if everyMark.isPrefixOf text then
    checkDuration (trimBlanks (text.drop everyMark.length))
  else if text.head? = some '@' then
    if descriptors.any fun d => d.toList == text then .ok () else .error (.unknownDescriptor text)
  else
    let fields := blankFields text
    if fields.length ≠ fieldRules.length then .error (.fieldCount fields.length)
    else checkFields (fieldRules.zip fields)

/-- Accepts schedules; blanks around them do not count. -/
def check (text : String) : Except Flaw Unit := checkTrimmed (trimBlanks text.toList)

end Schedule

end TypeCatalog
