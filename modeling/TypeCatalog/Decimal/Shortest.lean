/-!
# Shortest decimals of floating-point numbers

A finite number `m * 2 ^ q` stands for every real that rounds to it. `Binary64.shortest` looks
for the coarsest decimal grid that has a point among those reals and takes the point nearest to
the number itself; a point exactly between two candidates goes where `Tie` says.

* `Magnitude.holds` is the interval of reals that round to the number, over a common scale.
* `Magnitude.hit?` tests the number's two neighbours on one grid.
* `Decimal` is the answer: whole digits times a power of ten, never with a trailing zero digit.
-/

namespace TypeCatalog

/-- Where a number halfway between two decimals goes. -/
inductive Tie where
  | up
  | even
  deriving DecidableEq, Repr

/-- The number `digits * 10 ^ exponent`. -/
structure Decimal where
  digits : Nat
  exponent : Int
  deriving DecidableEq, Repr

/-- The number `significand * 2 ^ exponent`; `atPowerOfTwo` marks the numbers whose lower
neighbour is half as far away as their upper one. -/
structure Magnitude where
  significand : Nat
  exponent : Int
  atPowerOfTwo : Bool
  deriving DecidableEq, Repr

/-- What the 64 bits of a floating-point number say. -/
inductive Binary64 where
  | nan
  | infinite (negative : Bool)
  | zero (negative : Bool)
  | finite (negative : Bool) (magnitude : Magnitude)
  deriving DecidableEq, Repr

/-- One more than the greatest fraction: the bit before the fraction of most numbers. -/
def Binary64.leadingBit : Nat := 0x10000000000000

/-- Reads sign, exponent and fraction out of the 64 bits. -/
def Binary64.ofBits (bits : Nat) : Binary64 :=
  let negative := bits >>> 63 % 2 == 1
  let biased : Nat := bits >>> 52 % 2048
  let fraction : Nat := bits % leadingBit
  if biased = 2047 then
    if fraction = 0 then .infinite negative else .nan
  else if biased = 0 then
    if fraction = 0 then .zero negative else .finite negative ⟨fraction, -1074, false⟩
  else
    .finite negative ⟨leadingBit + fraction, (biased : Int) - 1075, fraction = 0 && 1 < biased⟩

def Binary64.ofFloat (x : Float) : Binary64 := .ofBits x.toBits.toNat

namespace Magnitude

/-- Both sides of a comparison with `digits * 10 ^ exponent`, scaled to whole numbers: the first
is the given number of quarter units of the significand, the second the decimal. -/
def scaled (m : Magnitude) (quarters : Nat) (d : Decimal) : Nat × Nat :=
  let binary := m.exponent - 2
  (quarters * Nat.pow 2 binary.toNat * Nat.pow 10 (-d.exponent).toNat,
    d.digits * Nat.pow 10 d.exponent.toNat * Nat.pow 2 (-binary).toNat)

/-- Whether a decimal rounds to the number; the ends of the interval do so when the significand
is even. -/
def holds (m : Magnitude) (d : Decimal) : Bool :=
  let low := m.scaled (4 * m.significand - if m.atPowerOfTwo then 1 else 2) d
  let high := m.scaled (4 * m.significand + 2) d
  if m.significand % 2 = 0 then low.1 ≤ low.2 && high.2 ≤ high.1
  else low.1 < low.2 && high.2 < high.1

/-- The decimal with the given exponent next below the number, or equal to it. -/
def below (m : Magnitude) (exponent : Int) : Decimal :=
  let (number, unit) := m.scaled (4 * m.significand) ⟨1, exponent⟩
  ⟨number / unit, exponent⟩

/-- Of two neighbouring decimals around the number, the nearer one. -/
def nearer (m : Magnitude) (tie : Tie) (low high : Decimal) : Decimal :=
  let (number, lowSide) := m.scaled (4 * m.significand) low
  let highSide := (m.scaled (4 * m.significand) high).2
  if number - lowSide < highSide - number then low
  else if highSide - number < number - lowSide then high
  else match tie with
    | .up => high
    | .even => if low.digits % 2 = 0 then low else high

/-- The point of the grid with the given exponent that rounds to the number, if there is one. -/
def hit? (m : Magnitude) (tie : Tie) (exponent : Int) : Option Decimal :=
  let low := m.below exponent
  let high : Decimal := { low with digits := low.digits + 1 }
  match m.holds low, m.holds high with
  | true, true => some (m.nearer tie low high)
  | true, false => some low
  | false, true => some high
  | false, false => none

/-- Below this power of ten every grid has a point in every interval. -/
def finestExponent : Int := -345

/-- Tries the grids from `10 ^ (steps + finestExponent)` downwards. -/
def search (m : Magnitude) (tie : Tie) : (steps : Nat) → Decimal
  | 0 => m.below finestExponent
  | steps + 1 =>
    match m.hit? tie (steps + 1 + finestExponent) with
    | some d => d
    | none => m.search tie steps

/-- The decimal with the fewest digits that rounds to the number. -/
def shortest (m : Magnitude) (tie : Tie) : Decimal :=
  m.search tie (345 + 310)

end Magnitude

end TypeCatalog
