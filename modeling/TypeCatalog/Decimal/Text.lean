import TypeCatalog.Decimal.Shortest

/-!
# Written forms of floating-point numbers

Both forms write the shortest decimal that reads back as the number.

* `positionalText` never uses an exponent and writes whole numbers without a point.
* `jsonNumberText?` always shows a point or an exponent; it has no form for what is not finite.
-/

namespace TypeCatalog

namespace Decimal

def zeros (count : Nat) : String := String.ofList (List.replicate count '0')

/-- The digits with a point before the last `places` of them, padded with zeros on the left. -/
def pointed (digits : List Char) (places : Nat) : String :=
  let whole := digits.take (digits.length - places)
  let fraction := digits.drop (digits.length - places)
  let whole := if whole.isEmpty then ['0'] else whole
  String.ofList whole ++ "." ++ zeros (places - digits.length) ++ String.ofList fraction

def positional (d : Decimal) : String :=
  let digits := Nat.toDigits 10 d.digits
  if 0 ≤ d.exponent then String.ofList digits ++ zeros d.exponent.toNat
  else pointed digits (-d.exponent).toNat

/-- An exponent, with its sign and at least two digits. -/
def exponentText (exponent : Int) : String :=
  let digits := Nat.toDigits 10 exponent.natAbs
  (if exponent < 0 then "e-" else "e+") ++ zeros (2 - digits.length) ++ String.ofList digits

/-- Written with an exponent once the point would lie more than sixteen digits to the right of
the first digit or more than five places to its left. -/
def jsonNumber (d : Decimal) : String :=
  let digits := Nat.toDigits 10 d.digits
  let magnitude : Int := digits.length + d.exponent
  if 0 ≤ d.exponent ∧ magnitude ≤ 16 then
    String.ofList digits ++ zeros d.exponent.toNat ++ ".0"
  else if -5 < magnitude ∧ magnitude ≤ 16 then
    pointed digits (-d.exponent).toNat
  else
    let mantissa := match digits with
      | [digit] => String.ofList [digit]
      | digits => pointed digits (digits.length - 1)
    mantissa ++ exponentText (magnitude - 1)

end Decimal

def signText (negative : Bool) : String := if negative then "-" else ""

/-- Positional form of any number, the special ones included. -/
def positionalText (x : Float) : String :=
  match Binary64.ofFloat x with
  | .nan => "NaN"
  | .infinite negative => signText negative ++ "inf"
  | .zero negative => signText negative ++ "0"
  | .finite negative m => signText negative ++ (m.shortest .up).positional

def jsonNumberText? (x : Float) : Option String :=
  match Binary64.ofFloat x with
  | .nan | .infinite _ => none
  | .zero negative => some (signText negative ++ "0.0")
  | .finite negative m => some (signText negative ++ (m.shortest .even).jsonNumber)

end TypeCatalog
