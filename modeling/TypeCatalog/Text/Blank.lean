/-!
# Blank characters

The characters with the Unicode property of white space, and the trimming and splitting of texts
at them.

* `isBlank` holds of exactly these characters.
* `trimBlanks` takes them off both ends, `blankFields` cuts a text into the pieces between them.
-/

namespace TypeCatalog

def isBlank (c : Char) : Bool :=
  let code := c.toNat
  (0x09 ≤ code && code ≤ 0x0d) || code == 0x20 || code == 0x85 || code == 0xa0 || code == 0x1680
    || (0x2000 ≤ code && code ≤ 0x200a) || code == 0x2028 || code == 0x2029 || code == 0x202f
    || code == 0x205f || code == 0x3000

def dropBlanks (cs : List Char) : List Char := cs.dropWhile isBlank

def trimBlanks (cs : List Char) : List Char := (dropBlanks (dropBlanks cs).reverse).reverse

/-- The text cut at every character that satisfies `cut`; neighbouring cuts leave an empty piece
between them. -/
def cutAt (cut : Char → Bool) : List Char → List (List Char)
  | [] => [[]]
  | c :: rest =>
    if cut c then [] :: cutAt cut rest
    else match cutAt cut rest with
      | [] => [[c]]
      | piece :: pieces => (c :: piece) :: pieces

def blankFields (cs : List Char) : List (List Char) :=
  (cutAt isBlank cs).filter fun piece => !piece.isEmpty

end TypeCatalog
