import TypeCatalog.Pattern.Property
import TypeCatalog.Pattern.Reader

/-!
# Which regular expressions are valid

A text is a valid pattern when it reads as an expression that

* nests no deeper than `maxDepth`,
* asks for known properties only and never matches half a character: where matching is by bytes,
  nothing may match a byte that is not a character of its own (`Expr.mode?`), and
* needs an automaton of at most `maxSize` bytes (`Expr.size` is an estimate of what it needs).
-/

namespace TypeCatalog.Pattern

def maxDepth : Nat := 250

/-- How many bytes an automaton may take: ten times 1024 times 1024. -/
def maxSize : Nat := 10 * 1024 * 1024

/-! ## Characters and bytes -/

def Literal.isAscii (l : Literal) : Bool := l.char.toNat < 128

mutual

/-- Whether a set can be matched by characters, or by bytes that are characters of their own. -/
def ClassSet.fits (unicode : Bool) : ClassSet → Bool
  | .empty => true
  | .literal l => unicode || l.isAscii
  | .range low high => unicode || (low.isAscii && high.isAscii)
  | .named negated => unicode || !negated
  | .shorthand _ negated => unicode || !negated
  | .property query => unicode && query.isKnown
  | .bracketed negated body => (unicode || !negated) && body.fits unicode
  | .union items => ClassSet.allFit unicode items
  | .combined left right => left.fits unicode && right.fits unicode

def ClassSet.allFit (unicode : Bool) : List ClassSet → Bool
  | [] => true
  | item :: rest => item.fits unicode && ClassSet.allFit unicode rest

end

/-- The given mode of matching, if the condition holds. -/
def keepMode? (unicode condition : Bool) : Option Bool :=
  if condition then some unicode else none

mutual

/-- The mode of matching behind an expression, if the expression can be matched in the given mode
before it: `true` stands for characters, `false` for bytes. -/
def Expr.mode? (unicode : Bool) : Expr → Option Bool
  | .empty | .assertion => some unicode
  | .flags list => some ((Flag.unicode.state? list).getD unicode)
  | .literal l => keepMode? unicode (unicode || !l.asByte || l.isAscii)
  | .dot => keepMode? unicode unicode
  | .shorthand _ negated => keepMode? unicode (unicode || !negated)
  | .property query => keepMode? unicode (unicode && query.isKnown)
  | .bracketed negated body => keepMode? unicode ((unicode || !negated) && body.fits unicode)
  | .repetition _ _ body => body.mode? unicode
  | .group list body =>
    (body.mode? ((Flag.unicode.state? list).getD unicode)).map fun _ => unicode
  | .alternation branches => Expr.modeOfAll? unicode branches
  | .concat parts => Expr.modeOfAll? unicode parts

/-- The mode of matching behind several expressions, each of which is read in the mode that the
one before it leaves. -/
def Expr.modeOfAll? (unicode : Bool) : List Expr → Option Bool
  | [] => some unicode
  | part :: rest => (part.mode? unicode).bind fun unicode => Expr.modeOfAll? unicode rest

end

/-! ## Size -/

def stateSize : Nat := 32

/-- The bytes for a shorthand; there are many ranges of word characters. -/
def shorthandSize (wordChars : Bool) : Nat :=
  if wordChars then 1500 * stateSize else 100 * stateSize

mutual

def ClassSet.size : ClassSet → Nat
  | .empty => stateSize
  | .literal l => 8 * l.char.utf8Size
  | .range low high => 8 * (low.char.utf8Size + high.char.utf8Size)
  | .named _ => 2 * stateSize
  | .shorthand wordChars _ => shorthandSize wordChars
  | .property _ => 300 * stateSize
  | .bracketed negated body => body.size + if negated then 16 * stateSize else 2 * stateSize
  | .union items => ClassSet.sizes items
  | .combined left right => max left.size right.size

def ClassSet.sizes : List ClassSet → Nat
  | [] => 0
  | item :: rest => item.size + ClassSet.sizes rest

end

mutual

/-- Whether an expression matches nothing but the empty text. -/
def Expr.isEmptyOnly : Expr → Bool
  | .empty | .flags _ | .assertion => true
  | .repetition _ max body => max == some 0 || body.isEmptyOnly
  | .group _ body => body.isEmptyOnly
  | .alternation branches => Expr.allEmptyOnly branches
  | .concat parts => Expr.allEmptyOnly parts
  | _ => false

/-- Whether several expressions match nothing but the empty text. -/
def Expr.allEmptyOnly : List Expr → Bool
  | [] => true
  | part :: rest => part.isEmptyOnly && Expr.allEmptyOnly rest

end

mutual

/-- An estimate of the bytes that the automaton of an expression takes. A repetition holds a copy
of its body for each time that the body may have to match; what is empty need not be repeated. -/
def Expr.size : Expr → Nat
  | .empty | .assertion => stateSize
  | .flags _ => 0
  | .literal l => stateSize * l.char.utf8Size
  | .dot => 16 * stateSize
  | .shorthand wordChars _ => shorthandSize wordChars
  | .property _ => 300 * stateSize
  | .bracketed negated body => body.size + if negated then 16 * stateSize else 2 * stateSize
  | .repetition min max body =>
    if body.isEmptyOnly then body.size + stateSize
    else match max with
      | none => (if min = 0 then 1 else min) * body.size + 2 * stateSize
      | some max => min * body.size + (max - min) * (body.size + stateSize) + stateSize
  | .group _ body => body.size + 2 * stateSize
  | .alternation branches => Expr.sizes branches + 2 * stateSize
  | .concat parts => Expr.sizes parts

/-- An estimate of the bytes that the automata of several expressions take. -/
def Expr.sizes : List Expr → Nat
  | [] => 0
  | part :: rest => part.size + Expr.sizes rest

end

/-! ## Validity -/

def isValid (text : String) : Bool :=
  match Expr.read? text with
  | some e => e.depth ≤ maxDepth && (e.mode? true).isSome && e.size ≤ maxSize
  | none => false

end TypeCatalog.Pattern
