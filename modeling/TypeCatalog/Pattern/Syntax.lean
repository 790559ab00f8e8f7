/-!
# Syntax trees of regular expressions

What a regular expression can be made of. There are no back references and no look-around.

* `Expr` is an expression, `ClassSet` the inside of a character class.
* `Expr.depth` counts how deeply an expression nests.
-/

namespace TypeCatalog.Pattern

/-- A switch that changes how an expression is read or matched. -/
inductive Flag where
  | ignoreCase
  | multiLine
  | dotAll
  | swapGreed
  | unicode
  | crlf
  | skipBlanks
  deriving DecidableEq, Repr

def Flag.ofChar? : Char → Option Flag
  | 'i' => some ignoreCase
  | 'm' => some multiLine
  | 's' => some dotAll
  | 'U' => some swapGreed
  | 'u' => some unicode
  | 'R' => some crlf
  | 'x' => some skipBlanks
  | _ => none

/-- An entry of a list of flags; what follows a negation is switched off. -/
inductive FlagItem where
  | negation
  | flag (flag : Flag)
  deriving DecidableEq, Repr

def Flag.state? (flag : Flag) : (items : List FlagItem) → (on : Bool := true) → Option Bool
  | [], _ => none
  | .negation :: rest, _ => flag.state? rest false
  | .flag other :: rest, on => if other = flag then some on else flag.state? rest on

/-- A character of an expression; `asByte` marks those written as a byte of two digits. -/
structure Literal where
  char : Char
  asByte : Bool := false
  deriving DecidableEq, Repr

/-- A question about the Unicode properties of a character. -/
inductive PropertyQuery where
  | named (name : String)
  | valued (name value : String)
  deriving DecidableEq, Repr

/-- The inside of a character class. -/
inductive ClassSet where
  | empty
  | literal (literal : Literal)
  | range (low high : Literal)
  | named (negated : Bool)
  | shorthand (wordChars negated : Bool)
  | property (query : PropertyQuery)
  | bracketed (negated : Bool) (body : ClassSet)
  | union (items : List ClassSet)
  | combined (left right : ClassSet)

/-- A regular expression. -/
inductive Expr where
  | empty
  | flags (items : List FlagItem)
  | literal (literal : Literal)
  | dot
  | assertion
  | shorthand (wordChars negated : Bool)
  | property (query : PropertyQuery)
  | bracketed (negated : Bool) (body : ClassSet)
  /-- An expression repeated `min` to `max` times, or without limit. -/
  | repetition (min : Nat) (max : Option Nat) (body : Expr)
  | group (flags : List FlagItem) (body : Expr)
  | alternation (branches : List Expr)
  | concat (parts : List Expr)

/-! ## Depth -/

mutual

def ClassSet.depth : ClassSet → Nat
  | .bracketed _ body => body.depth + 1
  | .union items => ClassSet.depths items + 1
  | .combined left right => max left.depth right.depth + 1
  | _ => 0

def ClassSet.depths : List ClassSet → Nat
  | [] => 0
  | item :: rest => max item.depth (ClassSet.depths rest)

end

mutual

def Expr.depth : Expr → Nat
  | .bracketed _ body => body.depth + 1
  | .repetition _ _ body => body.depth + 1
  | .group _ body => body.depth + 1
  | .alternation branches => Expr.depths branches + 1
  | .concat parts => Expr.depths parts + 1
  | _ => 0

def Expr.depths : List Expr → Nat
  | [] => 0
  | part :: rest => max part.depth (Expr.depths rest)

end

end TypeCatalog.Pattern
