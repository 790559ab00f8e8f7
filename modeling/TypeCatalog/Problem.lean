import TypeCatalog.DefinitionError

/-!
# Problems

Validation does not stop at the first problem but reports all of them, in the order in which it
comes across them.
-/

namespace TypeCatalog

/-- A problem with a type, or with a rule of a workspace. -/
structure Problem where
  kind : ErrorKind
  owner : QName
  message : String
  deriving DecidableEq, Repr

def Problem.text (problem : Problem) : String :=
  problem.owner.text ++ ": " ++ problem.message ++ " [" ++ problem.kind.text ++ "]"

def occursIn (needle : List Char) : List Char → Bool
  | [] => needle.isEmpty
  | c :: rest => needle.isPrefixOf (c :: rest) || occursIn needle rest

abbrev Problems := List Problem

namespace Problems

def text (problems : Problems) : String :=
  toString problems.length ++ " validation error(s)"
    ++ String.join (problems.map fun p => "\n  - " ++ p.text)

/-- Whether a problem of a class mentions a text in its owner or message. -/
def mention (problems : Problems) (kind : ErrorKind) (needle : String) : Bool :=
  problems.any fun p => p.kind == kind
    && (occursIn needle.toList p.message.toList || occursIn needle.toList p.owner.text.toList)

def countOf (problems : Problems) (kind : ErrorKind) : Nat :=
  problems.countP fun p => p.kind == kind

end Problems

end TypeCatalog
