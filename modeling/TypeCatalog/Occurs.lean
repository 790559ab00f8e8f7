/-!
# Occurrence bounds

How often a container may or must be filled. The largest number that the bound can hold stands
for "without limit".
-/

namespace TypeCatalog

/-- A bound on occurrences. -/
structure Occurs where
  count : UInt16
  deriving DecidableEq, Repr

namespace Occurs

def unbounded : Occurs := ⟨65535⟩

def isUnbounded (bound : Occurs) : Bool := bound == unbounded

def text (bound : Occurs) : String :=
  if bound.isUnbounded then "unbounded" else toString bound.count.toNat

instance : ToString Occurs := ⟨text⟩

end Occurs

end TypeCatalog
