import Std.Data.ExtTreeMap
import Std.Data.ExtTreeSet

/-!
# Closed vocabularies

The catalog speaks in small closed vocabularies: kinds of types, kinds of values, operations.
Each of them lists its members in a fixed order and gives every member one written form.

* `Enumeration.rank` orders the members, so sets of them are kept and printed in that order.
* `Enumeration.ofText?` reads a written form back.
-/

namespace TypeCatalog

/-- A closed vocabulary: its members in order, the position of each and its written form. -/
class Enumeration (α : Type) where
  /-- Every member, in order. -/
  members : List α
  rank : α → Nat
  text : α → String
  rank_injective : ∀ a b, rank a = rank b → a = b

namespace Enumeration

variable {α : Type} [Enumeration α]

def ofText? (text : String) : Option α :=
  (members (α := α)).find? fun a => Enumeration.text a == text

instance : Ord α := ⟨compareOn rank⟩

instance : Std.TransOrd α := inferInstanceAs (Std.TransCmp (compareOn (rank (α := α))))

instance : Std.LawfulEqOrd α where
  eq_of_compare {a b} h := rank_injective a b (Std.LawfulEqOrd.eq_of_compare (α := Nat) h)

end Enumeration

end TypeCatalog
