import TypeCatalog.QName

/-!
# What can be reached from a set of names

`saturate` adds to a set of names whatever one step leads to, until nothing new comes in. It is
used for the ancestors of workspaces and for the roles that a role inherits.

* `advance` is one round, `saturate` repeats rounds until one of them brings nothing.
* The number of rounds is bounded; a bound as large as the number of names that can be reached is
  never used up.
-/

namespace TypeCatalog

/-- A set of names together with all names that one step leads to. -/
def advance (step : QName → List QName) (names : NameSet) : NameSet :=
  names.insertMany (names.toList.flatMap step)

/-- A set of names together with all names that steps lead to, in at most `rounds` rounds. -/
def saturate (step : QName → List QName) : (rounds : Nat) → NameSet → NameSet
  | 0, names => names
  | rounds + 1, names =>
    let more := advance step names
    if more.size = names.size then names else saturate step rounds more

end TypeCatalog
