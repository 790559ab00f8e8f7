import Std.Data.ExtTreeMap
import Std.Data.ExtTreeSet

/-!
# Qualified names

A qualified name pairs the local name of a package with the name of an entity in it, and is
written `package.entity`. Names are ordered by package and then by entity.

* `QName.null` is the absent name, written as a lone dot.
* `FullName` names the package by its globally unique path instead of its local name.
-/

namespace TypeCatalog

/-- A package's local name and an entity name. -/
structure QName where
  pkg : String
  entity : String
  deriving DecidableEq, Repr, Inhabited

namespace QName

def null : QName := ⟨"", ""⟩

def sysPackage : String := "sys"

def sysPackagePath : String := "appcat.dev/sys"

def sys (entity : String) : QName := ⟨sysPackage, entity⟩

/-- The wildcard type name, accepted wherever a parameter or result is expected. -/
def any : QName := sys "ANY"

/-- The root workspace, which every other workspace inherits from. -/
def sysWorkspace : QName := sys "Workspace"

def isNull (name : QName) : Bool := name.pkg == "" && name.entity == ""

def isSys (name : QName) : Bool := name.pkg == sysPackage

/-- The written form, with a dot between package and entity. -/
def text (name : QName) : String := name.pkg ++ "." ++ name.entity

instance : ToString QName := ⟨text⟩

instance : Ord QName := ⟨compareLex (compareOn pkg) (compareOn entity)⟩

instance : Std.TransOrd QName :=
  inferInstanceAs (Std.TransCmp (compareLex (compareOn pkg) (compareOn entity)))

instance : Std.LawfulEqOrd QName where
  eq_of_compare {a b} h := by
    have parts : compare a.pkg b.pkg = .eq ∧ compare a.entity b.entity = .eq := by
      simpa [compare, compareLex, compareOn, Ordering.then_eq_eq] using h
    obtain ⟨pkg, entity⟩ := parts
    cases a
    cases b
    simp_all

theorem isNull_iff {name : QName} : name.isNull = true ↔ name = null := by
  cases name
  simp [isNull, null]

end QName

abbrev NameSet := Std.ExtTreeSet QName

/-- A table keyed by qualified names, kept in name order. -/
abbrev NameMap (α : Type) := Std.ExtTreeMap QName α

/-- A package path and an entity name. -/
structure FullName where
  path : String
  entity : String
  deriving DecidableEq, Repr, Inhabited

namespace FullName

def null : FullName := ⟨"", ""⟩

def isNull (name : FullName) : Bool := name.path == "" && name.entity == ""

/-- The written form, with a dot between path and entity. -/
def text (name : FullName) : String := name.path ++ "." ++ name.entity

instance : ToString FullName := ⟨text⟩

end FullName

end TypeCatalog
