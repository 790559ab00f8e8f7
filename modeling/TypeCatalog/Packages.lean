import TypeCatalog.Identifier

/-!
# Packages

Packages bind local names to globally unique paths, one to one. A binding is never changed once
it is made.

* `Packages.add` binds a name to a path; binding the same pair again changes nothing.
* `Packages.fullName` and `Packages.localName` carry names across the bindings and are absent
  where there is no binding.
-/

namespace TypeCatalog

/-- Bindings between local names and paths, kept in both directions. -/
structure Packages where
  paths : Std.ExtTreeMap String String := ∅
  names : Std.ExtTreeMap String String := ∅

namespace Packages

def empty : Packages := {}

def system : Packages where
  paths := (∅ : Std.ExtTreeMap String String).insert QName.sysPackage QName.sysPackagePath
  names := (∅ : Std.ExtTreeMap String String).insert QName.sysPackagePath QName.sysPackage

def path? (packages : Packages) (pkg : String) : Option String := packages.paths[pkg]?

def name? (packages : Packages) (path : String) : Option String := packages.names[path]?

def add (packages : Packages) (limit : Nat) (pkg path : String) :
    Except DefinitionError Packages := do
  checkIdentifier limit pkg
  if path = "" then throw (.packagePathMissing pkg)
  match packages.path? pkg with
  | some bound => if bound = path then return packages else throw (.packageBound pkg bound)
  | none =>
    match packages.name? path with
    | some bound => throw (.pathBound path bound)
    | none => return ⟨packages.paths.insert pkg path, packages.names.insert path pkg⟩

/-- The name with its package named by path, absent if the package is unknown. -/
def fullName (packages : Packages) (name : QName) : FullName :=
  match packages.path? name.pkg with
  | some path => ⟨path, name.entity⟩
  | none => .null

/-- The name with its package named locally, absent if the path is unknown. -/
def localName (packages : Packages) (name : FullName) : QName :=
  match packages.name? name.path with
  | some pkg => ⟨pkg, name.entity⟩
  | none => .null

/-- Local names with their paths, in order of the local names. -/
def toList (packages : Packages) : List (String × String) := packages.paths.toList

def size (packages : Packages) : Nat := packages.paths.size

end Packages

end TypeCatalog
