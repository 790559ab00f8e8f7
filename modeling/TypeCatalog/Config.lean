import TypeCatalog.Pattern.Validity

/-!
# Settings of a catalog

* The limits are checked when something is added.
* The switch `Config.logsDenials` says whether denied access is reported.
* What a regular expression is belongs to the library that matches them. The rest of the catalog
  takes `Config.isPattern` as given; `Pattern.isValid` stands for it where nothing else is set.
-/

namespace TypeCatalog

/-- Limits of a catalog, and what it leaves to others. -/
structure Config where
  /-- Greatest length of an identifier, in bytes. -/
  maxIdentLen : Nat := 255
  /-- Greatest number of fields of a type, system fields included. -/
  maxFields : Nat := 65536
  maxContainers : Nat := 65536
  maxUniques : Nat := 100
  maxUniqueFields : Nat := 256
  logsDenials : Bool := false
  /-- Whether a text is a regular expression. -/
  isPattern : String → Bool := Pattern.isValid
  deriving Inhabited

end TypeCatalog
