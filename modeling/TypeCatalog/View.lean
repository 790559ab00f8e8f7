import TypeCatalog.Field

/-!
# Views

A view is a projection of records and events onto keys and values. Its fields are divided into a
partition key, clustering columns and values; names are unique across the parts.

* `View.addField` appends a field to one of the parts and refuses kinds that cannot be in it.
* `View.part?` says which part a field is in.
-/

namespace TypeCatalog

/-- A part of a view. -/
inductive ViewPart where
  | partition
  | clustering
  | value
  deriving DecidableEq, Repr

def ViewPart.text : ViewPart → String
  | partition => "Partition"
  | clustering => "Clustering"
  | value => "Value"

/-- Body of a view. -/
structure View where
  /-- All fields, system fields first. -/
  fields : Fields := .ofKind .view
  partition : List String := []
  clustering : List String := []
  value : List String := []

namespace View

/-- The part that a field is in; system fields are in none. -/
def part? (view : View) (name : String) : Option ViewPart :=
  if view.partition.contains name then some .partition
  else if view.clustering.contains name then some .clustering
  else if view.value.contains name then some .value
  else none

def checkPart (part : ViewPart) (field : Field) : Except DefinitionError Unit :=
  if part = .partition ∧ !field.isFixedWidth then
    .error (.variablePartitionField field.name field.kind)
  else if part ≠ .value ∧ (field.kind = .record ∨ field.kind = .event) then
    .error (.keyFieldMisfit field.name field.kind)
  else .ok ()

def addField (view : View) (part : ViewPart) (field : Field) (config : Config) :
    Except DefinitionError View := do
  checkPart part field
  let fields ← view.fields.push field .view config
  match part with
  | .partition => return { view with fields, partition := view.partition ++ [field.name] }
  | .clustering => return { view with fields, clustering := view.clustering ++ [field.name] }
  | .value => return { view with fields, value := view.value ++ [field.name] }

end View

end TypeCatalog
