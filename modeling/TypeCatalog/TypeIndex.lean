import TypeCatalog.TypeTable

/-!
# Indexed types

A table that does not change any more is lined up: its types stand in an array in name order, and
whatever refers to types refers to their positions in this array.

* `TypeIndex.ofTable` lines up the types of a table and notes the position of each name.
* `Window` is a part of the types, given by positions in name order. A name is looked for in it by
  halving (`halve`).
-/

namespace TypeCatalog

/-- The names of types, each with the place of its type in name order. -/
def TypeTable.places (types : TypeTable) : List (QName × Nat) :=
  types.defs.zipIdx.map fun (t, position) => (t.name, position)

/-- Types in name order, with the position of each name. -/
structure TypeIndex where
  entries : Array TypeDef
  positions : NameMap Nat

namespace TypeIndex

def ofTable (types : TypeTable) : TypeIndex where
  entries := types.defs.toArray
  positions := .ofList types.places

def defs (index : TypeIndex) : List TypeDef := index.entries.toList

def size (index : TypeIndex) : Nat := index.entries.size

def typeAt (index : TypeIndex) (position : Nat) : TypeDef :=
  (index.entries[position]?).getD .null

def find? (index : TypeIndex) (name : QName) : Option TypeDef :=
  (index.positions[name]?).map index.typeAt

instance : GetElem? TypeIndex QName TypeDef fun index name => (index.find? name).isSome where
  getElem index name isThere := (index.find? name).get isThere
  getElem? := find?

/-- The type with the given name, the wildcard included, or the type that is not there. -/
def resolve (index : TypeIndex) (name : QName) : TypeDef :=
  if name = .any then .any else (index[name]?).getD .null

/-- The positions of names, as far as there are types of these names. -/
def positionsOf (index : TypeIndex) (names : NameSet) : Array Nat :=
  (names.toList.filterMap fun name => index.positions[name]?).toArray

end TypeIndex

/-! ## Parts of an index -/

/-- The place from `low` on and before `high` that has been ordered as equal to what is looked
for, in places of rising order. -/
def halve (order : Nat → Ordering) : (rounds low high : Nat) → Option Nat
  | 0, _, _ => none
  | rounds + 1, low, high =>
    if low < high then
      let middle := (low + high) / 2
      match order middle with
      | .lt => halve order rounds (middle + 1) high
      | .gt => halve order rounds low middle
      | .eq => some middle
    else none

/-- Some of the types of an index. -/
structure Window where
  index : TypeIndex
  /-- Positions of the types, in name order. -/
  positions : Array Nat

namespace Window

def defs (window : Window) : List TypeDef := window.positions.toList.map window.index.typeAt

def typeAt (window : Window) (place : Nat) : TypeDef :=
  ((window.positions[place]?).map window.index.typeAt).getD .null

def find? (window : Window) (name : QName) : Option TypeDef :=
  let size := window.positions.size
  (halve (fun place => compare (window.typeAt place).name name) size 0 size).map window.typeAt

instance : GetElem? Window QName TypeDef fun window name => (window.find? name).isSome where
  getElem window name isThere := (window.find? name).get isThere
  getElem? := find?

/-- The type with the given name, the wildcard included, or the type that is not there. -/
def resolve (window : Window) (name : QName) : TypeDef :=
  if name = .any then .any else (window[name]?).getD .null

end Window

end TypeCatalog
