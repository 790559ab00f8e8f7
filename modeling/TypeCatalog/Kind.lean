import TypeCatalog.Enumeration
import TypeCatalog.QName

/-!
# Kinds of types and kinds of values

A catalog type has a `TypeKind`, a stored value a `DataKind`. This module holds the two
vocabularies and the tables that say what goes with what.

* `TypeKind.mayContain` says which kinds a structure may nest in its containers.
* `TypeKind.mayHold` says which kinds of values a type may have fields of.
* `TypeKind.systemFields` lists the fields every type of a kind starts with.
-/

namespace TypeCatalog

/-! ## Kinds of types -/

/-- Kind of a catalog type. -/
inductive TypeKind where
  | null
  | any
  | data
  | gDoc
  | cDoc
  | wDoc
  | oDoc
  | gRecord
  | cRecord
  | wRecord
  | oRecord
  | view
  | object
  | element
  | query
  | command
  | projector
  | job
  | workspace
  | role
  | rate
  | limit
  | tag
  deriving DecidableEq, Repr, Inhabited

namespace TypeKind

def text : TypeKind → String
  | null => "Null"
  | any => "Any"
  | data => "Data"
  | gDoc => "GDoc"
  | cDoc => "CDoc"
  | wDoc => "WDoc"
  | oDoc => "ODoc"
  | gRecord => "GRecord"
  | cRecord => "CRecord"
  | wRecord => "WRecord"
  | oRecord => "ORecord"
  | view => "ViewRecord"
  | object => "Object"
  | element => "Element"
  | query => "Query"
  | command => "Command"
  | projector => "Projector"
  | job => "Job"
  | workspace => "Workspace"
  | role => "Role"
  | rate => "Rate"
  | limit => "Limit"
  | tag => "Tag"

instance : Enumeration TypeKind where
  members := [null, any, data, gDoc, cDoc, wDoc, oDoc, gRecord, cRecord, wRecord, oRecord, view,
    object, element, query, command, projector, job, workspace, role, rate, limit, tag]
  rank := TypeKind.ctorIdx
  text := text
  rank_injective a b h := by rw [← TypeKind.ofNat_ctorIdx a, ← TypeKind.ofNat_ctorIdx b, h]

instance : ToString TypeKind := ⟨text⟩

def isDoc : TypeKind → Bool
  | gDoc | cDoc | wDoc | oDoc => true
  | _ => false

/-- Documents and records: the kinds that carry an identity and may be referred to. -/
def isRecord : TypeKind → Bool
  | gRecord | cRecord | wRecord | oRecord => true
  | kind => kind.isDoc

def isStructure : TypeKind → Bool
  | object | element => true
  | kind => kind.isRecord

/-- Kinds with fields: structures and views. -/
def hasFields (kind : TypeKind) : Bool := kind.isStructure || kind == view

def isFunction : TypeKind → Bool
  | command | query => true
  | _ => false

def isExtension (kind : TypeKind) : Bool := kind.isFunction || kind == projector || kind == job

def isActivable : TypeKind → Bool
  | gDoc | cDoc | wDoc | gRecord | cRecord | wRecord => true
  | _ => false

def maySingleton : TypeKind → Bool
  | cDoc | wDoc => true
  | _ => false

/-- Whether a structure of kind `owner` may nest structures of kind `child`. -/
def mayContain : (owner child : TypeKind) → Bool
  | gDoc, gRecord => true
  | cDoc, cRecord => true
  | wDoc, wRecord => true
  | oDoc, oDoc => true
  | oDoc, oRecord => true
  | gRecord, gRecord => true
  | cRecord, cRecord => true
  | wRecord, wRecord => true
  | oRecord, oRecord => true
  | object, element => true
  | element, element => true
  | _, _ => false

def mayBeParam : TypeKind → Bool
  | data | oDoc | object => true
  | _ => false

def mayBeResult (kind : TypeKind) : Bool := kind.mayBeParam || kind.isDoc

end TypeKind

/-! ## Kinds of values -/

/-- Kind of a stored value. -/
inductive DataKind where
  | null
  | int32
  | int64
  | float32
  | float64
  | bytes
  | string
  | qname
  | bool
  | recordID
  /-- A whole record, in views only. -/
  | record
  /-- A whole event, in views only. -/
  | event
  deriving DecidableEq, Repr, Inhabited

namespace DataKind

def text : DataKind → String
  | null => "Null"
  | int32 => "Int32"
  | int64 => "Int64"
  | float32 => "Float32"
  | float64 => "Float64"
  | bytes => "Bytes"
  | string => "String"
  | qname => "QName"
  | bool => "Bool"
  | recordID => "RecordID"
  | record => "Record"
  | event => "Event"

instance : Enumeration DataKind where
  members := [null, int32, int64, float32, float64, bytes, string, qname, bool, recordID, record,
    event]
  rank := DataKind.ctorIdx
  text := text
  rank_injective a b h := by rw [← DataKind.ofNat_ctorIdx a, ← DataKind.ofNat_ctorIdx b, h]

instance : ToString DataKind := ⟨text⟩

def inhabitedKinds : List DataKind :=
  [int32, int64, float32, float64, bytes, string, qname, bool, recordID, record, event]

def isFixedWidth : DataKind → Bool
  | int32 | int64 | float32 | float64 | qname | bool | recordID => true
  | _ => false

def isNumeric : DataKind → Bool
  | int32 | int64 | float32 | float64 => true
  | _ => false

def isStringLike : DataKind → Bool
  | string | bytes => true
  | _ => false

/-- Name of the system data type of a kind, absent for the kind without values. -/
def sysName : DataKind → QName
  | null => QName.null
  | int32 => QName.sys "int32"
  | int64 => QName.sys "int64"
  | float32 => QName.sys "float32"
  | float64 => QName.sys "float64"
  | bytes => QName.sys "bytes"
  | string => QName.sys "string"
  | qname => QName.sys "QName"
  | bool => QName.sys "bool"
  | recordID => QName.sys "RecordID"
  | record => QName.sys "Record"
  | event => QName.sys "Event"

end DataKind

/-- Whether a type of this kind may have fields holding values of kind `data`. -/
def TypeKind.mayHold (kind : TypeKind) : (data : DataKind) → Bool
  | .null => false
  | .record | .event => kind == .view
  | _ => kind.hasFields

/-! ## System fields -/

/-- A field that types of some kinds start with. -/
structure SystemField where
  name : String
  kind : DataKind
  required : Bool
  deriving DecidableEq, Repr

namespace SystemField

def namePrefix : String := "sys."

def typeName : SystemField := ⟨"sys.QName", .qname, true⟩

def id : SystemField := ⟨"sys.ID", .recordID, true⟩

def parentID : SystemField := ⟨"sys.ParentID", .recordID, true⟩

def container : SystemField := ⟨"sys.Container", .string, true⟩

def isActive : SystemField := ⟨"sys.IsActive", .bool, false⟩

end SystemField

/-- The fields every type of a kind starts with, in field order. -/
def TypeKind.systemFields : TypeKind → List SystemField
  | gDoc | cDoc | wDoc => [.typeName, .id, .isActive]
  | oDoc => [.typeName, .id]
  | gRecord | cRecord | wRecord => [.typeName, .id, .parentID, .container, .isActive]
  | oRecord => [.typeName, .id, .parentID, .container]
  | view | object => [.typeName]
  | element => [.typeName, .container]
  | _ => []

end TypeCatalog
