import TypeCatalog.Kind

/-!
# Selectors

A selector is a predicate over types. Access rules, limits and the events of projectors use
selectors to say which types they are about.
-/

namespace TypeCatalog

/-- A predicate over types. -/
inductive Selector where
  | names (names : NameSet)
  | kinds (kinds : Std.ExtTreeSet TypeKind)
  | tags (tags : NameSet)
  /-- Types declared in this workspace, the workspace itself excluded. -/
  | workspace (name : QName)
  | and (parts : List Selector)
  | or (parts : List Selector)
  | not (part : Selector)

namespace Selector

def listed (texts : List String) : String := ", ".intercalate texts

mutual

def text : Selector → String
  | names list => "QNAMES(" ++ listed (list.toList.map QName.text) ++ ")"
  | kinds list => "TYPES(" ++ listed (list.toList.map TypeKind.text) ++ ")"
  | tags list => "TAGS(" ++ listed (list.toList.map QName.text) ++ ")"
  | workspace name => "WORKSPACE(" ++ name.text ++ ")"
  | and parts => "AND(" ++ listed (texts parts) ++ ")"
  | or parts => "OR(" ++ listed (texts parts) ++ ")"
  | not part => "NOT(" ++ part.text ++ ")"

def texts : List Selector → List String
  | [] => []
  | part :: rest => part.text :: texts rest

end

instance : ToString Selector := ⟨text⟩

end Selector

end TypeCatalog
