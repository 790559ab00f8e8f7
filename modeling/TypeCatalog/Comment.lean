/-!
# Comments

Types, fields, containers, events, storages and rules may carry a comment. The empty text stands
for no comment wherever a comment is given.
-/

namespace TypeCatalog

/-- A comment, if there is one. -/
abbrev Comment := Option String

def Comment.ofText (text : String) : Comment := if text = "" then none else some text

end TypeCatalog
