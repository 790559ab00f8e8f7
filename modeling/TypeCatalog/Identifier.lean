import TypeCatalog.DefinitionError

/-!
# Identifiers and the reading of names

An identifier is not empty, no longer than a limit in bytes, starts with a letter of the English
alphabet or an underscore and goes on with such letters, digits and underscores.

* `checkIdentifier` says which of these rules a text breaks first.
* `QName.check` asks both parts of a qualified name to be identifiers.
* `QName.parse` splits a text at its only dot.
-/

namespace TypeCatalog

def isIdentifierStart (c : Char) : Bool := c.isAlpha || c == '_'

def isIdentifierPart (c : Char) : Bool := c.isAlphanum || c == '_'

/-- Accepts identifiers of at most `limit` bytes. -/
def checkIdentifier (limit : Nat) (ident : String) : Except DefinitionError Unit :=
  match ident.toList with
  | [] => .error .identifierMissing
  | first :: rest =>
    if limit < ident.utf8ByteSize then .error (.invalidName ident (.tooLong limit))
    else if !isIdentifierStart first then .error (.invalidName ident .badStart)
    else match rest.find? fun c => !isIdentifierPart c with
      | some c => .error (.invalidName ident (.badCharacter c))
      | none => .ok ()

namespace QName

/-- Accepts names whose two parts are identifiers of at most `limit` bytes each; a refusal speaks
about the whole name. -/
def check (limit : Nat) (name : QName) : Except DefinitionError Unit :=
  if name.isNull then .error .nameMissing
  else match checkIdentifier limit name.pkg, checkIdentifier limit name.entity with
    | .error (.invalidName _ flaw), _ => .error (.invalidName name.text flaw)
    | .error .identifierMissing, _ => .error (.invalidName name.text .partMissing)
    | .error error, _ => .error error
    | .ok _, .error (.invalidName _ flaw) => .error (.invalidName name.text flaw)
    | .ok _, .error .identifierMissing => .error (.invalidName name.text .partMissing)
    | .ok _, .error error => .error error
    | .ok _, .ok _ => .ok ()

/-- Reads a name off its written form, which has exactly one dot. -/
def parse (text : String) : Except DefinitionError QName :=
  match text.toList.dropWhile (· != '.') with
  | '.' :: entity =>
    if entity.contains '.' then .error (.invalidName text .notTwoParts)
    else .ok ⟨String.ofList (text.toList.takeWhile (· != '.')), String.ofList entity⟩
  | _ => .error (.invalidName text .notTwoParts)

end QName

end TypeCatalog
