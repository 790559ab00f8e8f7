import TypeCatalog.Decimal.Text

/-!
# JSON documents

Documents whose records keep the order of their entries, and the indented form in which they are
written.

* `Document.pretty` indents by two spaces and writes empty lists and records on one line.
* `escaped` is the written form of a text.
-/

namespace TypeCatalog

/-- A JSON document. -/
inductive Document where
  | null
  | bool (value : Bool)
  | natural (value : Nat)
  | number (value : Float)
  | text (value : String)
  | list (items : List Document)
  | record (entries : List (String × Document))

namespace Document

def hexDigit (n : Nat) : Char := "0123456789abcdef".toList.getD n '0'

def escapedChar (c : Char) : String :=
  match c with
  | '"' => "\\\""
  | '\\' => "\\\\"
  | '\x08' => "\\b"
  | '\x0c' => "\\f"
  | '\n' => "\\n"
  | '\r' => "\\r"
  | '\t' => "\\t"
  | c =>
    if c.toNat < 0x20 then
      "\\u00" ++ String.ofList [hexDigit (c.toNat / 16), hexDigit (c.toNat % 16)]
    else String.singleton c

def escaped (text : String) : String :=
  "\"" ++ String.join (text.toList.map escapedChar) ++ "\""

/-- A line break and what stands at the start of a line at the given depth. -/
def lineBreak (depth : Nat) : String := "\n" ++ String.ofList (List.replicate (2 * depth) ' ')

/-- Several written forms between brackets, one on each line. -/
def block (opening closing : String) (depth : Nat) (parts : List String) : String :=
  if parts.isEmpty then opening ++ closing
  else opening ++ lineBreak (depth + 1) ++ ("," ++ lineBreak (depth + 1)).intercalate parts
    ++ lineBreak depth ++ closing

mutual

/-- The indented form of a document at the given depth. -/
def prettyAt (depth : Nat) : Document → String
  | .null => "null"
  | .bool value => if value then "true" else "false"
  | .natural value => toString value
  | .number value => (jsonNumberText? value).getD "null"
  | .text value => escaped value
  | .list items => block "[" "]" depth (prettyItems (depth + 1) items)
  | .record entries => block "\x7b" "\x7d" depth (prettyEntries (depth + 1) entries)

def prettyItems (depth : Nat) : List Document → List String
  | [] => []
  | item :: rest => item.prettyAt depth :: prettyItems depth rest

def prettyEntries (depth : Nat) : List (String × Document) → List String
  | [] => []
  | (key, value) :: rest =>
    (escaped key ++ ": " ++ value.prettyAt depth) :: prettyEntries depth rest

end

def pretty (document : Document) : String := document.prettyAt 0

def texts (values : List String) : Document := .list (values.map .text)

def recordOf (entries : List (Option (String × Document))) : Document :=
  .record (entries.filterMap fun entry => entry)

def entry (key : String) (value : Document) : Option (String × Document) := some (key, value)

def entryIf (condition : Bool) (key : String) (value : Document) : Option (String × Document) :=
  if condition then some (key, value) else none

def tagged (key : String) (value : Document) : Document := .record [(key, value)]

end Document

end TypeCatalog
