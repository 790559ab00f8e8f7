import TypeCatalog.Pattern.Syntax
import TypeCatalog.Text.Blank
import TypeCatalog.Text.Letter

/-!
# Reading regular expressions

`Expr.read?` reads the whole of a text as a regular expression. It keeps the groups that are open
on a stack, so that every step takes at least one character, and has as many steps as the text has
characters.

* `readEscape` reads what follows a backslash.
* `readClass` reads a class in brackets, nested classes and set operations included.
* `State.step` reads one item of an expression outside of classes.
-/

namespace TypeCatalog.Pattern

abbrev Input := List Char

/-! ## Blanks and runs of characters -/

def skipComment : Input → Input
  | [] => []
  | c :: rest => if c == '\n' then rest else skipComment rest

/-- Skips blanks and comments, of which there are at most `limit`. -/
def skipBlanksUpTo : (limit : Nat) → Input → Input
  | limit + 1, c :: rest =>
    if isBlank c then skipBlanksUpTo limit rest
    else if c == '#' then skipBlanksUpTo limit (skipComment rest)
    else c :: rest
  | _, cs => cs

/-- Skips blanks and comments if they have no meaning of their own. -/
def skip (blanks : Bool) (cs : Input) : Input :=
  if blanks then skipBlanksUpTo cs.length cs else cs

/-- Takes at most `limit` characters that satisfy `accept`, skipping blanks behind each. -/
def takeRun (blanks : Bool) (accept : Char → Bool) : (limit : Nat) → Input → List Char × Input
  | limit + 1, c :: rest =>
    if accept c then
      let (run, rest) := takeRun blanks accept limit (skip blanks rest)
      (c :: run, rest)
    else ([], c :: rest)
  | _, cs => ([], cs)

/-- Takes all characters from the start that satisfy `accept`, skipping blanks behind each. -/
def takeAll (blanks : Bool) (accept : Char → Bool) (cs : Input) : List Char × Input :=
  takeRun blanks accept cs.length cs

/-! ## Numbers -/

def hexDigit? (c : Char) : Option Nat :=
  if c.isDigit then some (c.toNat - '0'.toNat)
  else if 'a' ≤ c ∧ c ≤ 'f' then some (c.toNat - 'a'.toNat + 10)
  else if 'A' ≤ c ∧ c ≤ 'F' then some (c.toNat - 'A'.toNat + 10)
  else none

/-- The character whose code point has the given hexadecimal digits. -/
def charOfHex? (digits : List Char) : Option Char := do
  let values ← digits.mapM hexDigit?
  let code := values.foldl (fun code digit => 16 * code + digit) 0
  if code.isValidChar then some (Char.ofNat code) else none

/-- A decimal number that fits in 32 bits, with blanks around it. -/
def readDecimal (blanks : Bool) (cs : Input) : Option Nat × Input :=
  let (digits, rest) := takeAll blanks Char.isDigit (dropBlanks cs)
  let rest := (takeAll blanks isBlank rest).2
  let value := digits.foldl (fun value digit => 10 * value + (digit.toNat - '0'.toNat)) 0
  (if digits.isEmpty || UInt32.size ≤ value then none else some value, rest)

/-! ## Escapes -/

/-- What an escape or a single character stands for. -/
inductive Atom where
  | literal (literal : Literal)
  | assertion
  | shorthand (wordChars negated : Bool)
  | property (query : PropertyQuery)

/-- Reads a code point in hexadecimal: `digits` of them, or any number in braces. -/
def readHex (blanks : Bool) (digits : Nat) (cs : Input) : Option (Literal × Input) :=
  match skip blanks cs with
  | '{' :: rest =>
    match takeAll blanks (· != '}') (skip blanks rest) with
    | ([], _) => none
    | (run, '}' :: rest) => do
      let c ← charOfHex? run
      some (⟨c, false⟩, skip blanks rest)
    | _ => none
  | rest => do
    let (run, rest) := takeRun blanks (fun c => (hexDigit? c).isSome) digits rest
    if run.length = digits then
      let c ← charOfHex? run
      some (⟨c, digits == 2⟩, rest)
    else none

/-- Splits a text at the first place where a separator starts. -/
def splitAtFirst? (separator : List Char) : List Char → Option (List Char × List Char)
  | [] => none
  | c :: rest =>
    if separator.isPrefixOf (c :: rest) then some ([], (c :: rest).drop separator.length)
    else (splitAtFirst? separator rest).map fun (left, right) => (c :: left, right)

/-- The question that stands between the braces of a property. -/
def queryOf (content : List Char) : PropertyQuery :=
  let split := splitAtFirst? ['!', '='] content
    |>.orElse (fun _ => splitAtFirst? [':'] content)
    |>.orElse (fun _ => splitAtFirst? ['='] content)
  match split with
  | some (name, value) => .valued (String.ofList name) (String.ofList value)
  | none => .named (String.ofList content)

/-- Reads a question about properties: one letter, or a name in braces. -/
def readProperty (blanks : Bool) (cs : Input) : Option (PropertyQuery × Input) :=
  match skip blanks cs with
  | [] => none
  | '{' :: rest =>
    match takeAll blanks (· != '}') (skip blanks rest) with
    | (content, '}' :: rest) => some (queryOf content, rest)
    | _ => none
  | '\\' :: _ => none
  | c :: rest => some (.named (String.singleton c), skip blanks rest)

/-- Whether the character may stand in the name of a special word boundary. -/
def isBoundaryNameChar (c : Char) : Bool := c.isAlpha || c == '-'

/-- Reads a word boundary, whose kind may follow in braces. Braces around something else belong
to a repetition. -/
def readBoundary (blanks : Bool) (cs : Input) : Option (Atom × Input) :=
  match cs with
  | '{' :: rest =>
    match skip blanks rest with
    | [] => none
    | c :: rest =>
      if isBoundaryNameChar c then
        match takeAll blanks isBoundaryNameChar (c :: rest) with
        | (name, '}' :: rest) =>
          if ["start", "end", "start-half", "end-half"].contains (String.ofList name) then
            some (.assertion, rest)
          else none
        | _ => none
      else some (.assertion, cs)
  | _ => some (.assertion, cs)

/-- Characters that stand for themselves behind a backslash. -/
def isEscapable (c : Char) : Bool :=
  c.toNat < 128 && !c.isAlphanum && c != '<' && c != '>'

def readEscape (blanks : Bool) : Input → Option (Atom × Input)
  | [] => none
  | c :: rest =>
    match c with
    | 'x' => (readHex blanks 2 rest).map fun (literal, rest) => (.literal literal, rest)
    | 'u' => (readHex blanks 4 rest).map fun (literal, rest) => (.literal literal, rest)
    | 'U' => (readHex blanks 8 rest).map fun (literal, rest) => (.literal literal, rest)
    | 'p' | 'P' => (readProperty blanks rest).map fun (query, rest) => (.property query, rest)
    | 'd' | 's' => some (.shorthand false false, rest)
    | 'D' | 'S' => some (.shorthand false true, rest)
    | 'w' => some (.shorthand true false, rest)
    | 'W' => some (.shorthand true true, rest)
    | 'a' => some (.literal ⟨'\x07', false⟩, rest)
    | 'f' => some (.literal ⟨'\x0c', false⟩, rest)
    | 't' => some (.literal ⟨'\t', false⟩, rest)
    | 'n' => some (.literal ⟨'\n', false⟩, rest)
    | 'r' => some (.literal ⟨'\r', false⟩, rest)
    | 'v' => some (.literal ⟨'\x0b', false⟩, rest)
    | 'b' => readBoundary blanks rest
    | 'A' | 'z' | 'B' | '<' | '>' => some (.assertion, rest)
    | c => if isEscapable c then some (.literal ⟨c, false⟩, rest) else none

/-! ## Classes -/

/-- The set of several items, the last one first. -/
def ClassSet.ofItems : List ClassSet → ClassSet
  | [] => .empty
  | [item] => item
  | items => .union items.reverse

/-- What waits for the end of the set that is being read. -/
inductive ClassFrame where
  | opened (outer : List ClassSet) (negated : Bool)
  | operand (left : ClassSet)

/-- The set read so far together with the operation that waits for it, and the other frames. -/
def closeOperand (set : ClassSet) : List ClassFrame → ClassSet × List ClassFrame
  | .operand left :: frames => (.combined left set, frames)
  | frames => (set, frames)

/-- The classes that may stand in square brackets and colons. -/
def classNames : List String :=
  ["alnum", "alpha", "ascii", "blank", "cntrl", "digit", "graph", "lower", "print", "punct",
    "space", "upper", "word", "xdigit"]

/-- Reads a class by name behind the bracket that opens it; says whether it is negated. -/
def readNamedClass? : Input → Option (Bool × Input)
  | ':' :: rest =>
    let (negated, rest) := match rest with
      | '^' :: rest => (true, rest)
      | rest => (false, rest)
    let name := String.ofList (rest.takeWhile (· != ':'))
    match rest.dropWhile (· != ':') with
    | ':' :: ']' :: rest => if classNames.contains name then some (negated, rest) else none
    | _ => none
  | _ => none

/-- The dashes at the start of a class, which stand for themselves. -/
def leadingDashes (blanks : Bool) (cs : Input) : List ClassSet × Input :=
  let (dashes, rest) := takeAll blanks (· == '-') cs
  (dashes.map fun c => .literal ⟨c, false⟩, rest)

/-- Reads the start of a class behind its bracket: whether it is negated, and the characters that
stand for themselves only there. -/
def openClass (blanks : Bool) (cs : Input) : Option (Bool × List ClassSet × Input) :=
  let (negated, rest) := match skip blanks cs with
    | '^' :: rest => (true, skip blanks rest)
    | rest => (false, rest)
  match leadingDashes blanks rest with
  | (_, []) => none
  | ([], ']' :: rest) =>
    match skip blanks rest with
    | [] => none
    | rest => some (negated, [.literal ⟨']', false⟩], rest)
  | (dashes, rest) => some (negated, dashes, rest)

def readClassAtom (blanks : Bool) : Input → Option (Atom × Input)
  | [] => none
  | '\\' :: rest => readEscape blanks rest
  | c :: rest => some (.literal ⟨c, false⟩, rest)

def Atom.classSet? : Atom → Option ClassSet
  | .literal c => some (.literal c)
  | .shorthand wordChars negated => some (.shorthand wordChars negated)
  | .property query => some (.property query)
  | .assertion => none

/-- Whether a dash that is followed by the given text marks a range. -/
def marksRange (blanks : Bool) (rest : Input) : Bool :=
  match skip blanks rest with
  | ']' :: _ | '-' :: _ => false
  | _ => true

/-- Reads an item of a class: a range of characters or a single atom. -/
def readClassItem (blanks : Bool) (cs : Input) : Option (ClassSet × Input) := do
  let (low, rest) ← readClassAtom blanks cs
  match skip blanks rest with
  | [] => none
  | '-' :: rest =>
    if marksRange blanks rest then
      let (high, rest) ← readClassAtom blanks (skip blanks rest)
      match low, high with
      | .literal low, .literal high =>
        if low.char ≤ high.char then some (.range low high, rest) else none
      | _, _ => none
    else low.classSet?.map fun set => (set, '-' :: rest)
  | rest => low.classSet?.map fun set => (set, rest)

/-- Reads a class up to the bracket that closes it, in at most `limit` steps. -/
def readClass (blanks : Bool) :
    (limit : Nat) → List ClassFrame → List ClassSet → Input → Option (Bool × ClassSet × Input)
  | 0, _, _, _ => none
  | limit + 1, frames, items, cs =>
    match skip blanks cs with
    | [] => none
    | '[' :: rest =>
      match readNamedClass? rest with
      | some (negated, rest) => readClass blanks limit frames (.named negated :: items) rest
      | none =>
        match openClass blanks rest with
        | some (negated, first, rest) =>
          readClass blanks limit (.opened items negated :: frames) first rest
        | none => none
    | ']' :: rest =>
      match closeOperand (.ofItems items) frames with
      | (body, [.opened _ negated]) => some (negated, body, rest)
      | (body, .opened outer negated :: frames) =>
        readClass blanks limit frames (.bracketed negated body :: outer) rest
      | _ => none
    | '&' :: '&' :: rest | '-' :: '-' :: rest | '~' :: '~' :: rest =>
      let (left, frames) := closeOperand (.ofItems items) frames
      readClass blanks limit (.operand left :: frames) [] rest
    | cs =>
      match readClassItem blanks cs with
      | some (item, rest) => readClass blanks limit frames (item :: items) rest
      | none => none

/-! ## Groups and repetitions -/

/-- What an opening parenthesis starts. -/
inductive Opening where
  /-- A group with a name or without one, and the flags that hold in it. -/
  | group (name : Option String) (flags : List FlagItem)
  | flags (items : List FlagItem)

/-- Reads flags up to a colon or closing parenthesis, which it returns. -/
def readFlags (items : List FlagItem) : Input → Option (List FlagItem × Char × Input)
  | [] => none
  | c :: rest =>
    if c == ':' || c == ')' then
      if items.getLast? = some .negation then none else some (items, c, rest)
    else
      match if c == '-' then some FlagItem.negation else (Flag.ofChar? c).map .flag with
      | some item => if items.contains item then none else readFlags (items ++ [item]) rest
      | none => none

/-- Reads the name of a group up to the angle bracket behind it. -/
def readGroupName (cs : Input) : Option (String × Input) :=
  let name := cs.takeWhile (· != '>')
  match name, cs.dropWhile (· != '>') with
  | first :: others, '>' :: rest =>
    let isNameChar (c : Char) := c == '_' || c == '.' || c == '[' || c == ']' || isLetterOrNumeral c
    if (first == '_' || isLetter first) && others.all isNameChar then
      some (String.ofList name, rest)
    else none
  | _, _ => none

/-- Reads what follows an opening parenthesis. Look-around is refused. -/
def readOpening (blanks : Bool) (cs : Input) : Option (Opening × Input) :=
  match skip blanks cs with
  | '?' :: '=' :: _ | '?' :: '!' :: _ | '?' :: '<' :: '=' :: _ | '?' :: '<' :: '!' :: _ => none
  | '?' :: 'P' :: '<' :: rest | '?' :: '<' :: rest =>
    (readGroupName rest).map fun (name, rest) => (.group (some name) [], rest)
  | '?' :: rest => do
    let (items, last, rest) ← readFlags [] rest
    if last == ':' then some (.group none items, rest)
    else if items.isEmpty then none
    else some (.flags items, rest)
  | rest => some (.group none [], rest)

/-- Reads the bounds of a counted repetition behind the brace that opens it. -/
def readBounds (blanks : Bool) (cs : Input) : Option ((Nat × Option Nat) × Input) := do
  let (first, rest) := readDecimal blanks (skip blanks cs)
  let min ← first
  let (bounds, rest) ← match rest with
    | ',' :: rest =>
      match skip blanks rest with
      | '}' :: rest => some ((min, none), '}' :: rest)
      | rest => do
        let (second, rest) := readDecimal blanks rest
        let max ← second
        some ((min, some max), rest)
    | rest => some ((min, some min), rest)
  match rest with
  | '}' :: rest => if bounds.2.all (min ≤ ·) then some (bounds, skip blanks rest) else none
  | _ => none

/-- Drops the mark of a repetition that prefers to be short. -/
def dropLazyMark : Input → Input
  | '?' :: rest => rest
  | rest => rest

/-! ## Expressions -/

/-- A group that is still open: what was read before it. -/
structure Frame where
  items : List Expr
  branches : List Expr
  blanks : Bool
  flags : List FlagItem

/-- How far an expression has been read. -/
structure State where
  items : List Expr := []
  branches : List Expr := []
  blanks : Bool := false
  frames : List Frame := []
  names : List String := []

namespace State

/-- The items of the current branch as one expression. -/
def branch (state : State) : Expr :=
  match state.items with
  | [] => .empty
  | [item] => item
  | items => .concat items.reverse

/-- All branches of the current group as one expression. -/
def body (state : State) : Expr :=
  match state.branches with
  | [] => state.branch
  | branches => .alternation (state.branch :: branches).reverse

def push (state : State) (item : Expr) : State := { state with items := item :: state.items }

/-- Repeats the last item, if there is one that can be repeated. -/
def repeatLast (state : State) (min : Nat) (max : Option Nat) : Option State :=
  match state.items with
  | [] | .flags _ :: _ => none
  | item :: items => some { state with items := .repetition min max item :: items }

def start (state : State) : Opening → Option State
  | .flags items =>
    some { state.push (.flags items) with
      blanks := (Flag.skipBlanks.state? items).getD state.blanks }
  | .group name flags =>
    let taken := name.any state.names.contains
    if taken then none
    else some {
      frames := ⟨state.items, state.branches, state.blanks, flags⟩ :: state.frames
      blanks := (Flag.skipBlanks.state? flags).getD state.blanks
      names := name.toList ++ state.names }

def close (state : State) : Option State :=
  match state.frames with
  | [] => none
  | frame :: frames => some {
      items := .group frame.flags state.body :: frame.items
      branches := frame.branches
      blanks := frame.blanks
      frames := frames
      names := state.names }

def step (state : State) (c : Char) (rest : Input) : Option (State × Input) :=
  match c with
  | '(' => do
    let (opening, rest) ← readOpening state.blanks rest
    let state ← state.start opening
    some (state, rest)
  | ')' => state.close.map (·, rest)
  | '|' => some ({ state with items := [], branches := state.branch :: state.branches }, rest)
  | '[' => do
    let (negated, first, rest) ← openClass state.blanks rest
    let (negated, body, rest) ←
      readClass state.blanks (rest.length + 1) [.opened [] negated] first rest
    some (state.push (.bracketed negated body), rest)
  | '?' => (state.repeatLast 0 (some 1)).map (·, dropLazyMark rest)
  | '*' => (state.repeatLast 0 none).map (·, dropLazyMark rest)
  | '+' => (state.repeatLast 1 none).map (·, dropLazyMark rest)
  | '{' => do
    let ((min, max), rest) ← readBounds state.blanks rest
    let state ← state.repeatLast min max
    some (state, dropLazyMark rest)
  | '\\' => do
    let (atom, rest) ← readEscape state.blanks rest
    let item := match atom with
      | .literal c => .literal c
      | .assertion => .assertion
      | .shorthand wordChars negated => .shorthand wordChars negated
      | .property query => .property query
    some (state.push item, rest)
  | '.' => some (state.push .dot, rest)
  | '^' | '$' => some (state.push .assertion, rest)
  | c => some (state.push (.literal ⟨c, false⟩), rest)

/-- Reads items up to the end of the text, in at most `limit` steps. -/
def run : (limit : Nat) → State → Input → Option State
  | limit, state, cs =>
    match limit, skip state.blanks cs with
    | _, [] => some state
    | 0, _ => none
    | limit + 1, c :: rest =>
      match state.step c rest with
      | some (state, rest) => run limit state rest
      | none => none

end State

/-- The expression that a text stands for, if it stands for one. -/
def Expr.read? (text : String) : Option Expr :=
  match State.run text.length {} text.toList with
  | some state => if state.frames.isEmpty then some state.body else none
  | none => none

end TypeCatalog.Pattern
