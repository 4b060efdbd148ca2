import NotebookTree.Toml.Quoted
import NotebookTree.Toml.Word

/-!
# Lines of TOML

A TOML text is a sequence of statements, each on lines of its own: headers of tables, and
assignments of values to keys. `Toml.statements?` reads them. Arrays and tables between braces nest
less than 80 levels, and a key has less than 80 parts.
-/

namespace NotebookTree.Toml

/-- A key: its last part, and the tables before it. -/
structure Key where
  parents : List String
  name : String
  deriving DecidableEq, Inhabited

/-- A line of a TOML text. -/
inductive Statement where
  /-- A line without contents. -/
  | blank
  /-- The header of a table. -/
  | header (key : Key)
  /-- The header of a further table in an array of tables. -/
  | elementHeader (key : Key)
  | assignment (key : Key) (value : Toml)
  deriving Inhabited

/-- One more than the greatest depth of values and number of parts of a key. -/
def depthLimit : Nat := 80

/-! ## Blanks and line ends -/

/-- Skips spaces and tabs. -/
def skipIndent (chars : List Char) : List Char := chars.dropWhile Text.isIndent

/-- Skips blanks, line ends and comments. -/
def skipGap (inComment : Bool) : List Char → List Char
  | [] => []
  | '\n' :: rest => skipGap false rest
  | '\r' :: '\n' :: rest => skipGap false rest
  | c :: rest =>
    if inComment then (if isTextChar c then skipGap true rest else c :: rest)
    else if Text.isIndent c then skipGap false rest
    else if c = '#' then skipGap true rest
    else c :: rest

/-- Skips a comment, if there is one. -/
def skipComment : List Char → List Char
  | '#' :: rest => rest.dropWhile isTextChar
  | chars => chars

/-- Skips the end of a line, after blanks and a comment. -/
def skipLineEnd? (chars : List Char) : Option (List Char) :=
  match skipComment (skipIndent chars) with
  | [] => some []
  | '\n' :: rest => some rest
  | '\r' :: '\n' :: rest => some rest
  | _ => none

/-! ## Keys -/

/-- The characters of parts of keys without quotes. -/
def isKeyChar (c : Char) : Bool :=
  Text.isAsciiAlphanum c || c == '_' || c == '-'

/-- Reads one part of a key. -/
def keyPart? : List Char → Option (String × List Char)
  | '"' :: rest => (basicText? rest).map fun (text, rest) ↦ (String.ofList text, rest)
  | '\x27' :: rest => (literalText? rest).map fun (text, rest) ↦ (String.ofList text, rest)
  | chars =>
    let part := chars.takeWhile isKeyChar
    if part.isEmpty then none else some (String.ofList part, chars.dropWhile isKeyChar)

/-- Reads the parts of a key, at most as many as the fuel. Blanks may stand around each. -/
def key? : Nat → List Char → Option (Key × List Char)
  | 0, _ => none
  | fuel + 1, chars => do
    let (part, rest) ← keyPart? (skipIndent chars)
    match skipIndent rest with
    | '.' :: rest => do
      let (key, rest) ← key? fuel rest
      return (⟨part :: key.parents, key.name⟩, rest)
    | rest => return (⟨[], part⟩, rest)

/-! ## Assigning to keys -/

/-- Changes the entries of the table at a path, which starts in a table of the given origin. A
table that is missing is made by the dots of a key or implied by a header. Of an array of tables
the last one counts. The dots of a key do not lead into a table with a header. -/
def within? (dotted : Bool) (change : Origin → Entries → Option Entries) :
    Origin → List String → Entries → Option Entries
  | origin, [], entries => change origin entries
  | _, key :: path, entries =>
    match entries.lookup key with
    | none => do
      let origin : Origin := if dotted then .dotted else .implied
      return entries.set key (table origin (← within? dotted change origin path []))
    | some (table origin inner) =>
      if origin = .inline || (dotted && origin = .header) then none
      else do return entries.set key (table origin (← within? dotted change origin path inner))
    | some (tables items) => do
      let last ← within? dotted change .header path (items.getLast?.getD [])
      return entries.set key (tables (items.dropLast ++ [last]))
    | some _ => none

/-- Assigns a value to a key, which must be new. A table before the last dot must have been made by
the dots of keys. -/
def assign? (entries : Entries) (key : Key) (value : Toml) : Option Entries :=
  within? true
    (fun origin inner ↦
      if (!key.parents.isEmpty && origin != .dotted) || (inner.lookup key.name).isSome then none
      else some (inner ++ [(key.name, value)]))
    .header key.parents entries

/-- Assigns values to keys one after the other. -/
def assignAll? (entries : Entries) (assignments : List (Key × Toml)) : Option Entries :=
  assignments.foldlM (fun entries a ↦ assign? entries a.1 a.2) entries

/-! ## Values -/

/-- Reads a word. A time may follow a date after a space. -/
def word? (chars : List Char) : Option (Toml × List Char) :=
  let word := chars.takeWhile isWordChar
  let rest := chars.dropWhile isWordChar
  match rest with
  | ' ' :: c :: more =>
    if isDate word && c.isDigit then
      (ofWord? (word ++ ' ' :: (c :: more).takeWhile isWordChar)).map
        (·, (c :: more).dropWhile isWordChar)
    else (ofWord? word).map (·, rest)
  | _ => (ofWord? word).map (·, rest)

mutual

/-- Reads a value that may hold `depth` levels of arrays and tables. -/
def value? : Nat → Nat → List Char → Option (Toml × List Char)
  | 0, _, _ => none
  | fuel + 1, depth, chars =>
    match chars with
    | '[' :: rest => do
      guard (depth ≠ 0)
      let (items, rest) ← items? fuel (depth - 1) rest
      return (array items, rest)
    | '\x7b' :: rest => do
      guard (depth ≠ 0)
      let (assignments, rest) ← match skipIndent rest with
        | '\x7d' :: rest => some ([], rest)
        | rest => assignments? fuel (depth - 1) rest
      return (table .inline (← assignAll? [] assignments), rest)
    | '"' :: _ | '\x27' :: _ => do
      let (text, rest) ← quotedText? chars
      return (string (String.ofList text), rest)
    | _ => word? chars

/-- Reads the items of an array and its end. -/
def items? : Nat → Nat → List Char → Option (List Toml × List Char)
  | 0, _, _ => none
  | fuel + 1, depth, chars =>
    match skipGap false chars with
    | ']' :: rest => some ([], rest)
    | chars => do
      let (item, rest) ← value? fuel depth chars
      match skipGap false rest with
      | ']' :: rest => return ([item], rest)
      | ',' :: rest => do
        let (items, rest) ← items? fuel depth rest
        return (item :: items, rest)
      | _ => none

/-- Reads the assignments of a table between braces, of which there is at least one, and its end. -/
def assignments? : Nat → Nat → List Char → Option (List (Key × Toml) × List Char)
  | 0, _, _ => none
  | fuel + 1, depth, chars => do
    let (key, rest) ← key? (depthLimit - 1) chars
    let rest ← Text.dropStart? ['='] rest
    let (value, rest) ← value? fuel depth (skipIndent rest)
    match skipIndent rest with
    | '\x7d' :: rest => return ([(key, value)], rest)
    | ',' :: rest => do
      let (assignments, rest) ← assignments? fuel depth rest
      return ((key, value) :: assignments, rest)
    | _ => none

end

/-! ## Statements -/

/-- Reads a statement, which starts a line. -/
def statement? (chars : List Char) : Option (Statement × List Char) :=
  match skipIndent chars with
  | '[' :: '[' :: rest => do
    let (key, rest) ← key? (depthLimit - 1) rest
    let rest ← Text.dropStart? [']', ']'] rest >>= skipLineEnd?
    return (.elementHeader key, rest)
  | '[' :: rest => do
    let (key, rest) ← key? (depthLimit - 1) rest
    let rest ← Text.dropStart? [']'] rest >>= skipLineEnd?
    return (.header key, rest)
  | rest =>
    match skipLineEnd? rest with
    | some rest => some (.blank, rest)
    | none => do
      let (key, rest) ← key? (depthLimit - 1) rest
      let rest ← Text.dropStart? ['='] rest
      let (value, rest) ← value? (2 * chars.length + 2) (depthLimit - 1) (skipIndent rest)
      return (.assignment key value, ← skipLineEnd? rest)

/-- Reads statements up to the end of the text. -/
def statementsWithin? : Nat → List Char → Option (List Statement)
  | _, [] => some []
  | 0, _ :: _ => none
  | fuel + 1, chars => do
    let (statement, rest) ← statement? chars
    let statements ← statementsWithin? fuel rest
    return statement :: statements

/-- The statements of a text. Each takes at least one character. -/
def statements? (chars : List Char) : Option (List Statement) :=
  statementsWithin? chars.length chars

end NotebookTree.Toml
