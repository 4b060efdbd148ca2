import NotebookTree.Yaml.Scalar
import NotebookTree.Yaml.Tag

/-!
# Tokens of a YAML text

`Token.readAll?` cuts a YAML text into tokens. Indentation becomes tokens that open and close block
collections. A key of a mapping is only known as such by the colon after it; until then the place
where it may start is remembered, and the tokens that announce it are put in there later. Such a
key stands on one line and has at most 1024 characters.
-/

namespace NotebookTree.Yaml

/-- A token of a YAML text. -/
inductive Token where
  | directive (value : Directive)
  | documentStart
  | documentEnd
  | blockSequenceStart
  | blockMappingStart
  | blockEnd
  | flowSequenceStart
  | flowSequenceEnd
  | flowMappingStart
  | flowMappingEnd
  | blockEntry
  | flowEntry
  | key
  | value
  | reference (name : String)
  | anchor (name : String)
  | tag (text : TagText)
  | scalar (text : String) (plain : Bool)
  deriving DecidableEq, Inhabited

namespace Token

/-- The place where a key may start. -/
structure KeyStart where
  /-- Must a key start there? -/
  required : Bool
  /-- The number of tokens before it. -/
  number : Nat
  index : Nat
  line : Nat
  column : Nat

/-- The state of cutting a text into tokens. -/
structure Scanner where
  cursor : Cursor
  /-- The tokens so far, the latest first, and their number. -/
  tokens : List Token
  count : Nat
  /-- The column of the innermost block collection, and those of the ones around it. -/
  indent : Option Nat
  outerIndents : List (Option Nat)
  /-- May a key start here? -/
  keyAllowed : Bool
  /-- The start of a key in the innermost flow collection, and those in the ones around it. -/
  keyStart : Option KeyStart
  outerKeyStarts : List (Option KeyStart)

namespace Scanner

/-- The start of a text. -/
def ofText (text : List Char) : Scanner :=
  ⟨Cursor.ofText text, [], 0, none, [], true, none, []⟩

/-- Is the scanner inside a flow collection? -/
def inFlow (s : Scanner) : Bool := !s.outerKeyStarts.isEmpty

/-- Adds a token. -/
def add (s : Scanner) (token : Token) : Scanner :=
  { s with tokens := token :: s.tokens, count := s.count + 1 }

/-- Adds a token behind the first `number` ones. -/
def insert (s : Scanner) (number : Nat) (token : Token) : Scanner :=
  let later := s.count - number
  { s with tokens := s.tokens.take later ++ token :: s.tokens.drop later, count := s.count + 1 }

/-- Adds a token for the next characters. -/
def addSkip (s : Scanner) (token : Token) (n : Nat) : Scanner :=
  { s.add token with cursor := s.cursor.skip n }

/-! ## Indentation -/

/-- Is a block collection indented by more than the given column, where no column is less than
any? -/
def deeper (indent column : Option Nat) : Bool :=
  match indent, column with
  | none, _ => false
  | some _, none => true
  | some i, some c => c < i

/-- Closes the block collections that are indented by more than the given column. -/
def unroll (s : Scanner) (column : Option Nat) : Nat → Scanner
  | 0 => s
  | fuel + 1 =>
    if s.inFlow || !deeper s.indent column then s
    else
      { s.add .blockEnd with
        indent := s.outerIndents.head?.getD none
        outerIndents := s.outerIndents.tail }.unroll column fuel

/-- Closes all block collections that end here. -/
def unrollTo (s : Scanner) (column : Option Nat) : Scanner :=
  s.unroll column (s.outerIndents.length + 1)

/-- Opens a block collection behind the first `number` tokens if the column is deeper than the
innermost one. -/
def roll (s : Scanner) (column number : Nat) (token : Token) : Scanner :=
  if s.inFlow || !deeper (some column) s.indent then s
  else
    { s.insert number token with
      indent := some column
      outerIndents := s.indent :: s.outerIndents }

/-! ## Keys -/

/-- The longest key in characters. -/
def maxKeyLength : Nat := 1024

/-- Gives up the start of a key that can no longer be one. Nothing if it has to be one. -/
def expire? (c : Cursor) : Option KeyStart → Option (Option KeyStart)
  | none => some none
  | some k =>
    if k.line < c.line || k.index + maxKeyLength < c.index then
      if k.required then none else some none
    else some (some k)

/-- Gives up the starts of keys that can no longer be one. -/
def expireAll? (s : Scanner) : Option Scanner := do
  let keyStart ← expire? s.cursor s.keyStart
  let outerKeyStarts ← s.outerKeyStarts.mapM (expire? s.cursor)
  return { s with keyStart, outerKeyStarts }

/-- Gives up the start of a key in the innermost flow collection. -/
def dropKeyStart? (s : Scanner) : Option Scanner :=
  match s.keyStart with
  | none => some s
  | some k => if k.required then none else some { s with keyStart := none }

/-- Remembers that a key may start here. -/
def noteKeyStart? (s : Scanner) : Option Scanner :=
  if !s.keyAllowed then some s
  else do
    let s ← s.dropKeyStart?
    let c := s.cursor
    let required := !s.inFlow && s.indent == some c.column
    return { s with keyStart := some ⟨required, s.count, c.index, c.line, c.column⟩ }

/-! ## Tokens -/

/-- Skips blanks, comments and line breaks. A byte order mark at the start of a line counts as a
column, but is no character of the text. -/
def skipGaps (s : Scanner) : Nat → Scanner
  | 0 => s
  | fuel + 1 =>
    let c := if s.cursor.column = 0 && s.cursor.has 0 '\ufeff' then s.cursor.skip 1 else s.cursor
    let tabs := s.inFlow || !s.keyAllowed
    let c := (c.skipWhile fun char ↦ char == ' ' || (tabs && char == '\t')).skipComment
    if c.any 0 isBreak then
      { s with cursor := c.takeBreak.2, keyAllowed := s.keyAllowed || !s.inFlow }.skipGaps fuel
    else { s with cursor := c }

/-- Reads the mark of the start or the end of a document. -/
def documentMarker? (s : Scanner) (token : Token) : Option Scanner := do
  let s ← (s.unrollTo none).dropKeyStart?
  return { s with keyAllowed := false }.addSkip token 3

/-- Reads a directive. -/
def directive? (s : Scanner) : Option Scanner := do
  let s ← (s.unrollTo none).dropKeyStart?
  let (found, cursor) ← Yaml.directive? s.cursor
  return { s with keyAllowed := false, cursor }.add (.directive found)

/-- Opens a flow collection. -/
def openFlow? (s : Scanner) (token : Token) : Option Scanner := do
  let s ← s.noteKeyStart?
  return { s with
    keyAllowed := true
    keyStart := none
    outerKeyStarts := s.keyStart :: s.outerKeyStarts }.addSkip token 1

/-- Closes a flow collection. -/
def closeFlow? (s : Scanner) (token : Token) : Option Scanner := do
  let s ← s.dropKeyStart?
  return { s with
    keyAllowed := false
    keyStart := s.outerKeyStarts.head?.getD none
    outerKeyStarts := s.outerKeyStarts.tail }.addSkip token 1

/-- Reads the comma in a flow collection. -/
def comma? (s : Scanner) : Option Scanner := do
  let s ← s.dropKeyStart?
  return { s with keyAllowed := true }.addSkip .flowEntry 1

/-- Reads the dash of an entry. -/
def dash? (s : Scanner) : Option Scanner := do
  guard (s.inFlow || s.keyAllowed)
  let s ← (s.roll s.cursor.column s.count .blockSequenceStart).dropKeyStart?
  return { s with keyAllowed := true }.addSkip .blockEntry 1

/-- Reads the question mark of a key. -/
def key? (s : Scanner) : Option Scanner := do
  guard (s.inFlow || s.keyAllowed)
  let s ← (s.roll s.cursor.column s.count .blockMappingStart).dropKeyStart?
  return { s with keyAllowed := !s.inFlow }.addSkip .key 1

/-- Reads the colon before a value, which may turn what stands before it into a key. -/
def value? (s : Scanner) : Option Scanner :=
  match s.keyStart with
  | some k =>
    let s := (s.insert k.number .key).roll k.column k.number .blockMappingStart
    some ({ s with keyStart := none, keyAllowed := false }.addSkip .value 1)
  | none => do
    guard (s.inFlow || s.keyAllowed)
    let s := s.roll s.cursor.column s.count .blockMappingStart
    return { s with keyAllowed := !s.inFlow }.addSkip .value 1

/-- Reads the name of an anchor or alias. -/
def name? (s : Scanner) (token : String → Token) : Option Scanner := do
  let s ← s.noteKeyStart?
  let (name, cursor) := (s.cursor.skip 1).takeWhile isNameChar
  guard (!name.isEmpty && (cursor.atGap 0 || cursor.any 0 fun c ↦ "?:,]\x7d%@\x60".contains c))
  return { s with keyAllowed := false, cursor }.add (token (String.ofList name))

/-- Reads a tag. -/
def tag? (s : Scanner) : Option Scanner := do
  let s ← s.noteKeyStart?
  let (text, cursor) ← Yaml.tag? s.inFlow s.cursor
  return { s with keyAllowed := false, cursor }.add (.tag text)

/-- Reads a block scalar. -/
def blockScalar? (s : Scanner) (literal : Bool) : Option Scanner := do
  let s ← s.dropKeyStart?
  let (text, cursor) ← Yaml.blockScalar? literal (s.indent.getD 0) (s.cursor.skip 1)
  return { s with keyAllowed := true, cursor }.add (.scalar text false)

/-- Reads a quoted scalar. -/
def quotedScalar? (s : Scanner) (quote : Char) : Option Scanner := do
  let s ← s.noteKeyStart?
  let (text, cursor) ← Yaml.quotedScalar? quote (s.cursor.skip 1)
  return { s with keyAllowed := false, cursor }.add (.scalar text false)

/-- Reads a plain scalar. After one that ends in a line break a key may start. -/
def plainScalar? (s : Scanner) : Option Scanner := do
  let s ← s.noteKeyStart?
  let (text, cursor, broken) ← Yaml.plainScalar? s.inFlow (s.indent.elim 0 (· + 1)) s.cursor
  return { s with keyAllowed := broken, cursor }.add (.scalar text true)

/-- The characters that no plain scalar starts with, unless some go on without a gap. -/
def isIndicator (c : Char) : Bool :=
  "-?:,[]\x7b\x7d#&*!|>\x27\"%@\x60".contains c

/-- May a plain scalar start here? -/
def atPlainScalar (s : Scanner) (char : Char) : Bool :=
  let c := s.cursor
  !(c.atGap 0 || isIndicator char) ||
    (char == '-' && !c.any 1 isBlank) ||
    (!s.inFlow && (char == '?' || char == ':') && !c.atGap 1)

/-- Reads the token that starts with the given character here. -/
def token? (s : Scanner) (char : Char) : Option Scanner :=
  let c := s.cursor
  if c.column = 0 && char = '%' then s.directive?
  else if c.atMarker '-' then s.documentMarker? .documentStart
  else if c.atMarker '.' then s.documentMarker? .documentEnd
  else if char = '[' then s.openFlow? .flowSequenceStart
  else if char = '\x7b' then s.openFlow? .flowMappingStart
  else if char = ']' then s.closeFlow? .flowSequenceEnd
  else if char = '\x7d' then s.closeFlow? .flowMappingEnd
  else if char = ',' then s.comma?
  else if char = '-' && c.atGap 1 then s.dash?
  else if char = '?' && (s.inFlow || c.atGap 1) then s.key?
  else if char = ':' && (s.inFlow || c.atGap 1) then s.value?
  else if char = '*' then s.name? .reference
  else if char = '&' then s.name? .anchor
  else if char = '!' then s.tag?
  else if char = '|' && !s.inFlow then s.blockScalar? true
  else if char = '>' && !s.inFlow then s.blockScalar? false
  else if char = '\x27' ∨ char = '"' then s.quotedScalar? char
  else if s.atPlainScalar char then s.plainScalar?
  else none

/-- Reads all tokens. -/
def run? : Nat → Scanner → Option Scanner
  | 0, _ => none
  | fuel + 1, s =>
    match (s.skipGaps (s.cursor.rest.length + 1)).expireAll? with
    | none => none
    | some s =>
      let s := s.unrollTo (some s.cursor.column)
      match s.cursor.rest with
      | [] => (s.unrollTo none).dropKeyStart?
      | char :: _ =>
        match s.token? char with
        | none => none
        | some s => run? fuel s

end Scanner

/-- The tokens of a text. -/
def readAll? (text : List Char) : Option (List Token) := do
  guard (text.all isAllowed)
  let s ← (Scanner.ofText text).run? (text.length + 2)
  return s.tokens.reverse

end Token

end NotebookTree.Yaml
