import NotebookTree.Markdown.Container

/-!
# Raw markup in Markdown

Scans for the pieces of HTML that Markdown passes through: a tag, comment, processing instruction,
declaration or section of character data inside a text, and the starts of blocks of markup. A tag
inside a text may span lines, whose container marks are left out of it; a tag that opens a block
stands on one line.
-/

namespace NotebookTree.Markdown.Source

/-! ## Tags -/

/-- How to go on after a line end inside a tag: the position after the container marks of the next
line. Nothing if a tag may not span lines. -/
abbrev LineHandler := Option (Nat → Nat)

/-- A position inside a tag. The text before `mark` is collected already, the latest piece first,
if marks have been left out. -/
structure TagScan where
  position : Nat
  mark : Nat
  pieces : List String

/-- Goes over a line end to the next line. -/
def TagScan.nextLine? (t : TagScan) (s : Source) (handler : LineHandler) (after : Nat) :
    Option TagScan := do
  let skipMarks ← handler
  let next := skipMarks after
  if next = after then return { t with position := after }
  else return ⟨next, next, s.slice t.mark after :: t.pieces⟩

/-- Skips white space and line ends. -/
def TagScan.skipBlank? (t : TagScan) (s : Source) (handler : LineHandler) : Nat → Option TagScan
  | 0 => some t
  | fuel + 1 =>
    let i := s.skipSpace t.position
    match s[i]?, s.lineEnd? i with
    | none, _ => none
    | some _, none => some { t with position := i }
    | some _, some j =>
      match { t with position := i }.nextLine? s handler j with
      | none => none
      | some t => t.skipBlank? s handler fuel

/-- Skips a quoted attribute value up to its closing quote. -/
def TagScan.skipQuoted? (t : TagScan) (s : Source) (handler : LineHandler) (quote : Char) :
    Nat → Option TagScan
  | 0 => none
  | fuel + 1 =>
    match s[t.position]? with
    | none => none
    | some c =>
      if c = quote then some { t with position := t.position + 1 }
      else if Text.isLineEnd c then
        match s.lineEnd? t.position with
        | none => none
        | some j =>
          match t.nextLine? s handler j with
          | none => none
          | some t => t.skipQuoted? s handler quote fuel
      else { t with position := t.position + 1 }.skipQuoted? s handler quote fuel

/-- The characters of an unquoted attribute value. -/
def isBareValue (c : Char) : Bool :=
  !(c == '\x27' || c == '"' || c == ' ' || c == '=' || c == '>' || c == '<' || c == '\x60' ||
    c == '\n' || c == '\r')

/-- Skips an attribute value. -/
def TagScan.skipValue? (t : TagScan) (s : Source) (handler : LineHandler) : Option TagScan :=
  match s[t.position]? with
  | none => none
  | some c =>
    if c = '"' ∨ c = '\x27' then
      { t with position := t.position + 1 }.skipQuoted? s handler c (s.size + 1)
    else if isBareValue c then some { t with position := s.skip isBareValue t.position }
    else none

/-- Skips an attribute with its value, if it has one. -/
def TagScan.skipAttribute? (t : TagScan) (s : Source) (handler : LineHandler) : Option TagScan := do
  let first ← s[t.position]?
  guard (first.isAlpha || first == '_' || first == ':')
  let inName (c : Char) : Bool :=
    Text.isAsciiAlphanum c || c == '_' || c == '.' || c == ':' || c == '-'
  let named := { t with position := s.skip inName t.position }
  let spaced ← named.skipBlank? s handler (s.size + 1)
  if s.has spaced.position '=' then
    let t ← { spaced with position := spaced.position + 1 }.skipBlank? s handler (s.size + 1)
    t.skipValue? s handler
  else return named

/-- Skips the attributes of an opening tag, each of which needs white space before it. -/
def TagScan.skipAttributes? (t : TagScan) (s : Source) (handler : LineHandler) :
    Nat → Option TagScan
  | 0 => none
  | fuel + 1 =>
    match t.skipBlank? s handler (s.size + 1) with
    | none => none
    | some next =>
      if s.has next.position '/' || s.has next.position '>' then some next
      else if next.position = t.position then none
      else
        match next.skipAttribute? s handler with
        | none => none
        | some t => t.skipAttributes? s handler fuel

/-- Reads a tag at its less-than sign: the position after it, and its text if that is not the
text between the positions. -/
def tag? (s : Source) (handler : LineHandler) (i : Nat) : Option (Nat × Option String) := do
  let closing := s.has (i + 1) '/'
  let nameStart := if closing then i + 2 else i + 1
  let first ← s[nameStart]?
  guard first.isAlpha
  let nameEnd := s.skip (fun c ↦ Text.isAsciiAlphanum c || c == '-') nameStart
  let t : TagScan := ⟨nameEnd, i, []⟩
  let t ← if closing then some t else t.skipAttributes? s handler (s.size + 1)
  let j := s.skipSpace t.position
  let j := if closing then j else s.skipChar j '/'
  guard (s.has j '>')
  if t.pieces.isEmpty then return (j + 1, none)
  else return (j + 1, some (String.join (s.slice t.mark (j + 1) :: t.pieces).reverse))

/-! ## Comments and the like -/

/-- Finds two or more dashes with a greater-than sign after them. -/
def commentEnd? (s : Source) : Nat → Nat → Option Nat
  | 0, _ => none
  | fuel + 1, i =>
    let dash := s.skip (· != '-') i
    if s.has (dash + 1) '-' then
      let last := s.skipRun (dash + 1) '-'
      if s.has last '>' then some (last + 1) else commentEnd? s fuel last
    else if dash < s.size then commentEnd? s fuel (dash + 1)
    else none

/-- Finds the end of a processing instruction. -/
def instructionEnd? (s : Source) : Nat → Nat → Option Nat
  | 0, _ => none
  | fuel + 1, i =>
    let mark := s.skip (· != '?') i
    if s.has (mark + 1) '>' then some (mark + 2)
    else if mark < s.size then instructionEnd? s fuel (mark + 1)
    else none

/-- Reads what starts with an exclamation mark at the position. -/
def markedDeclaration? (s : Source) (i : Nat) : Option Nat :=
  match s[i + 1]? with
  | some '-' => if s.has (i + 2) '-' then commentEnd? s (s.size + 1) (i + 1) else none
  | some '[' =>
    if s.hasAll (i + 2) "CDATA[".toList then
      let first := s.skip (· != ']') (i + 8)
      let last := s.skipRun first ']'
      if first < last && s.has last '>' then some (last + 1) else none
    else none
  | some c =>
    if c.isAlpha then
      let last := s.skip (· != '>') (i + 2)
      if s.has last '>' then some (last + 1) else none
    else none
  | none => none

/-- Reads raw markup inside a text, after its less-than sign: the position after it, and its text
if that is not the text between the positions. -/
def inlineMarkup? (s : Source) (skipMarks : Nat → Nat) (i : Nat) : Option (Nat × Option String) :=
  match s[i]? with
  | some '!' => (markedDeclaration? s i).map (·, none)
  | some '?' => (instructionEnd? s (s.size + 1) (i + 1)).map (·, none)
  | some _ => s.tag? (some skipMarks) (i - 1)
  | none => none

/-! ## Blocks of markup -/

/-- The text on whose line a block of markup ends that starts after the less-than sign at the
position before. -/
def htmlBlockEnd? (s : Source) (i : Nat) : Option String :=
  let named (name : String) : Bool :=
    s.hasAllAnyCase i name.toList &&
      match s[i + name.length]? with
      | none => true
      | some c => isSpaceOrEnd c || c == '>'
  if named "pre" then some "</pre>"
  else if named "style" then some "</style>"
  else if named "script" then some "</script>"
  else if named "textarea" then some "</textarea>"
  else if s.hasAll i "!--".toList then some "-->"
  else if s.has i '?' then some "?>"
  else if s.hasAll i "![CDATA[".toList then some "]]>"
  else if s.has i '!' && (s[i + 1]?.map Char.isAlpha).getD false then some ">"
  else none

/-- The tags that start a block of markup wherever they stand. -/
def htmlBlockTags : List String :=
  ["address", "article", "aside", "base", "basefont", "blockquote", "body", "caption", "center",
    "col", "colgroup", "dd", "details", "dialog", "dir", "div", "dl", "dt", "fieldset",
    "figcaption", "figure", "footer", "form", "frame", "frameset", "h1", "h2", "h3", "h4", "h5",
    "h6", "head", "header", "hr", "html", "iframe", "legend", "li", "link", "main", "menu",
    "menuitem", "nav", "noframes", "ol", "optgroup", "option", "p", "param", "search", "section",
    "summary", "table", "tbody", "td", "tfoot", "th", "thead", "title", "tr", "track", "ul"]

/-- Does a block tag stand after the less-than sign at the position before? -/
def startsBlockTag (s : Source) (i : Nat) : Bool :=
  let first := s.skipChar i '/'
  let last := s.skip Text.isAsciiAlphanum first
  Text.lowerAsciiString (s.slice first last) ∈ htmlBlockTags &&
    match s[last]? with
    | none => true
    | some c =>
      c == ' ' || c == '\t' || c == '\r' || c == '\n' || c == '>' || s.hasAll last ['/', '>']

/-- Does the less-than sign start a tag that is alone on its line? -/
def isLoneTag (s : Source) (i : Nat) : Bool :=
  match s.tag? none i with
  | some (j, _) => (s.blankLine? j).isSome
  | none => false

end NotebookTree.Markdown.Source
