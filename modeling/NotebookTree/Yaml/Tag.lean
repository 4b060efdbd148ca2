import NotebookTree.Yaml.Cursor

/-!
# Tags and directives

A tag is a handle with a suffix, or a whole name in angle brackets. A directive at the start of a
document gives the version of YAML or a meaning to a handle. In names a percent sign starts an
octet in hexadecimal, and octets are read as UTF-8. A name may hold the octets of a code point that
is no character; such a name stays without meaning.
-/

namespace NotebookTree.Yaml

/-- The code points of a name. Nothing stands for one that is no character. -/
abbrev TagName := List (Option Char)

namespace TagName

/-- The name that is written with the given characters. -/
def ofText (text : String) : TagName := text.toList.map some

/-- The text of a name, if all its code points are characters. -/
def text? (name : TagName) : Option String :=
  (name.mapM id).map String.ofList

/-- Is it a name of the document's own, which starts with an exclamation mark? -/
def isOwn (name : TagName) : Bool :=
  name.head? == some (some '!')

end TagName

/-- A tag as it is written. The handle is empty if the suffix is the whole name. -/
structure TagText where
  handle : String
  suffix : TagName
  deriving DecidableEq, Inhabited

/-- A directive at the start of a document. -/
inductive Directive where
  | version (major minor : Nat)
  | handle (name : String) (start : TagName)
  deriving DecidableEq, Inhabited

/-! ## Names -/

/-- The characters of the name of a tag. -/
def isTagChar (c : Char) : Bool :=
  isNameChar c || ";/?:@&=+$.%!~*\x27()".contains c

/-- The further characters of a name in angle brackets or of a directive. -/
def isFlowTagChar (c : Char) : Bool :=
  c == ',' || c == '[' || c == ']'

/-- Reads an octet at its percent sign. -/
def octet? (c : Cursor) : Option (Nat × Cursor) := do
  guard (c.has 0 '%')
  let high ← c.peek? 1 >>= Text.digitValue? 16
  let low ← c.peek? 2 >>= Text.digitValue? 16
  return (high * 16 + low, c.skip 3)

/-- Reads octets that continue a character. -/
def moreOctets? : Nat → Nat → Cursor → Option (Nat × Cursor)
  | 0, value, c => some (value, c)
  | count + 1, value, c =>
    match octet? c with
    | none => none
    | some (octet, c) =>
      if octet / 64 = 2 then moreOctets? count (value * 64 + octet % 64) c else none

/-- Reads the octets of a code point. Nothing stands for one that is written with more octets than
it needs, or that is no character. -/
def octets? (c : Cursor) : Option (Option Char × Cursor) := do
  let (first, c) ← octet? c
  let (count, least, value) ←
    if first < 0x80 then some (0, 0, first)
    else if first / 32 = 6 then some (1, 0x80, first % 32)
    else if first / 16 = 14 then some (2, 0x800, first % 16)
    else if first / 8 = 30 then some (3, 0x10000, first % 8)
    else none
  let (value, c) ← moreOctets? count value c
  let char := if least ≤ value && Nat.isValidChar value then some (Char.ofNat value) else none
  return (char, c)

/-- Reads the code points of a name. -/
def tagChars? (inFlow : Bool) : Nat → Cursor → Option (TagName × Cursor)
  | 0, c => some ([], c)
  | fuel + 1, c =>
    match c.rest with
    | [] => some ([], c)
    | char :: _ =>
      if char = '%' then do
        let (char, c) ← octets? c
        let (chars, c) ← tagChars? inFlow fuel c
        return (char :: chars, c)
      else if isTagChar char || (inFlow && isFlowTagChar char) then do
        let (chars, c) ← tagChars? inFlow fuel (c.skip 1)
        return (some char :: chars, c)
      else some ([], c)

/-- A null character ends a name. -/
def untilNull (name : TagName) : TagName :=
  name.takeWhile (· != some '\x00')

/-- Reads a name that is not empty. -/
def tagName? (inFlow : Bool) (c : Cursor) : Option (TagName × Cursor) := do
  let (chars, c) ← tagChars? inFlow (c.rest.length + 1) c
  guard (!chars.isEmpty)
  return (untilNull chars, c)

/-! ## Tags -/

/-- Takes a handle at its exclamation mark: its characters, and whether a second exclamation mark
ends it. -/
def handleChars (c : Cursor) : List Char × Bool × Cursor :=
  let (name, c) := (c.skip 1).takeWhile isNameChar
  if c.has 0 '!' then ('!' :: name ++ ['!'], true, c.skip 1) else ('!' :: name, false, c)

/-- Reads a tag at its exclamation mark. -/
def tag? (inFlow : Bool) (c : Cursor) : Option (TagText × Cursor) := do
  let (tag, c) ←
    if c.has 1 '<' then do
      let (name, c) ← tagName? true (c.skip 2)
      guard (c.has 0 '>')
      some ((⟨"", name⟩ : TagText), c.skip 1)
    else do
      let (handle, complete, c) := handleChars c
      if complete then
        let (suffix, c) ← tagName? false c
        some (⟨String.ofList handle, suffix⟩, c)
      else
        let (chars, c) ← tagChars? false (c.rest.length + 1) c
        let suffix := untilNull (handle.tail.map some ++ chars)
        if suffix.isEmpty then some (⟨"", [some '!']⟩, c) else some (⟨"!", suffix⟩, c)
  guard (c.atGap 0 || (inFlow && c.has 0 ','))
  return (tag, c)

/-! ## Directives -/

/-- Reads a number of at most nine digits. -/
def versionNumber? (c : Cursor) : Option (Nat × Cursor) := do
  let (digits, c) := c.takeWhile Char.isDigit
  guard (!digits.isEmpty && digits.length ≤ 9)
  return (Text.ofDigits 10 digits, c)

/-- Reads a directive at its percent sign, with the rest of its line. -/
def directive? (c : Cursor) : Option (Directive × Cursor) := do
  let (name, c) := (c.skip 1).takeWhile isNameChar
  guard (c.atGap 0)
  let c := c.skipWhile isBlank
  let (directive, c) ←
    if name = "YAML".toList then do
      let (major, c) ← versionNumber? c
      guard (c.has 0 '.')
      let (minor, c) ← versionNumber? (c.skip 1)
      some (Directive.version major minor, c)
    else if name = "TAG".toList then do
      guard (c.has 0 '!')
      let (handle, complete, c) := handleChars c
      guard (complete || handle.length = 1)
      guard (c.any 0 isBlank)
      let (start, c) ← tagName? true (c.skipWhile isBlank)
      guard (c.atGap 0)
      some (.handle (String.ofList handle) start, c)
    else none
  return (directive, ← c.endLine?)

end NotebookTree.Yaml
