import NotebookTree.Html.Entity
import NotebookTree.Text.Blank

/-!
# Tokens of HTML

`Token.read` takes the next tokens off a text. It is told how the text is to be read: as markup, or
as the content of an element that holds no markup, which ends only at the closing tag of that
element. A tag, comment or declaration that the text ends in is dropped.

Faults are tokens too where they may stand right before a line feed: a line feed at the start of
an element is dropped only if no fault comes before it.

The text is expected to have line feeds as its only line ends.
-/

namespace NotebookTree.Html

/-- A tag with its attributes in the order in which they are written, each name once. -/
structure Tag where
  name : String
  attributes : List (String × String)
  selfClosing : Bool
  deriving Inhabited

/-- A token of HTML. Characters are never an empty list and never hold a null character in
markup, where null characters are tokens of their own. -/
inductive Token where
  | startTag (tag : Tag)
  | endTag (name : String)
  | characters (text : List Char)
  | nullCharacter
  | comment
  | doctype
  /-- Something is written wrongly here, and stands for nothing. -/
  | fault
  deriving Inhabited

/-- How the text of an element is read. -/
inductive Reading where
  /-- Markup. -/
  | markup
  /-- Text with character references, up to a closing tag. -/
  | escapable (closing : String)
  /-- Text, up to a closing tag. -/
  | raw (closing : String)
  /-- A script, up to a closing tag outside a doubly escaped part. -/
  | script
  /-- Text to the end. -/
  | plain
  deriving Inhabited

namespace Token

/-- The blanks between the parts of a tag. -/
def isTagBlank (c : Char) : Bool :=
  c == ' ' || c == '\t' || c == '\n' || c == '\x0c'

/-- Does the character end a tag name? -/
def endsName (c : Char) : Bool :=
  isTagBlank c || c == '/' || c == '>'

/-- A null character becomes the replacement character. -/
def withoutNull (c : Char) : Char :=
  if c = '\x00' then Entity.replacement else c

/-! ## Character references -/

/-- The longest beginning of a run of letters and digits that is a name known without a semicolon,
with its characters and its length. At most `size` characters are looked at. -/
def longestName? (run : List Char) : Nat → Option (List Char × Nat)
  | 0 => none
  | size + 1 =>
    match Entity.unterminated? (String.ofList (run.take (size + 1))) with
    | some chars => some (chars, size + 1)
    | none => longestName? run size

/-- The character reference after an ampersand: its characters and the text after it. In an
attribute value, a name without a semicolon counts only if no letter, digit or equals sign
follows. -/
def reference? (inAttribute : Bool) (cs : List Char) : Option (List Char × List Char) :=
  let afterDigits (digits rest : List Char) (base : Nat) : Option (List Char × List Char) :=
    if digits.isEmpty then none
    else
      let rest := match rest with
        | ';' :: more => more
        | _ => rest
      some ([Entity.numbered (Text.ofDigits base digits)], rest)
  match cs with
  | '#' :: x :: rest =>
    if x = 'x' ∨ x = 'X' then
      let isHex (c : Char) : Bool := (Text.digitValue? 16 c).isSome
      afterDigits (rest.takeWhile isHex) (rest.dropWhile isHex) 16
    else
      let all := x :: rest
      afterDigits (all.takeWhile Char.isDigit) (all.dropWhile Char.isDigit) 10
  | _ =>
    let run := cs.takeWhile Text.isAsciiAlphanum
    let rest := cs.dropWhile Text.isAsciiAlphanum
    let terminated? : Option (List Char × List Char) :=
      match rest with
      | ';' :: more => (Entity.named? (String.ofList run)).map (·, more)
      | _ => none
    terminated?.orElse fun _ ↦
      -- No name that needs no semicolon is longer than six letters.
      (longestName? run (min run.length 6)).bind fun (chars, size) ↦
        let rest := cs.drop size
        let blocked := inAttribute && match rest with
          | c :: _ => c == '=' || Text.isAsciiAlphanum c
          | [] => false
        if blocked then none else some (chars, rest)

/-- Does the text start with a number that stands for a character and lacks its semicolon? -/
def startsFaulty (cs : List Char) : Bool :=
  let unterminated (base : Nat) (cs : List Char) : Bool :=
    let isDigit (c : Char) : Bool := (Text.digitValue? base c).isSome
    (cs.head?.map isDigit).getD false && (cs.dropWhile isDigit).head? != some ';'
  match cs with
  | '&' :: '#' :: x :: rest =>
    if x = 'x' ∨ x = 'X' then unterminated 16 rest else unterminated 10 (x :: rest)
  | _ => false

/-- Replaces the character references of a text. -/
def decode (inAttribute : Bool) : Nat → List Char → List Char
  | 0, cs => cs
  | _ + 1, [] => []
  | fuel + 1, c :: rest =>
    if c = '&' then
      match reference? inAttribute rest with
      | some (chars, rest) => chars ++ decode inAttribute fuel rest
      | none => c :: decode inAttribute fuel rest
    else c :: decode inAttribute fuel rest

/-- The text without its character references. -/
def decoded (inAttribute : Bool) (cs : List Char) : List Char :=
  decode inAttribute (cs.length + 1) cs

/-- The tokens of a text with character references. -/
def textTokens (cs : List Char) : List Token :=
  (if startsFaulty cs then [fault] else []) ++ [characters (decoded false cs)]

/-- The tokens of a text without character references, in which null characters stand alone. -/
def plainTokens (cs : List Char) : List Token :=
  (cs.splitBy fun a b ↦ a != '\x00' && b != '\x00').map fun
    | '\x00' :: _ => nullCharacter
    | run => characters run

/-! ## Tags -/

/-- Reads an attribute value after the equals sign: the value and the text after it. -/
def value? (cs : List Char) : Option (List Char × List Char) :=
  match cs.dropWhile isTagBlank with
  | [] => none
  | c :: rest =>
    if c = '"' ∨ c = '\x27' then
      match rest.dropWhile (· != c) with
      | [] => none
      | _ :: after => some (rest.takeWhile (· != c), after)
    else if c = '>' then some ([], c :: rest)
    else
      let goesOn (c : Char) : Bool := !(isTagBlank c || c == '>')
      some ((c :: rest).takeWhile goesOn, (c :: rest).dropWhile goesOn)

/-- Adds an attribute unless there is one of its name. -/
def addAttribute (attributes : List (String × String)) (name value : List Char) :
    List (String × String) :=
  let name := String.ofList (name.map fun c ↦ withoutNull (Text.lowerAscii c))
  let value := String.ofList ((decoded true value).map withoutNull)
  if attributes.any (·.1 == name) then attributes else attributes ++ [(name, value)]

/-- Reads the attributes of a tag and its end. Gives the attributes, the mark of a self-closing
tag and the text after the tag. -/
def attributes? : Nat → List (String × String) → List Char →
    Option (List (String × String) × Bool × List Char)
  | 0, _, _ => none
  | fuel + 1, before, cs =>
    match cs.dropWhile isTagBlank with
    | [] => none
    | '>' :: rest => some (before, false, rest)
    | '/' :: '>' :: rest => some (before, true, rest)
    | '/' :: rest => attributes? fuel before rest
    | first :: rest =>
      let goesOn (c : Char) : Bool := !(endsName c || c == '=')
      let name := first :: rest.takeWhile goesOn
      match (rest.dropWhile goesOn).dropWhile isTagBlank with
      | '=' :: rest => do
        let (value, rest) ← value? rest
        attributes? fuel (addAttribute before name value) rest
      | rest => attributes? fuel (addAttribute before name []) rest

/-- Reads a tag from its name on: the tag and the text after it. -/
def tag? (cs : List Char) : Option (Tag × List Char) := do
  let name := cs.takeWhile (!endsName ·)
  let (attributes, selfClosing, rest) ← attributes? (cs.length + 1) [] (cs.dropWhile (!endsName ·))
  let name := String.ofList (name.map fun c ↦ withoutNull (Text.lowerAscii c))
  return (⟨name, attributes, selfClosing⟩, rest)

/-! ## Comments and declarations -/

/-- The text after a comment. The number counts the dashes just before, and the mark says that an
exclamation mark stands after two of them. -/
def afterComment : Nat → Bool → List Char → List Char
  | _, _, [] => []
  | dashes, bang, c :: rest =>
    if c = '>' ∧ 2 ≤ dashes then rest
    else if c = '-' then afterComment (if bang then 1 else dashes + 1) false rest
    else if c = '!' ∧ 2 ≤ dashes ∧ !bang then afterComment dashes true rest
    else afterComment 0 false rest

/-- The text after the next greater-than sign. -/
def afterGreater (cs : List Char) : List Char :=
  (cs.dropWhile (· != '>')).drop 1

/-- The text of a section of character data, up to its end mark, and the text after it. -/
def characterData : List Char → List Char × List Char
  | [] => ([], [])
  | ']' :: ']' :: '>' :: rest => ([], rest)
  | c :: rest =>
    let (text, after) := characterData rest
    (c :: text, after)

/-- Reads what stands after `<!`. Character data is known only inside foreign elements. -/
def declaration (foreign : Bool) (cs : List Char) : List Token × List Char :=
  match cs with
  | '-' :: '-' :: '>' :: rest => ([.comment], rest)
  | '-' :: '-' :: '-' :: '>' :: rest => ([.comment], rest)
  | '-' :: '-' :: rest => ([.comment], afterComment 0 false rest)
  | _ =>
    match Text.dropStartAnyCase? "doctype".toList cs with
    | some rest => ([.doctype], afterGreater rest)
    | none =>
      match Text.dropStart? "[CDATA[".toList cs with
      | some rest =>
        if foreign then
          let (text, rest) := characterData rest
          (plainTokens text, rest)
        else ([.comment], afterGreater cs)
      | none => ([.comment], afterGreater cs)

/-! ## Markup -/

/-- Reads the next tokens of markup and the text after them. -/
def readMarkup (foreign : Bool) (cs : List Char) : List Token × List Char :=
  match cs with
  | [] => ([], [])
  | '\x00' :: rest => ([.nullCharacter], rest)
  | '<' :: '!' :: rest => declaration foreign rest
  | '<' :: '?' :: rest => ([.comment], afterGreater rest)
  | ['<', '/'] => ([.characters ['<', '/']], [])
  | '<' :: '/' :: c :: rest =>
    if c.isAlpha then
      match tag? (c :: rest) with
      | some (tag, rest) => ([.endTag tag.name], rest)
      | none => ([], [])
    else if c = '>' then ([.fault], rest)
    else ([.comment], afterGreater (c :: rest))
  | '<' :: c :: rest =>
    if c.isAlpha then
      match tag? (c :: rest) with
      | some (tag, rest) => ([.startTag tag], rest)
      | none => ([], [])
    else ([.characters ['<']], c :: rest)
  | c :: rest =>
    if c = '<' then ([.characters [c]], rest)
    else
      let goesOn (c : Char) : Bool := c != '<' && c != '\x00'
      (textTokens ((c :: rest).takeWhile goesOn), (c :: rest).dropWhile goesOn)

/-! ## Text of elements without markup -/

/-- Does the text start with the closing tag of the given name, up to the end of the name? -/
def startsClosing (closing : String) (cs : List Char) : Bool :=
  match Text.dropStartAnyCase? ('<' :: '/' :: closing.toList) cs with
  | some (c :: _) => endsName c
  | _ => false

/-- The text before the closing tag of the given name, and the text from that tag on. -/
def beforeClosing (closing : String) : List Char → List Char × List Char
  | [] => ([], [])
  | c :: rest =>
    if startsClosing closing (c :: rest) then ([], c :: rest)
    else
      let (text, after) := beforeClosing closing rest
      (c :: text, after)

/-- Where the reader of a script stands with regard to comments and nested scripts. -/
inductive ScriptState where
  | normal
  /-- Inside a comment, after so many dashes. -/
  | escaped (dashes : Nat)
  /-- Inside a comment, in the name of an opening tag. -/
  | escapedName (name : List Char)
  /-- Inside a script inside a comment, after so many dashes. -/
  | nested (dashes : Nat)
  /-- Inside a script inside a comment, after a less-than sign. -/
  | nestedLess
  /-- Inside a script inside a comment, in the name of a closing tag. -/
  | nestedName (name : List Char)

/-- One character inside a comment of a script, with the text after it. -/
def ScriptState.inEscaped (dashes : Nat) (c : Char) (rest : List Char) : ScriptState :=
  if c = '-' then .escaped (dashes + 1)
  else if c = '>' ∧ 2 ≤ dashes then .normal
  else if c = '<' then
    match rest with
    | next :: _ => if next.isAlpha then .escapedName [] else .escaped 0
    | [] => .escaped 0
  else .escaped 0

/-- One character inside a script inside a comment. -/
def ScriptState.inNested (dashes : Nat) (c : Char) : ScriptState :=
  if c = '-' then .nested (dashes + 1)
  else if c = '>' ∧ 2 ≤ dashes then .normal
  else if c = '<' then .nestedLess
  else .nested 0

/-- One character of a script, with the text after it. -/
def ScriptState.next (state : ScriptState) (c : Char) (rest : List Char) : ScriptState :=
  match state with
  | .normal => .normal
  | .escaped dashes => inEscaped dashes c rest
  | .escapedName name =>
    if endsName c then (if name = "script".toList then .nested 0 else .escaped 0)
    else if c.isAlpha then .escapedName (name ++ [Text.lowerAscii c])
    else inEscaped 0 c rest
  | .nested dashes => inNested dashes c
  | .nestedLess => if c = '/' then .nestedName [] else inNested 0 c
  | .nestedName name =>
    if endsName c then (if name = "script".toList then .escaped 0 else .nested 0)
    else if c.isAlpha then .nestedName (name ++ [Text.lowerAscii c])
    else inNested 0 c

/-- Can a closing tag end the script here? -/
def ScriptState.canEnd : ScriptState → Bool
  | .normal | .escaped _ | .escapedName _ => true
  | _ => false

/-- The text of a script before its closing tag, and the text from that tag on. -/
def scriptText (state : ScriptState) : List Char → List Char × List Char
  | [] => ([], [])
  | '<' :: '!' :: '-' :: '-' :: rest =>
    match state with
    | .normal =>
      let (text, after) := scriptText (.escaped 2) rest
      ('<' :: '!' :: '-' :: '-' :: text, after)
    | _ =>
      let (text, after) := scriptText (state.next '<' ('!' :: '-' :: '-' :: rest))
        ('!' :: '-' :: '-' :: rest)
      ('<' :: text, after)
  | c :: rest =>
    if state.canEnd && startsClosing "script" (c :: rest) then ([], c :: rest)
    else
      let (text, after) := scriptText (state.next c rest) rest
      (c :: text, after)

/-- A text that ends in a closing tag: the text, or else the tag. -/
def textOrClosing (tokensOf : List Char → List Token) (text rest : List Char) :
    List Token × List Char :=
  if text.isEmpty then
    match tag? (rest.drop 2) with
    | some (tag, rest) => ([.endTag tag.name], rest)
    | none => ([], [])
  else (tokensOf (text.map withoutNull), rest)

/-- Reads the next tokens and the text after them. There may be none, as for a tag that does not
end. -/
def read (reading : Reading) (foreign : Bool) (cs : List Char) : List Token × List Char :=
  match reading with
  | .markup => readMarkup foreign cs
  | .escapable closing =>
    let (text, rest) := beforeClosing closing cs
    textOrClosing textTokens text rest
  | .raw closing =>
    let (text, rest) := beforeClosing closing cs
    textOrClosing (fun text ↦ [.characters text]) text rest
  | .script =>
    let (text, rest) := scriptText .normal cs
    textOrClosing (fun text ↦ [.characters text]) text rest
  | .plain => ([.characters (cs.map withoutNull)], [])

end Token

/-- Makes every carriage return, alone or before a line feed, a line feed. -/
def normalizeLineEnds : List Char → List Char
  | [] => []
  | '\r' :: '\n' :: rest => '\n' :: normalizeLineEnds rest
  | '\r' :: rest => '\n' :: normalizeLineEnds rest
  | c :: rest => c :: normalizeLineEnds rest

end NotebookTree.Html
