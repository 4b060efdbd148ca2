import NotebookTree.Yaml.Cursor

/-!
# Scalars in a YAML text

A scalar is written plainly, in quotes or as a block. The line breaks inside are folded: a single
break becomes a space, and of several the first one is dropped. Blocks marked with a bar keep their
breaks, and in folded blocks lines that start with a blank keep theirs.

The readers start after the opening quote or mark and answer with the text of the scalar and the
rest. Nothing means that the scalar is malformed.
-/

namespace NotebookTree.Yaml

/-- The blanks and breaks between two parts of a scalar. -/
structure Gap where
  /-- The blanks before the first break. -/
  blanks : List Char
  /-- The first break. -/
  first : List Char
  /-- The further breaks. -/
  further : List Char
  /-- Has a break been passed? -/
  broken : Bool

namespace Gap

/-- No gap. -/
def none : Gap := ⟨[], [], [], false⟩

/-- The text of the gap inside a scalar. -/
def text (g : Gap) : List Char :=
  if !g.broken then g.blanks
  else if g.first == ['\n'] then (if g.further.isEmpty then [' '] else g.further)
  else g.first ++ g.further

/-- Takes the blanks and breaks at the cursor. Tabs may not stand before the column `indent`. -/
def take? (indent : Nat) : Nat → Gap → Cursor → Option (Gap × Cursor)
  | 0, g, c => some (g, c)
  | fuel + 1, g, c =>
    match c.rest with
    | [] => some (g, c)
    | char :: _ =>
      if isBlank char then
        if g.broken then
          if char = '\t' && c.column < indent then Option.none else take? indent fuel g (c.skip 1)
        else take? indent fuel { g with blanks := g.blanks ++ [char] } (c.skip 1)
      else if isBreak char then
        let (chars, c) := c.takeBreak
        if g.broken then take? indent fuel { g with further := g.further ++ chars } c
        else take? indent fuel { g with blanks := [], first := chars, broken := true } c
      else some (g, c)

end Gap

/-! ## Plain scalars -/

/-- The characters that structure flow collections, apart from the comma. -/
def isFlowBracket (c : Char) : Bool :=
  c == '[' || c == ']' || c == '\x7b' || c == '\x7d'

/-- Takes the characters of a plain scalar up to a gap or an indicator that ends it. -/
def plainWord? (inFlow : Bool) : Nat → Cursor → List Char → Option (List Char × Cursor)
  | 0, c, chars => some (chars.reverse, c)
  | fuel + 1, c, chars =>
    match c.rest with
    | [] => some (chars.reverse, c)
    | char :: _ =>
      if c.atGap 0 then some (chars.reverse, c)
      else if inFlow && char == ':' &&
          c.any 1 (fun d ↦ d == ',' || d == '?' || isFlowBracket d) then none
      else if (char == ':' && c.atGap 1) || (inFlow && (char == ',' || isFlowBracket char)) then
        some (chars.reverse, c)
      else plainWord? inFlow fuel (c.skip 1) (char :: chars)

/-- Goes on with a plain scalar after a gap. Gives its text, the rest, and whether it ends in a line
break. -/
def plainFrom? (inFlow : Bool) (indent : Nat) :
    Nat → Cursor → Gap → List Char → Option (List Char × Cursor × Bool)
  | 0, c, gap, text => some (text, c, gap.broken)
  | fuel + 1, c, gap, text =>
    if c.atDocumentMarker || c.has 0 '#' then some (text, c, gap.broken)
    else
      match plainWord? inFlow (c.rest.length + 1) c [] with
      | none => none
      | some (word, c) =>
        let (text, gap) :=
          if word.isEmpty then (text, gap) else (text ++ gap.text ++ word, Gap.none)
        if c.rest.isEmpty || !c.atGap 0 then some (text, c, gap.broken)
        else
          match gap.take? indent (c.rest.length + 1) c with
          | none => none
          | some (gap, c) =>
            if !inFlow && c.column < indent then some (text, c, gap.broken)
            else plainFrom? inFlow indent fuel c gap text

/-- Reads a plain scalar, which in block context goes on in lines from the column `indent`. -/
def plainScalar? (inFlow : Bool) (indent : Nat) (c : Cursor) :
    Option (String × Cursor × Bool) := do
  let (text, c, broken) ← plainFrom? inFlow indent (c.rest.length + 1) c Gap.none []
  return (String.ofList text, c, broken)

/-! ## Quoted scalars -/

/-- The character that a letter after a backslash stands for. -/
def escapedChar? : Char → Option Char
  | '0' => some '\x00'
  | 'a' => some '\x07'
  | 'b' => some '\x08'
  | 't' => some '\t'
  | '\t' => some '\t'
  | 'n' => some '\n'
  | 'v' => some '\x0b'
  | 'f' => some '\x0c'
  | 'r' => some '\r'
  | 'e' => some '\x1b'
  | ' ' => some ' '
  | '"' => some '"'
  | '/' => some '/'
  | '\\' => some '\\'
  | 'N' => some '\u0085'
  | '_' => some '\u00a0'
  | 'L' => some '\u2028'
  | 'P' => some '\u2029'
  | _ => none

/-- The number of digits of an escape that gives a code point. -/
def escapeDigits? : Char → Option Nat
  | 'x' => some 2
  | 'u' => some 4
  | 'U' => some 8
  | _ => none

/-- Reads an escape at its backslash, which stands before no line break. -/
def escape? (c : Cursor) : Option (Char × Cursor) := do
  let letter ← c.peek? 1
  match escapeDigits? letter with
  | none => return (← escapedChar? letter, c.skip 2)
  | some count =>
    let digits := (c.rest.drop 2).take count
    guard (digits.length = count && digits.all fun d ↦ (Text.digitValue? 16 d).isSome)
    let n := Text.ofDigits 16 digits
    guard (!(0xd800 ≤ n && n ≤ 0xdfff) && n ≤ 0x10ffff)
    return (Char.ofNat n, c.skip (2 + count))

/-- Takes the characters of a quoted scalar up to a gap or its closing quote, the latest first.
Says whether it ends in an escaped line break. -/
def quotedWord? (quote : Char) : Nat → Cursor → List Char → Option (List Char × Cursor × Bool)
  | 0, c, chars => some (chars, c, false)
  | fuel + 1, c, chars =>
    match c.rest with
    | [] => some (chars, c, false)
    | char :: _ =>
      if c.atGap 0 then some (chars, c, false)
      else if char = quote then
        if quote = '\x27' && c.has 1 '\x27' then quotedWord? quote fuel (c.skip 2) (char :: chars)
        else some (chars, c, false)
      else if quote = '"' && char = '\\' then
        if c.any 1 isBreak then some (chars, (c.skip 1).takeBreak.2, true)
        else
          match escape? c with
          | none => none
          | some (char, c) => quotedWord? quote fuel c (char :: chars)
      else quotedWord? quote fuel (c.skip 1) (char :: chars)

/-- Goes on with a quoted scalar: its text, the latest character first, and the rest. -/
def quotedFrom? (quote : Char) : Nat → Cursor → List Char → Option (List Char × Cursor)
  | 0, _, _ => none
  | fuel + 1, c, text =>
    if c.atDocumentMarker || c.rest.isEmpty then none
    else
      match quotedWord? quote (c.rest.length + 1) c text with
      | none => none
      | some (text, c, escaped) =>
        if c.has 0 quote then some (text, c.skip 1)
        else
          match Gap.take? 0 (c.rest.length + 1) { Gap.none with broken := escaped } c with
          | none => none
          | some (gap, c) => quotedFrom? quote fuel c (gap.text.reverse ++ text)

/-- Reads a quoted scalar after its opening quote. -/
def quotedScalar? (quote : Char) (c : Cursor) : Option (String × Cursor) := do
  let (text, c) ← quotedFrom? quote (c.rest.length + 1) c []
  return (String.ofList text.reverse, c)

/-! ## Block scalars -/

/-- What becomes of the line breaks at the end of a block. -/
inductive Chomping where
  /-- All are dropped. -/
  | strip
  /-- One is kept. -/
  | clip
  | keep
  deriving DecidableEq

/-- The chomping that a mark asks for. -/
def chomping? (c : Cursor) : Option Chomping :=
  if c.has 0 '+' then some .keep else if c.has 0 '-' then some .strip else none

/-- The indentation that a digit asks for. Zero is none. -/
def increment? (c : Cursor) : Option Nat :=
  (c.peek? 0 >>= Text.digitValue? 10)

/-- Reads the marks after the opening mark of a block: the chomping, and the indentation, which is
zero if it is to be found out. -/
def blockMarks? (c : Cursor) : Option (Chomping × Nat × Cursor) :=
  let positive : Option Nat → Bool := fun n ↦ n != some 0
  match chomping? c with
  | some chomping =>
    let c := c.skip 1
    match increment? c with
    | some n => if positive (some n) then some (chomping, n, c.skip 1) else none
    | none => some (chomping, 0, c)
  | none =>
    match increment? c with
    | some n =>
      if !positive (some n) then none
      else
        let c := c.skip 1
        match chomping? c with
        | some chomping => some (chomping, n, c.skip 1)
        | none => some (.clip, n, c)
    | none => some (.clip, 0, c)

/-- Takes the indentation of a line and the line breaks of blank lines: the breaks, the indentation
of the block, and the rest. An indentation of zero is to be found out, and is at least `least`. -/
def blockBreaks? (least indent : Nat) :
    Nat → Nat → List Char → Cursor → Option (List Char × Nat × Cursor)
  | 0, _, _, _ => none
  | fuel + 1, widest, breaks, c =>
    let spaces := (c.rest.takeWhile (· == ' ')).length
    let c := c.skip (if indent = 0 then spaces else min spaces (indent - c.column))
    let widest := max widest c.column
    if (indent = 0 || c.column < indent) && c.has 0 '\t' then none
    else if c.any 0 isBreak then
      let (chars, c) := c.takeBreak
      blockBreaks? least indent fuel widest (breaks ++ chars) c
    else some (breaks, if indent = 0 then max widest least else indent, c)

/-- What stands between two lines of a block: the break after the first line and the breaks of blank
lines. A folded block joins lines neither of which starts with a blank. -/
def blockGap (literal : Bool) (first further : List Char) (blankBefore blankAfter : Bool) :
    List Char :=
  if !literal && first == ['\n'] && !blankBefore && !blankAfter then
    (if further.isEmpty then [' '] else []) ++ further
  else first ++ further

/-- Reads the lines of a block: its text, the latest character first, the breaks after it, and the
rest. -/
def blockLines? (literal : Bool) (indent : Nat) :
    Nat → Cursor → Bool → List Char → List Char → List Char →
      Option (List Char × List Char × List Char × Cursor)
  | 0, _, _, _, _, _ => none
  | fuel + 1, c, blankBefore, first, further, text =>
    if c.column = indent && !c.rest.isEmpty then
      let blank := c.any 0 isBlank
      let gap := blockGap literal first further blankBefore blank
      let (line, c) := c.takeWhile (!isBreak ·)
      let (first, c) := c.takeBreak
      match blockBreaks? 1 indent (c.rest.length + 1) 0 [] c with
      | none => none
      | some (further, _, c) =>
        blockLines? literal indent fuel c blank first further
          (line.reverse ++ (gap.reverse ++ text))
    else some (text, first, further, c)

/-- Reads a block after its opening mark. Its lines are indented by more than `base` columns. -/
def blockScalar? (literal : Bool) (base : Nat) (c : Cursor) : Option (String × Cursor) := do
  let (chomping, increment, c) ← blockMarks? c
  let c ← c.endLine?
  let indent := if increment = 0 then 0 else base + increment
  let (further, indent, c) ← blockBreaks? (base + 1) indent (c.rest.length + 1) 0 [] c
  let (text, first, further, c) ←
    blockLines? literal indent (c.rest.length + 1) c false [] further []
  let tail := match chomping with
    | .strip => []
    | .clip => first
    | .keep => first ++ further
  return (String.ofList (text.reverse ++ tail), c)

end NotebookTree.Yaml
