import NotebookTree.Markdown.Block.Reader

/-!
# Link definitions

A link definition is a label with a colon, a destination and perhaps a title. It stands where a
paragraph may start, and it may span lines like one.
-/

namespace NotebookTree.Markdown.Block.Reader

/-- The start of the next line inside a link definition. Nothing if the line would end a paragraph
or underline it. A line in a label underlines only inside the containers of the definition. -/
def continuation? (r : Reader) (inLabel : Bool) (j : Nat) : Option LineStart :=
  let s := r.source
  let (entered, l) := Container.scan s (LineStart.ofPosition j) r.containers
  let contained := entered = r.containers.length
  let (deep, inner) := l.takeAll s 4
  let underlined := (contained || !inLabel) && (s.underline? inner.position).isSome
  if !deep && (s.interrupts r.extensions r.containers contained inner.position || underlined) then
    none
  else some l

/-- Skips white space inside a link definition with at most one line end. Gives the number of line
ends and the position. -/
def definitionSpace? (r : Reader) : Nat → Nat → Nat → Option (Nat × Nat)
  | 0, _, _ => none
  | fuel + 1, i, ends =>
    let s := r.source
    let i := s.skipSpace i
    match s[i]?, s.lineEnd? i with
    | some _, some j =>
      if ends = 1 then none
      else
        match r.continuation? false j with
        | none => none
        | some l => definitionSpace? r fuel l.position (ends + 1)
    | _, _ => some (ends, i)

/-- Reads the title of a link definition after its opening delimiter. A title in parentheses holds
no opening one. -/
def definitionTitle? (r : Reader) (close : Char) : Nat → Nat → List Char →
    Option (List Char × Nat)
  | 0, _, _ => none
  | fuel + 1, i, before =>
    let s := r.source
    match s[i]? with
    | none => none
    | some c =>
      if c = close then some (before.reverse, i + 1)
      else if c = '(' ∧ close = ')' then none
      else if Text.isLineEnd c then
        match r.continuation? false ((s.lineEnd? i).getD i) with
        | none => none
        | some l =>
          let l := l.takeRest s
          if (s.blankLine? l.position).isSome then none
          else definitionTitle? r close fuel l.position ('\n' :: before)
      else
        match if c = '\\' then s[i + 1]? else none with
        | none => definitionTitle? r close fuel (i + 1) (c :: before)
        | some d =>
          if Text.isLineEnd d then definitionTitle? r close fuel (i + 1) (c :: before)
          else definitionTitle? r close fuel (i + 2) (d :: c :: before)

/-- Reads a title of a link definition at its opening delimiter. -/
def quotedTitle? (r : Reader) (i : Nat) : Option (String × Nat) := do
  let opening ← r.source[i]?
  guard (opening == '"' || opening == '\x27' || opening == '(')
  let close := if opening = '(' then ')' else opening
  let (chars, j) ← r.definitionTitle? close (r.source.size - i + 1) (i + 1) []
  let title : Source := chars.toArray
  return (title.unescape false 0 title.size, j)

/-- Reads the destination and title of a link definition after its colon. -/
def definitionBody? (r : Reader) (i : Nat) : Option (LinkDefinition × Nat) := do
  let s := r.source
  let (_, i) ← r.definitionSpace? (s.size - i + 2) i 0
  let (first, last, i) ← s.destination? i
  guard (!(first = last && i = last))
  let destination := s.unescape false first last
  let plain : Option (LinkDefinition × Nat) := some (⟨destination, ""⟩, i)
  match r.definitionSpace? (s.size - i + 2) i 0 with
  | none => plain
  | some (ends, j) =>
    let ends := if i = s.size then ends + 1 else ends
    if j = i && ends = 0 then none
    else
      match r.quotedTitle? j with
      | some (title, k) =>
        if (s.blankLine? k).isSome then some (⟨destination, title⟩, k)
        else if 0 < ends then plain
        else none
      | none => if 0 < ends || j = s.size then plain else none

/-- Reads a link definition and notes it. Gives the position after it, behind which its last line
is blank. -/
def definition? (r : Reader) (i : Nat) : Option (Reader × Nat) := do
  let s := r.source
  guard (s.has i '[')
  let (label, j) ← s.label? (fun j ↦ (r.continuation? true j).map (·.position)) false (i + 1)
  guard (s.has j ':')
  let (definition, j) ← r.definitionBody? (j + 1)
  return ({ r with definitions := r.definitions.addLink label definition }, j)

end NotebookTree.Markdown.Block.Reader
