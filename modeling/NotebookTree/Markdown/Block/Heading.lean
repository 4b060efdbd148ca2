import NotebookTree.Markdown.Block.Reader

/-!
# Headings

A heading starts with number signs, or has a line of equals signs or dashes under its text. It may
end in attributes between braces, which its text is read without.
-/

namespace NotebookTree.Markdown.Block

/-! ## Attributes -/

/-- The attributes in the text between the braces at the end of a heading. A word of one octet
says nothing. -/
def headingAttributes (text : String) : HeadingAttributes :=
  let words := (text.toList.splitBy fun a b ↦ !Text.isAsciiBlank a && !Text.isAsciiBlank b).filter
    fun word ↦ 1 < (String.ofList word).utf8ByteSize
  words.foldl (fun a word ↦
    match word with
    | '#' :: rest => { a with id := some (String.ofList rest) }
    | '.' :: rest => { a with classes := a.classes ++ [String.ofList rest] }
    | _ =>
      let name := word.takeWhile (· != '=')
      let value := match word.dropWhile (· != '=') with
        | _ :: value => some (String.ofList value)
        | [] => none
      { a with extra := a.extra ++ [(String.ofList name, value)] }) ⟨none, [], []⟩

/-- The attributes at the end of a heading that reaches from one position to another, and the place
of their opening brace. -/
def attributeBlock? (s : Source) (i j : Nat) : Option (HeadingAttributes × Nat) :=
  let close := s.skipBack (fun c ↦ c == ' ' || c == '\t' || Text.isLineEnd c) i j
  if close ≤ i || !s.has (close - 1) '\x7d' then none
  else
    let plain (c : Char) : Bool :=
      !(c == '\x7b' || c == '\x7d' || c == '<' || c == '>' || c == '\\' || Text.isLineEnd c)
    let first := s.skipBack plain i (close - 1)
    if first ≤ i || !s.has (first - 1) '\x7b' then none
    else some (headingAttributes (s.slice first (close - 1)), first - 1)

/-! ## The text of a heading -/

/-- Moves the end of the latest item. -/
def endLatest (items : List Item) (stop : Nat) : List Item :=
  match items with
  | latest :: rest => { latest with stop } :: rest
  | [] => []

/-- The end of the text of a heading without the number signs and spaces that close it. -/
def headingEnd (s : Source) (i j : Nat) : Nat :=
  let limit := s.skipBack (fun c ↦ Text.isLineEnd c || c == ' ') i j
  let closer := s.skipBack (· == '#') i limit
  if closer = i then i
  else
    let spaced := s.skipBack (· == ' ') i closer
    if spaced < closer then spaced else limit

/-- Cuts items off at a position and moves the end of the last one there. The items so far come with
the latest first, as in the result. Where the position is behind a backslash, that backslash becomes
an item, and what follows the item cut off is kept. -/
def truncateItems (s : Source) (stop : Nat) : List Item → List Item → List Item
  | done, [] => endLatest done stop
  | done, next :: rest =>
    if next.stop < stop then truncateItems s stop (next :: done) rest
    else if next.stop = stop then next :: done
    else if stop ≤ next.start then
      if 0 < stop && s.has (stop - 1) '\\' && next.body = .text true then
        rest.reverse ++ { next with start := stop - 1, stop } :: done
      else endLatest done stop
    else { next with stop } :: done

/-! ## Reading -/

/-- Reads a heading that starts with `level` number signs. -/
def Reader.signedHeading (r : Reader) (i level : Nat) : Reader × Nat :=
  let s := r.source
  let after := i + level
  match s.lineEnd? after with
  | some next => (r.append i next (.heading level ⟨none, [], []⟩ ⟨[], next⟩), next)
  | none =>
    let first := s.skipSpace after
    let lineStop := s.nextLine first
    let found := if r.extensions.headingAttributes then attributeBlock? s first lineStop else none
    let (attributes, items, contentStop, stop) :=
      if r.extensions.headingAttributes then
        let contentStop := match found with
          | some (_, brace) => brace
          | none => lineStop
        let line := s.readLine r.extensions .none contentStop [] first
        (found.map (·.1), line.items, contentStop, lineStop)
      else
        let line := s.readLine r.extensions .none s.size [] first
        let items := match line.lineBreak with
          | some ⟨start, _, .hardBreak true⟩ => pushText line.items start (start + 1) false
          | _ => line.items
        (none, items, line.next, line.next)
    let textStop := headingEnd s first contentStop
    let items := if textStop ≤ first then [] else endLatest items textStop
    (r.append i stop (.heading level (attributes.getD ⟨none, [], []⟩) ⟨items.reverse, stop⟩), stop)

/-- Makes a heading of the items of a paragraph from `first` on, which are given with the latest
first. Its underline ends at `stop`. A backslash at the end of the paragraph is given by its place;
it belongs to the text, but does not count for its end. -/
def underlinedHeading (r : Reader) (level first stop : Nat) (items : List Item)
    (backslash : Option Nat) : Block :=
  let s := r.source
  let (attributes, items) : HeadingAttributes × List Item :=
    match items with
    | [] => (⟨none, [], []⟩, [])
    | latest :: _ =>
      let found :=
        if r.extensions.headingAttributes then attributeBlock? s first latest.stop else none
      let contentStop := match found with
        | some (_, brace) => brace
        | none => latest.stop
      let textStop :=
        if backslash.isSome then contentStop else s.skipBack Source.isSpace first contentStop
      let items :=
        if found.isSome then truncateItems s textStop [] items.reverse
        else endLatest items textStop
      ((found.map (·.1)).getD ⟨none, [], []⟩, items)
  let items := match backslash with
    | some i => pushText items i (i + 1) false
    | none => items
  .heading level attributes ⟨items.reverse, stop⟩

end NotebookTree.Markdown.Block
