import NotebookTree.Markdown.CodeSpan
import NotebookTree.Markdown.Inline

/-!
# Running text

The items of a text become inlines in one pass from left to right, which finds code, raw markup,
addresses, links, images and references to footnotes. Opening brackets stay among the pieces until
a closing one decides what they are. At last emphasis is resolved, in the contents of each link by
themselves.

Blocks may stand among the items. No link text and no emphasis goes on behind a block. What else
starts before a block may reach into it: a block that is taken whole is left out, but one that is
not stays what it is.
-/

namespace NotebookTree.Markdown

/-- A part of a running text. -/
inductive Part where
  | inlines (value : List Inline)
  /-- A block among the inlines, by its number. -/
  | block (number : Nat)
  deriving Inhabited

/-- The state of the pass over items. -/
structure Phrasing where
  place : TextPlace
  /-- The parts up to the latest block, the latest first. -/
  parts : List Part
  /-- The pieces since then, the latest first. -/
  pieces : List Piece
  backticks : BacktickRuns
  /-- How many octets may still be taken over from link definitions. -/
  room : Nat

namespace Phrasing

/-- Adds an inline. -/
def add (p : Phrasing) (inline : Inline) : Phrasing :=
  { p with pieces := .inline inline :: p.pieces }

/-- Adds a text. -/
def addText (p : Phrasing) (text : String) : Phrasing := p.add (.text text)

/-- Adds an item as plain text. -/
def addItem (p : Phrasing) (item : Item) : Phrasing :=
  p.addText (p.place.source.slice item.start item.stop)

/-- The parts so far, the latest first, with the pieces resolved. -/
def resolved (p : Phrasing) : List Part :=
  .inlines (Piece.resolve p.pieces.reverse) :: p.parts

/-- Adds a block. -/
def addBlock (p : Phrasing) (number : Nat) : Phrasing :=
  { p with parts := .block number :: p.resolved, pieces := [] }

/-- The items behind a position. One that starts before it is cut. -/
def itemsFrom (i : Nat) (items : List Item) : List Item :=
  match items.dropWhile (·.stop ≤ i) with
  | [] => []
  | first :: rest => { first with start := max first.start i } :: rest

/-! ## Links -/

/-- Splits pieces at the latest opening bracket: the pieces after it in order, what it opens, and
the pieces before it. -/
def splitAtOpener : List Piece → List Piece → Option (List Piece × (Bool × Bool × Nat) × List Piece)
  | _, [] => none
  | after, .opener image disabled stop :: before => some (after, (image, disabled, stop), before)
  | after, piece :: before => splitAtOpener (piece :: after) before

/-- Disables the opening brackets of links. -/
def disableLinks (pieces : List Piece) : List Piece :=
  pieces.map fun
    | .opener false _ stop => .opener false true stop
    | piece => piece

/-- Makes all opening brackets plain text. -/
def dropOpeners (pieces : List Piece) : List Piece :=
  pieces.map fun
    | .opener image _ _ => .inline (Piece.openerText image)
    | piece => piece

/-- What a reference after a closing bracket says. -/
structure ReferenceScan where
  /-- The label, if it is not that in the brackets before. -/
  label : Option String
  /-- The items after the reference, and those that are left if it fails. -/
  after : List Item
  left : List Item
  /-- Is the text in the brackets before the label? -/
  refersBack : Bool

/-- Reads the reference after a closing bracket. -/
def reference? (p : TextPlace) (items : List Item) : Option ReferenceScan :=
  let shortcut : ReferenceScan := ⟨none, items, items, true⟩
  match items with
  | [] => some shortcut
  | first :: _ =>
    if p.source.hasAll first.start ['[', ']'] then
      some { shortcut with after := items.drop 2 }
    else
      match p.label? first.start with
      | some (.link label, stop) =>
        let before := items.takeWhile (·.stop < stop)
        match items.drop before.length with
        | [] => none
        | closer :: rest =>
          -- The item that ends the label may end no further reference.
          let spent : Item := { closer with body := .linkClose false }
          some ⟨some label, rest, before ++ spent :: rest, false⟩
      | _ => some shortcut

/-- Goes over a closing bracket that ends at `stop`. -/
def closeBracket (p : Phrasing) (item : Item) (canRefer : Bool) (items : List Item) :
    Phrasing × List Item :=
  let plain : Phrasing := p.addItem item
  match splitAtOpener [] p.pieces with
  | none => (plain, items)
  | some (contents, (image, disabled, openerStop), before) =>
    let failed : Phrasing :=
      { p with
        pieces := contents.reverse ++ Piece.inline (Piece.openerText image) :: before }.addItem item
    let link (target : LinkDefinition) : Phrasing :=
      let construct : Construct :=
        if image then .image target.destination target.title
        else .link target.destination target.title
      { p with pieces := if image then before else disableLinks before }.add
        (.span construct (Piece.resolveContents contents))
    if disabled then (failed, items)
    else
      match p.place.target? items item.stop with
      | some (target, i) => (link target, itemsFrom i items)
      | none =>
        match reference? p.place items with
        | none => (failed, items)
        | some scan =>
          if scan.refersBack && !canRefer then (failed, items)
          else
            let label : Option TextPlace.Label :=
              match scan.label with
              | some label => some (.link label)
              | none =>
                match p.place.label? (openerStop - 1) with
                | some (label, stop) => if stop = item.stop then some label else none
                | none => none
            match label with
            | none => (failed, scan.left)
            | some (.footnote label) =>
              if p.place.definitions.hasFootnote label then
                let p : Phrasing := { p with pieces := dropOpeners before }
                let p := if image then p.addText "!" else p
                (p.add (.leaf (.footnoteReference label)), items)
              else (failed, scan.left)
            | some (.link label) =>
              match if p.room = 0 then none else p.place.definitions.link? label with
              | some target => ({ link target with room := p.room - target.size }, scan.after)
              | none => (failed, scan.left)

/-! ## The pass -/

/-- Goes over a less-than sign. -/
def lessThan (p : Phrasing) (item : Item) (items : List Item) : Phrasing × List Item :=
  match items with
  | [] => (p.addItem item, items)
  | next :: _ =>
    let s := p.place.source
    match TextPlace.anyAddress? s next.start with
    | some stop =>
      let address := s.slice next.start stop
      (p.add (.span (.link address "") [.text (s.slice (item.start + 1) stop)]),
        itemsFrom (stop + 1) items)
    | none =>
      match s.inlineMarkup? p.place.skipMarks next.start with
      | some (stop, text) =>
        (p.add (.leaf (.inlineHtml (text.getD (s.slice item.start stop)))), itemsFrom stop items)
      | none => (p.addItem item, items)

/-- Goes over the first item. -/
def step (p : Phrasing) (item : Item) (items : List Item) : Phrasing × List Item :=
  match item.body with
  | .text _ => (p.addItem item, items)
  | .replaced text => (p.addText text, items)
  | .softBreak => (p.add (.leaf .softBreak), items)
  | .hardBreak true => ({ p with pieces := .backslashBreak :: p.pieces }, items)
  | .hardBreak false => (p.add (.leaf .hardBreak), items)
  | .delimiters c count canOpen canClose =>
    ({ p with pieces := .delimiters ⟨c, count, canOpen, canClose⟩ :: p.pieces }, items)
  | .backticks count escaped =>
    let (closing, backticks) :=
      p.backticks.closing? (if escaped then count - 1 else count) item.stop items
    let p := { p with backticks }
    match closing with
    | none => (p.addItem item, items)
    | some (closer, rest) =>
      let p := if escaped then p.addText "\x60" else p
      (p.add (.leaf (.code (p.place.codeText item.stop closer.start))), rest)
  | .lessThan => p.lessThan item items
  | .linkOpen => ({ p with pieces := .opener false false item.stop :: p.pieces }, items)
  | .imageOpen => ({ p with pieces := .opener true false item.stop :: p.pieces }, items)
  | .linkClose canRefer => p.closeBracket item canRefer items
  | .task checked => (p.add (.leaf (.taskMarker checked)), items)
  | .block number => (p.addBlock number, items)

/-- Goes over all items. -/
def run : Nat → Phrasing → List Item → Phrasing
  | 0, p, _ => p
  | _, p, [] => p
  | fuel + 1, p, item :: items =>
    let (p, items) := p.step item items
    run fuel p items

end Phrasing

/-- The parts of a running text. Gives with them the number of octets that may still be taken over
from link definitions. A backslash at the end of a text breaks no line if the first item is one
whose meaning is open. -/
def partsOf (place : TextPlace) (items : List Item) : StateM Nat (List Part) := fun room ↦
  let p := Phrasing.run (items.length + 1) ⟨place, [], [], .empty, room⟩ items
  let p :=
    if items.head?.any (·.body.isOpen) then { p with pieces := Piece.endInText p.pieces } else p
  (p.resolved.reverse, p.room)

end NotebookTree.Markdown
