import NotebookTree.Markdown.Block
import NotebookTree.Markdown.Phrasing

/-!
# Documents

`events` reads a Markdown text: first its blocks with all definitions, then the running text of
each block, which may refer to definitions that come later. How much all texts together take over
from definitions is limited.

The paragraphs in an item of a tight list open and close no construct. Together with the other
blocks of the item they are one running text.
-/

namespace NotebookTree.Markdown

/-- What the running texts of a document share. -/
structure Document where
  source : Source
  extensions : Extensions
  definitions : Definitions

namespace Document

/-- Events, read while the number of octets goes down that may still be taken over from link
definitions. -/
abbrev Telling := StateM Nat (List Event)

/-- The events inside a construct, with those that open and close it. -/
def within (construct : Construct) (inner : Telling) : Telling := do
  return construct.around (← inner)

/-- The events of what is read one after the other. -/
def inOrder : List Telling → Telling
  | [] => return []
  | first :: rest => return (← first) ++ (← inOrder rest)

/-! ## Running text -/

/-- The events of the parts of a running text, where those of the blocks in it are given. -/
def partEvents (blocks : List Telling) (parts : List Part) : Telling :=
  inOrder (parts.map fun
    | .inlines value => return Inline.eventsOf value
    | .block number => (blocks[number]?).getD (return []))

/-- The events of items with the given blocks among them. The items before the first one whose
meaning is open come first, with all blocks among them. -/
def runningEvents (place : TextPlace) (blocks : List Telling) (items : List Item) : Telling := do
  let (settled, rest) := items.span (!·.body.isOpen)
  let before ← partEvents blocks (← partsOf place settled)
  let after ← partEvents blocks (← partsOf place rest)
  return before ++ after

/-- Where a running text stands that ends at `stop`. -/
def place (d : Document) (containers : List Container) (inTable : Bool) (stop : Nat) :
    TextPlace :=
  ⟨d.source.extract 0 stop, containers, inTable, d.extensions, d.definitions⟩

/-- The events of a text without blocks. -/
def textEvents (d : Document) (containers : List Container) (inTable : Bool) (text : LeafText) :
    Telling :=
  runningEvents (d.place containers inTable text.stop) [] text.items

/-- The items of blocks as one running text. Blocks that are no paragraphs are numbered from the
given number on. -/
def runningItems (number : Nat) : List (Placed Block) → List Item
  | [] => []
  | ⟨start, stop, block⟩ :: rest =>
    let first : List Item := match block with
      | .paragraph ⟨item :: items, _⟩ => item :: items
      | .task checked => [⟨start, stop, .task checked⟩]
      | _ => [⟨start, stop, .block number⟩]
    first ++ runningItems (number + 1) rest

/-- The items of the blocks in an item of a tight list. An empty paragraph at the start leaves
nothing of it. -/
def tightItems : List (Placed Block) → List Item
  | ⟨_, _, .paragraph ⟨[], _⟩⟩ :: _ => []
  | blocks => runningItems 0 blocks

/-! ## Blocks -/

/-- The events of the cells of a row. -/
def cellEvents (d : Document) (containers : List Container) (cells : List LeafText) : Telling :=
  inOrder (cells.map fun cell ↦ within .tableCell (d.textEvents containers true cell))

/-- The events of a line of raw markup. -/
def markupEvents (line : MarkupLine) : List Event :=
  let spaces := String.ofList (List.replicate line.indent ' ')
  (if line.indent = 0 then [] else [.text spaces]) ++ line.pieces.map .html

mutual

/-- The events of a block in the given containers, the outermost first. Its list is tight or not, if
it is an item, and it ends at `stop`. -/
def blockEvents (d : Document) (containers : List Container) (tight : Bool) (stop : Nat) :
    Block → Telling
  | .paragraph text => within .paragraph (d.textEvents containers false text)
  | .heading level a text =>
    within (.heading level a.id a.classes a.extra) (d.textEvents containers false text)
  | .rule => return [.rule]
  | .code info text => within (.codeBlock info) (return if text.isEmpty then [] else [.text text])
  | .html lines => within .htmlBlock (return lines.flatMap markupEvents)
  | .table alignments head rows =>
    within (.table alignments) (inOrder
      (within .tableHead (d.cellEvents containers head) ::
        rows.map fun row ↦ within .tableRow (d.cellEvents containers row)))
  | .task checked => return [.taskMarker checked]
  | .quote children =>
    within .blockQuote (inOrder (eachEvents d (containers ++ [.quote]) false children))
  | .list tight start items =>
    within (.list start) (inOrder (eachEvents d (containers ++ [.list]) tight items))
  | .item indent children =>
    let containers := containers ++ [.item indent]
    let blocks := eachEvents d containers false children
    within .item
      (if tight then runningEvents (d.place containers false stop) blocks (tightItems children)
      else inOrder blocks)
  | .footnote label children =>
    within (.footnoteDefinition label)
      (inOrder (eachEvents d (containers ++ [.footnote]) false children))

/-- The events of each block of a list. -/
def eachEvents (d : Document) (containers : List Container) (tight : Bool) :
    List (Placed Block) → List Telling
  | [] => []
  | ⟨_, stop, block⟩ :: rest =>
    blockEvents d containers tight stop block :: eachEvents d containers tight rest

end

end Document

/-- How many octets a document may take over from link definitions at least. -/
def leastRoom : Nat := 100000

/-- The events of a Markdown text. -/
def events (options : CompileOptions) (text : String) : List Event :=
  let source : Source := text.toList.toArray
  let (blocks, definitions) := Block.readAll options.extensions source
  let d : Document := ⟨source, options.extensions, definitions⟩
  (Document.inOrder (d.eachEvents [] false blocks) (max text.utf8ByteSize leastRoom)).1

end NotebookTree.Markdown
