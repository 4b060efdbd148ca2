import NotebookTree.Html.Fragment
import NotebookTree.Node.Markup
import NotebookTree.Prose.Draft

/-!
# Lowering drafts

`Draft.lowerAll` resolves the raw markup in drafts. A list of siblings without raw markup is
lowered node by node. A list with raw markup is written as one fragment of HTML, in which a stand-in
takes the place of each element; the fragment is compiled, and the lowered elements are put back in
place of their stand-ins. Raw markup may swallow a stand-in, in which case the whole is refused.
-/

namespace NotebookTree

/-- The tag of stand-ins. -/
def standInTag : String := "nbc-slot"

/-- The attribute of a stand-in that holds the place of its element among the elements. -/
def standInAttribute : String := "data-slot"

/-- The markup of a stand-in. -/
def standIn (index : Nat) : List Char :=
  Node.openTag standInTag (Attributes.ofList [(standInAttribute, toString index)]) ++
    Node.closeTag standInTag

namespace Draft

/-- Drafts as a fragment of HTML. The stand-ins count from `index`. -/
def fragment (index : Nat) : List Draft → List Char
  | [] => []
  | raw markup :: rest => markup.toList ++ fragment index rest
  | text value :: rest => Node.escapeText value.toList ++ fragment index rest
  | element .. :: rest => standIn index ++ fragment (index + 1) rest

/-- Reads the index of a stand-in: digits, which may have a plus sign before them. -/
def index? (value : String) : Option Nat :=
  let digits := match value.toList with
    | '+' :: rest => rest
    | chars => chars
  if digits.isEmpty || !digits.all Char.isDigit then none else some (Text.ofDigits 10 digits)

/-- The element for which an element of a fragment stands in, if that is not in place yet. -/
def slot? (tag : String) (attributes : Attributes) (slots : List (Option Node)) :
    Option (Nat × Node) := do
  guard (tag == standInTag)
  let index ← attributes.get? standInAttribute >>= index?
  let node ← slots[index]?.join
  return (index, node)

mutual

/-- Puts elements in place of their stand-ins in a node, and gives the elements that are left. -/
def fill (slots : List (Option Node)) : Node → Node × List (Option Node)
  | .element tag attributes children =>
    match slot? tag attributes slots with
    | some (index, node) => (node, slots.set index none)
    | none =>
      let (children, slots) := fillAll slots children
      (.element tag attributes children, slots)
  | .root children =>
    let (children, slots) := fillAll slots children
    (.root children, slots)
  | .text value => (.text value, slots)

/-- Puts elements in place of their stand-ins in nodes one after the other. -/
def fillAll (slots : List (Option Node)) : List Node → List Node × List (Option Node)
  | [] => ([], slots)
  | node :: rest =>
    let (node, slots) := fill slots node
    let (rest, slots) := fillAll slots rest
    (node :: rest, slots)

end

/-- Resolves the raw markup among siblings, each of which is lowered already. -/
def settle (limit : Nat) (drafts : List Draft) (lowered : List Node) :
    Except CompileError (List Node) :=
  if !drafts.any isRaw then .ok lowered
  else do
    let slots := ((drafts.zip lowered).filter (·.1.isElement)).map fun entry ↦ some entry.2
    let nodes ← Html.compileFragment limit (String.ofList (fragment 0 drafts))
    let (nodes, left) := fillAll slots nodes
    match left.findIdx? Option.isSome with
    | some index =>
      throw (.html ("raw HTML dropped markdown element " ++ toString index))
    | none => return nodes

mutual

/-- Lowers a draft by itself. Texts and raw markup become texts. -/
def lower (limit : Nat) : Draft → Except CompileError Node
  | text value => .ok (.text value)
  | raw markup => .ok (.text markup)
  | element tag attributes children => do
    let lowered ← lowerEach limit children
    let nodes ← settle limit children lowered
    return .element tag attributes nodes

/-- Lowers drafts, each by itself. -/
def lowerEach (limit : Nat) : List Draft → Except CompileError (List Node)
  | [] => .ok []
  | draft :: rest => do
    let node ← lower limit draft
    let nodes ← lowerEach limit rest
    return node :: nodes

end

/-- Lowers a list of siblings. The elements of raw markup may nest `limit` levels. -/
def lowerAll (limit : Nat) (drafts : List Draft) : Except CompileError (List Node) := do
  let lowered ← lowerEach limit drafts
  settle limit drafts lowered

end Draft

end NotebookTree
