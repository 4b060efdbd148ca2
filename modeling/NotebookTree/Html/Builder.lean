import NotebookTree.Html.Foreign

/-!
# Building an HTML tree

A `Builder` holds the tree built so far, the stack of elements that are open, and the list of
formatting elements that are opened again after they were closed by other elements. Its
operations open, close and search elements; which of them a token asks for is decided elsewhere.

The lowest open element is the wrapper of the fragment. It is an `html` element, and it is treated
as a `body` where the wrapper of a fragment counts as its context.
-/

namespace NotebookTree.Html

/-- An element that is open. -/
structure OpenElement where
  id : Nat
  name : ElementName
  deriving DecidableEq, Inhabited

/-- Is it the HTML element of the given tag? -/
def OpenElement.isHtml (element : OpenElement) (tag : String) : Bool :=
  element.name.vocabulary == .html && element.name.name == tag

/-- Is it an HTML element of one of the given tags? -/
def OpenElement.isHtmlIn (element : OpenElement) (tags : List String) : Bool :=
  element.name.vocabulary == .html && element.name.name ∈ tags

/-- An entry in the list of formatting elements. Markers bound the searches in the list. -/
inductive FormattingEntry where
  | marker
  | element (id : Nat) (tag : Tag)
  deriving Inhabited

/-- The number of a formatting element. -/
def FormattingEntry.id? : FormattingEntry → Option Nat
  | marker => none
  | element id _ => some id

/-- What kind of content is being read. -/
inductive Mode where
  | body
  | text
  | table
  | tableText
  | caption
  | columnGroup
  | tableBody
  | row
  | cell
  | select
  | selectInTable
  | template
  deriving DecidableEq, Inhabited

/-- The state of the construction of a fragment. -/
structure Builder where
  /-- The wrapper with everything below it. -/
  tree : Dom
  /-- The number of the next element. -/
  nextId : Nat
  /-- The open elements, the innermost first. -/
  stack : List OpenElement
  /-- The formatting elements, the latest first. -/
  formatting : List FormattingEntry
  mode : Mode
  /-- The mode to return to after a text. -/
  outerMode : Mode
  /-- The modes of the open templates, the innermost first. -/
  templateModes : List Mode
  /-- The form that is open. -/
  form : Option Nat
  /-- Text directly in a table, which is yet to be placed. -/
  tableText : List Char
  /-- Is a line feed at the start of the next text dropped? -/
  dropLineFeed : Bool
  /-- Is content that cannot stand in a table placed before it? -/
  fostering : Bool
  /-- How the text to come is read. -/
  reading : Reading

namespace Builder

/-! ## Names -/

/-- Headings. -/
def headingTags : List String := ["h1", "h2", "h3", "h4", "h5", "h6"]

/-- The HTML elements that bound every search in the stack. -/
def scopeTags : List String :=
  ["applet", "caption", "html", "table", "td", "th", "marquee", "object", "template"]

/-- The elements that an end tag of another element closes. -/
def impliedTags : List String :=
  ["dd", "dt", "li", "optgroup", "option", "p", "rb", "rp", "rt", "rtc"]

/-- The elements that the end of a template closes. -/
def templateImpliedTags : List String :=
  impliedTags ++
    ["caption", "colgroup", "tbody", "td", "tfoot", "th", "thead", "tr"]

/-- The elements that are no mere phrases. -/
def specialTags : List String :=
  ["address", "applet", "area", "article", "aside", "base", "basefont", "bgsound", "blockquote",
    "body", "br", "button", "caption", "center", "col", "colgroup", "dd", "details", "dir",
    "div", "dl", "dt", "embed", "fieldset", "figcaption", "figure", "footer", "form", "frame",
    "frameset", "h1", "h2", "h3", "h4", "h5", "h6", "head", "header", "hgroup", "hr", "html",
    "iframe", "img", "input", "isindex", "li", "link", "listing", "main", "marquee", "menu",
    "meta", "nav", "noembed", "noframes", "noscript", "object", "ol", "p", "param", "plaintext",
    "pre", "script", "section", "select", "source", "style", "summary", "table", "tbody", "td",
    "template", "textarea", "tfoot", "th", "thead", "title", "tr", "track", "ul", "wbr", "xmp"]

/-- A set of elements that bounds a search in the stack. -/
abbrev Scope := OpenElement → Bool

/-- The bounds of most searches. -/
def defaultScope : Scope := fun element ↦
  element.isHtmlIn scopeTags || Foreign.holdsText element.name || Foreign.holdsHtml element.name

/-- The bounds of the search for a list item. -/
def listItemScope : Scope := fun element ↦ defaultScope element || element.isHtmlIn ["ol", "ul"]

/-- The bounds of the search for a paragraph. -/
def buttonScope : Scope := fun element ↦ defaultScope element || element.isHtml "button"

/-- The bounds of the search for parts of a table. -/
def tableScope : Scope := fun element ↦ element.isHtmlIn ["html", "table", "template"]

/-- The bounds of the search for a selection. -/
def selectScope : Scope := fun element ↦ !element.isHtmlIn ["optgroup", "option"]

/-! ## Searching the stack -/

/-- Is an element with the property open, with no bound above it? -/
def findInScope (scope : Scope) (wanted : OpenElement → Bool) : List OpenElement → Bool
  | [] => false
  | element :: below => wanted element || (!scope element && findInScope scope wanted below)

/-- Is an element with the property open within the scope? -/
def inScopeWhere (b : Builder) (scope : Scope) (wanted : OpenElement → Bool) : Bool :=
  findInScope scope wanted b.stack

/-- Is an HTML element of the tag open within the scope? -/
def inScope (b : Builder) (scope : Scope) (tag : String) : Bool :=
  b.inScopeWhere scope (·.isHtml tag)

/-- Is an HTML element of the tag open? -/
def isOpen (b : Builder) (tag : String) : Bool :=
  b.stack.any (·.isHtml tag)

/-- The innermost open element. -/
def current (b : Builder) : OpenElement :=
  b.stack.headD ⟨0, ⟨.html, "html"⟩⟩

/-- Is the innermost open element the HTML element of the tag? -/
def currentIs (b : Builder) (tag : String) : Bool :=
  b.current.isHtml tag

/-! ## Closing elements -/

/-- Closes the innermost element. -/
def pop (b : Builder) : Builder :=
  { b with stack := b.stack.tail }

/-- Closes elements as long as they have the property. -/
def popWhile (b : Builder) (closes : OpenElement → Bool) : Builder :=
  { b with stack := b.stack.dropWhile closes }

/-- Closes elements up to one with the property, and that one too. -/
def popThrough (b : Builder) (last : OpenElement → Bool) : Builder :=
  { b with stack := (b.stack.dropWhile (!last ·)).tail }

/-- Closes elements up to the HTML element of the tag, and that one too. -/
def popTag (b : Builder) (tag : String) : Builder :=
  b.popThrough (·.isHtml tag)

/-- Closes the elements whose end tags are implied, except those of the given tags. -/
def closeImpliedExcept (b : Builder) (kept : List String) : Builder :=
  b.popWhile fun element ↦ element.isHtmlIn impliedTags && !element.isHtmlIn kept

/-- Closes the elements whose end tags are implied. -/
def closeImplied (b : Builder) : Builder :=
  b.closeImpliedExcept []

/-- Closes an open paragraph. -/
def closeParagraph (b : Builder) : Builder :=
  (b.closeImpliedExcept ["p"]).popTag "p"

/-- Closes a paragraph if one is open within its scope. -/
def closeOpenParagraph (b : Builder) : Builder :=
  if b.inScope buttonScope "p" then b.closeParagraph else b

/-- Takes one element out of the stack. -/
def removeOpen (b : Builder) (id : Nat) : Builder :=
  { b with stack := b.stack.filter (·.id != id) }

/-! ## Inserting nodes -/

/-- Where a node is put. -/
inductive Place where
  /-- Behind the other children of an element. -/
  | last (id : Nat)
  /-- Before a table, or else behind the children of the element below it in the stack. -/
  | beforeTable (table below : Nat)

/-- The number of the contents of a template, which come right after its own. -/
def contentsId (id : Nat) : Nat := id + 1

/-- The end of the children of an element, or of its contents if it is a template. -/
def Place.inside (element : OpenElement) : Place :=
  .last (if element.isHtml "template" then contentsId element.id else element.id)

/-- The place of content that cannot stand in a table. -/
def fosterPlace : List OpenElement → Place
  | [] => .last 0
  | element :: rest =>
    if element.isHtml "template" then Place.inside element
    else if element.isHtml "table" then .beforeTable element.id (rest.headD ⟨0, ⟨.html, "html"⟩⟩).id
    else fosterPlace rest

/-- The place of a node that belongs into the given element. -/
def placeIn (b : Builder) (target : OpenElement) : Place :=
  if b.fostering && target.isHtmlIn ["table", "tbody", "tfoot", "thead", "tr"] then
    fosterPlace b.stack
  else Place.inside target

/-- Puts a node at a place. -/
def insertAt (b : Builder) (place : Place) (node : Dom) : Builder :=
  let inLast (id : Nat) : Builder :=
    { b with tree := (b.tree.update? id (Dom.push node)).getD b.tree }
  match place with
  | .last id => inLast id
  | .beforeTable table below =>
    match Dom.insertBefore? table node b.tree with
    | some tree => { b with tree }
    | none => inLast below

/-- Adds a text to the innermost element. -/
def appendText (b : Builder) (text : List Char) : Builder :=
  if text.isEmpty then b else b.insertAt (b.placeIn b.current) (.text text)

/-- Adds a comment to the innermost element. -/
def appendComment (b : Builder) : Builder :=
  b.insertAt (b.placeIn b.current) .comment

/-- Adds an element, which is the current one from then on if it is `opened`. Templates come with
their contents. -/
def insertElement (b : Builder) (opened : Bool) (name : ElementName)
    (attributes : List Attribute) : Builder :=
  let id := b.nextId
  let children := if name = ⟨.html, "template"⟩ then [Dom.contents (contentsId id) []] else []
  let b := b.insertAt (b.placeIn b.current) (.element id name attributes children)
  { b with
    nextId := id + 2
    stack := if opened then ⟨id, name⟩ :: b.stack else b.stack }

/-- The attributes of an HTML element. -/
def htmlAttributes (tag : Tag) : List Attribute :=
  tag.attributes.map fun entry ↦ ⟨none, entry.1, entry.2⟩

/-- Opens an HTML element. -/
def openHtml (b : Builder) (tag : Tag) : Builder :=
  b.insertElement true ⟨.html, tag.name⟩ (htmlAttributes tag)

/-- Opens an HTML element without attributes. -/
def openTag (b : Builder) (name : String) : Builder :=
  b.openHtml ⟨name, [], false⟩

/-- Adds an HTML element that is closed at once. -/
def addHtml (b : Builder) (tag : Tag) : Builder :=
  b.insertElement false ⟨.html, tag.name⟩ (htmlAttributes tag)

/-- Opens an HTML element that holds only text. -/
def openText (b : Builder) (tag : Tag) (reading : Reading) : Builder :=
  { b.openHtml tag with outerMode := b.mode, mode := .text, reading }

/-- Opens an element of SVG or MathML. -/
def openForeign (b : Builder) (vocabulary : Vocabulary) (tag : Tag) : Builder :=
  b.insertElement (!tag.selfClosing) ⟨vocabulary, Foreign.tagName vocabulary tag.name⟩
    (tag.attributes.map (Foreign.attributeOf vocabulary))

/-! ## Formatting elements -/

/-- The formatting elements after the last marker. -/
def recentFormatting (b : Builder) : List FormattingEntry :=
  b.formatting.takeWhile fun entry ↦ entry.id?.isSome

/-- Puts a marker into the list of formatting elements. -/
def pushMarker (b : Builder) : Builder :=
  { b with formatting := .marker :: b.formatting }

/-- Drops the formatting elements up to the last marker, and the marker. -/
def clearToMarker (b : Builder) : Builder :=
  { b with formatting := (b.formatting.dropWhile fun entry ↦ entry.id?.isSome).tail }

/-- Takes an element out of the list of formatting elements. -/
def removeFormatting (b : Builder) (id : Nat) : Builder :=
  { b with formatting := b.formatting.filter (·.id? != some id) }

/-- Is the element in the list of formatting elements? -/
def isFormatting (b : Builder) (id : Nat) : Bool :=
  b.formatting.any (·.id? == some id)

/-- Have two tags the same name and the same attributes in any order? -/
def sameTag (a b : Tag) : Bool :=
  a.name == b.name && a.attributes.length == b.attributes.length &&
    a.attributes.all (b.attributes.contains ·)

/-- Is a formatting element closed, and no marker? -/
def isClosedFormatting (b : Builder) (entry : FormattingEntry) : Bool :=
  match entry.id? with
  | none => false
  | some id => !b.stack.any (·.id == id)

/-- Opens formatting elements again, the earliest first. Gives their new entries, the latest
first. -/
def reopen (b : Builder) : List FormattingEntry → List FormattingEntry → Builder
  | done, [] => { b with formatting := done }
  | done, .marker :: rest => reopen b (.marker :: done) rest
  | done, .element _ tag :: rest =>
    reopen (b.openHtml tag) (.element b.nextId tag :: done) rest

/-- Opens again the formatting elements that other elements have closed. -/
def reopenFormatting (b : Builder) : Builder :=
  let closed := b.formatting.takeWhile b.isClosedFormatting
  b.reopen (b.formatting.drop closed.length) closed.reverse

/-- Opens a formatting element. Of more than three equal ones the earliest is forgotten. -/
def openFormatting (b : Builder) (tag : Tag) : Builder :=
  let equal := b.recentFormatting.filter fun entry ↦
    match entry with
    | .element _ other => sameTag tag other
    | .marker => false
  let b :=
    if 3 ≤ equal.length then
      match equal.getLast? with
      | some (.element id _) => b.removeFormatting id
      | _ => b
    else b
  let id := b.nextId
  let b := b.openHtml tag
  { b with formatting := .element id tag :: b.formatting }

/-! ## Closing formatting elements -/

/-- Closes an element that is no special one: everything above it is closed with it. A special
element on the way makes the end tag void. -/
def closeOrdinary (b : Builder) (name : String) : Builder :=
  let rec search : List OpenElement → Option Nat
    | [] => none
    | element :: below =>
      if element.isHtml name then some below.length
      else if element.isHtmlIn specialTags then none
      else search below
  match search b.stack with
  | none => b
  | some depth =>
    let b := b.closeImpliedExcept [name]
    { b with stack := b.stack.drop (b.stack.length - depth) }

/-- The state of the walk from the furthest block down to the formatting element. -/
structure Walk where
  builder : Builder
  /-- The open elements that stay above the formatting element, the lowest first. -/
  kept : List OpenElement
  /-- The tree that is passed down. -/
  subtree : Dom
  /-- The entry after which the new formatting element goes. -/
  bookmark : Option Nat

/-- Walks over the open elements between the furthest block and the formatting element, the
innermost first. Those that are formatting elements are renewed around the tree that is passed
down, the others are closed. The number counts the elements passed. -/
def walkDown : Nat → Walk → List OpenElement → Walk
  | _, walk, [] => walk
  | passed, walk, element :: below =>
    let b := walk.builder
    let found? := b.formatting.find? (·.id? == some element.id)
    match found? with
    | some (.element _ tag) =>
      if 3 ≤ passed then
        walkDown (passed + 1) { walk with builder := b.removeFormatting element.id } below
      else
        let id := b.nextId
        let name : ElementName := ⟨.html, tag.name⟩
        let renamed := b.formatting.map fun entry ↦
          if entry.id? == some element.id then .element id tag else entry
        let subtree := Dom.element id name (htmlAttributes tag) [walk.subtree]
        walkDown (passed + 1)
          { builder := { b with nextId := id + 2, formatting := renamed }
            kept := ⟨id, name⟩ :: walk.kept
            subtree
            bookmark := walk.bookmark <|> some id } below
    | _ => walkDown (passed + 1) walk below

/-- Moves the children of the furthest block into a renewed formatting element below it. -/
def wrapChildren (id new : Nat) (tag : Tag) (tree : Dom) : Dom :=
  (tree.update? id fun children ↦
    [Dom.element new ⟨.html, tag.name⟩ (htmlAttributes tag) children]).getD tree

/-- Puts an entry into the list of formatting elements in place of the one with the number, or
right after another one that is named by the bookmark. -/
def replaceFormatting (old : Nat) (bookmark : Option Nat) (new : FormattingEntry)
    (entries : List FormattingEntry) : List FormattingEntry :=
  match bookmark with
  | none => entries.map fun entry ↦ if entry.id? == some old then new else entry
  | some mark =>
    (entries.flatMap fun entry ↦ if entry.id? == some mark then [new, entry] else [entry]).filter
      (·.id? != some old)

/-- Moves the furthest block behind the children of the element below the formatting element, after
the walk between the two. The formatting element is closed, and a new one of its tag is opened
inside the block. The elements above the block and those below the formatting element stay open. -/
def moveBlock (walk : Walk) (id : Nat) (tag : Tag) (block : OpenElement)
    (above below : List OpenElement) : Builder :=
  -- The tree that is passed down may hold elements that move on the way.
  let b := walk.builder
  let target := below.headD ⟨0, ⟨.html, "html"⟩⟩
  let stack := above ++ block :: walk.kept.reverse ++ (b.stack.dropWhile (·.id != id))
  let b := { b with stack }
  let b := b.insertAt (b.placeIn target) walk.subtree
  let new := b.nextId
  let b := { b with
    nextId := new + 2
    tree := wrapChildren block.id new tag b.tree
    formatting := replaceFormatting id walk.bookmark (.element new tag) b.formatting }
  let b := b.removeOpen id
  let stack := b.stack.flatMap fun element ↦
    if element.id == block.id then [⟨new, ⟨.html, tag.name⟩⟩, element] else [element]
  { b with stack }

/-- One round of closing a formatting element that other elements are nested in wrongly. Nothing
if there is no further round. -/
def adoptOnce (b : Builder) (name : String) : Builder × Bool :=
  let found? := b.recentFormatting.find? fun entry ↦
    match entry with
    | .element _ tag => tag.name == name
    | .marker => false
  match found? with
  | some (.element id tag) =>
    if !b.stack.any (·.id == id) then (b.removeFormatting id, false)
    else if !b.inScopeWhere defaultScope (·.id == id) then (b, false)
    else
      let above := b.stack.takeWhile (·.id != id)
      let below := (b.stack.dropWhile (·.id != id)).tail
      -- The furthest block is the special element nearest to the formatting element.
      match above.reverse.find? (·.isHtmlIn specialTags) with
      | none => ({ (b.removeFormatting id) with stack := below }, false)
      | some block =>
        let top := above.takeWhile (·.id != block.id)
        let between := (above.dropWhile (·.id != block.id)).tail
        match b.tree.detach? block.id with
        | none => (b, false)
        | some (subtree, tree) =>
          let walk := walkDown 0 ⟨{ b with tree }, [], subtree, none⟩ between
          (moveBlock walk id tag block top below, true)
  | _ => (b.closeOrdinary name, false)

/-- At most the given number of rounds. -/
def adopt : Nat → String → Builder → Builder
  | 0, _, b => b
  | rounds + 1, name, b =>
    match b.adoptOnce name with
    | (b, true) => adopt rounds name b
    | (b, false) => b

/-- Closes a formatting element, also when elements are nested in it wrongly: its part inside the
furthest block above it is renewed there. -/
def closeFormatting (b : Builder) (name : String) : Builder :=
  if b.currentIs name && !b.isFormatting b.current.id then b.pop
  else adopt 8 name b

/-- Closes a link before another one is opened. -/
def closeOpenLink (b : Builder) : Builder :=
  let found? := b.recentFormatting.find? fun entry ↦
    match entry with
    | .element _ tag => tag.name == "a"
    | .marker => false
  match found? with
  | some (.element id _) => ((b.closeFormatting "a").removeFormatting id).removeOpen id
  | _ => b

/-! ## Modes -/

/-- The mode that the open elements ask for. -/
def modeOf (templateModes : List Mode) : List OpenElement → Mode
  | [] => .body
  | [_] => .body
  | element :: below =>
    if element.isHtml "select" then
      let inTable := (below.takeWhile (!·.isHtml "template")).any (·.isHtml "table")
      if inTable then .selectInTable else .select
    else if element.isHtmlIn ["td", "th"] then .cell
    else if element.isHtml "tr" then .row
    else if element.isHtmlIn ["tbody", "thead", "tfoot"] then .tableBody
    else if element.isHtml "caption" then .caption
    else if element.isHtml "colgroup" then .columnGroup
    else if element.isHtml "table" then .table
    else if element.isHtml "template" then templateModes.headD .body
    else if element.isHtmlIn ["head", "body", "frameset"] then .body
    else modeOf templateModes below

/-- Sets the mode that the open elements ask for. -/
def resetMode (b : Builder) : Builder :=
  { b with mode := modeOf b.templateModes b.stack }

/-- Sets the mode. -/
def withMode (b : Builder) (mode : Mode) : Builder :=
  { b with mode }

/-- The builder of an empty fragment. -/
def empty : Builder where
  tree := .element 0 ⟨.html, "html"⟩ [] []
  nextId := 1
  stack := [⟨0, ⟨.html, "html"⟩⟩]
  formatting := []
  mode := .body
  outerMode := .body
  templateModes := []
  form := none
  tableText := []
  dropLineFeed := false
  fostering := false
  reading := .markup

end Builder

end NotebookTree.Html
