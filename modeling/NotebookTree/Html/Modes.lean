import NotebookTree.Html.Builder

/-!
# How each mode treats a token

For each mode there is a function that takes a token and says either that the token is dealt with
or that it is to be treated again, as the mode or the open elements have changed. Content of SVG
and MathML elements has rules of its own, whatever the mode.

Only what stands in a fragment inside a body is treated: tags of `html`, `head`, `body` and frames
have no effect.
-/

namespace NotebookTree.Html

/-- What became of a token. -/
inductive Outcome where
  /-- The token is dealt with. -/
  | done (builder : Builder)
  /-- The token, or what is left of it, is treated again. -/
  | again (builder : Builder) (token : Token)

namespace Builder

/-- Characters that are blanks in a table. -/
def isTableBlank (c : Char) : Bool := Text.isAsciiBlank c

/-! ## Tags that are treated alike in several modes -/

/-- The tags that are treated as in a document head. -/
def headTags : List String :=
  ["base", "basefont", "bgsound", "link", "meta", "noframes", "script", "style", "template",
    "title"]

/-- Does a template hold the contents of its parent element, instead of contents of its own? It
may do so inside another element of the fragment. -/
def isShadow (b : Builder) (tag : Tag) : Bool :=
  tag.attributes.any (fun entry ↦ entry.1 == "shadowrootmode" && entry.2 ∈ ["open", "close"]) &&
    1 < b.stack.length

/-- Treats an opening tag as in a document head. -/
def headStart (b : Builder) (tag : Tag) : Builder :=
  if tag.name ∈ ["base", "basefont", "bgsound", "link", "meta"] then b.addHtml tag
  else if tag.name = "title" then b.openText tag (.escapable "title")
  else if tag.name ∈ ["noframes", "style"] then b.openText tag (.raw tag.name)
  else if tag.name = "script" then b.openText tag .script
  else if tag.name = "template" then
    let b := (if b.isShadow tag then b else b.openHtml tag).pushMarker
    { b with mode := .template, templateModes := .template :: b.templateModes }
  else b

/-- Treats the end tag of a template. -/
def templateEnd (b : Builder) : Builder :=
  if b.isOpen "template" then
    let b := b.popWhile (·.isHtmlIn templateImpliedTags)
    let b := (b.popTag "template").clearToMarker
    { b with templateModes := b.templateModes.tail }.resetMode
  else b

/-- Is it an input that is not shown? -/
def isHiddenInput (tag : Tag) : Bool :=
  match tag.attributes.lookup "type" with
  | some value => Text.lowerAsciiString value == "hidden"
  | none => false

/-! ## Body -/

/-- The blocks that are closed by an end tag of their own and close a paragraph. -/
def blockTags : List String :=
  ["address", "article", "aside", "blockquote", "center", "details", "dialog", "dir", "div",
    "dl", "fieldset", "figcaption", "figure", "footer", "header", "hgroup", "main", "menu",
    "nav", "ol", "p", "search", "section", "summary", "ul"]

/-- The end tags of blocks. -/
def blockEndTags : List String :=
  ["address", "article", "aside", "blockquote", "button", "center", "details", "dialog", "dir",
    "div", "dl", "fieldset", "figcaption", "figure", "footer", "header", "hgroup", "listing",
    "main", "menu", "nav", "ol", "pre", "search", "section", "summary", "ul"]

/-- The formatting elements but links and `nobr`. -/
def phraseTags : List String :=
  ["b", "big", "code", "em", "font", "i", "s", "small", "strike", "strong", "tt", "u"]

/-- Closes an open list item or definition before another one is opened. -/
def closeItem (b : Builder) (names : List String) : Builder :=
  let rec search : List OpenElement → Option String
    | [] => none
    | element :: below =>
      if element.isHtmlIn names then some element.name.name
      else if element.isHtmlIn specialTags && !element.isHtmlIn ["address", "div", "p"] then none
      else search below
  match search b.stack with
  | some name => (b.closeImpliedExcept [name]).popTag name
  | none => b

/-- Closes an element within the scope, with all that its end implies. -/
def closeInScope (b : Builder) (scope : Scope) (name : String) : Builder :=
  if b.inScope scope name then b.closeImplied.popTag name else b

/-- Treats an opening tag in a body. -/
def bodyStart (b : Builder) (tag : Tag) : Builder :=
  let name := tag.name
  if name ∈ headTags then b.headStart tag
  else if name ∈ ["html", "body", "frameset", "caption", "col", "colgroup", "frame", "head",
      "tbody", "td", "tfoot", "th", "thead", "tr"] then b
  else if name ∈ blockTags then b.closeOpenParagraph.openHtml tag
  else if name ∈ headingTags then
    let b := b.closeOpenParagraph
    let b := if b.current.isHtmlIn headingTags then b.pop else b
    b.openHtml tag
  else if name ∈ ["pre", "listing"] then
    { b.closeOpenParagraph.openHtml tag with dropLineFeed := true }
  else if name = "form" then
    if b.form.isSome && !b.isOpen "template" then b
    else
      let b := b.closeOpenParagraph
      let id := b.nextId
      let b := b.openHtml tag
      if b.isOpen "template" then b else { b with form := some id }
  else if name = "li" then (b.closeItem ["li"]).closeOpenParagraph.openHtml tag
  else if name ∈ ["dd", "dt"] then (b.closeItem ["dd", "dt"]).closeOpenParagraph.openHtml tag
  else if name = "plaintext" then { b.closeOpenParagraph.openHtml tag with reading := .plain }
  else if name = "button" then (b.closeInScope defaultScope "button").reopenFormatting.openHtml tag
  else if name = "a" then b.closeOpenLink.reopenFormatting.openFormatting tag
  else if name ∈ phraseTags then b.reopenFormatting.openFormatting tag
  else if name = "nobr" then
    let b := b.reopenFormatting
    let b :=
      if b.inScope defaultScope "nobr" then (b.closeFormatting "nobr").reopenFormatting else b
    b.openFormatting tag
  else if name ∈ ["applet", "marquee", "object"] then
    (b.reopenFormatting.openHtml tag).pushMarker
  else if name = "table" then { b.closeOpenParagraph.openHtml tag with mode := .table }
  else if name ∈ ["area", "br", "embed", "img", "keygen", "wbr", "input"] then
    b.reopenFormatting.addHtml tag
  else if name ∈ ["param", "source", "track"] then b.addHtml tag
  else if name = "hr" then b.closeOpenParagraph.addHtml tag
  else if name = "image" then b.reopenFormatting.addHtml { tag with name := "img" }
  else if name = "textarea" then
    { b.openText tag (.escapable name) with dropLineFeed := true }
  else if name = "xmp" then b.closeOpenParagraph.reopenFormatting.openText tag (.raw name)
  else if name ∈ ["iframe", "noembed", "noscript"] then b.openText tag (.raw name)
  else if name = "select" then
    let inTable := b.mode ∈ [Mode.table, .caption, .tableBody, .row, .cell]
    { b.reopenFormatting.openHtml tag with mode := if inTable then .selectInTable else .select }
  else if name ∈ ["optgroup", "option"] then
    let b := if b.currentIs "option" then b.pop else b
    b.reopenFormatting.openHtml tag
  else if name ∈ ["rb", "rtc"] then
    (if b.inScope defaultScope "ruby" then b.closeImplied else b).openHtml tag
  else if name ∈ ["rp", "rt"] then
    (if b.inScope defaultScope "ruby" then b.closeImpliedExcept ["rtc"] else b).openHtml tag
  else if name = "math" then b.reopenFormatting.openForeign .mathml tag
  else if name = "svg" then b.reopenFormatting.openForeign .svg tag
  else b.reopenFormatting.openHtml tag

/-- Treats the end tag of a form. -/
def formEnd (b : Builder) : Builder :=
  if b.isOpen "template" then b.closeInScope defaultScope "form"
  else
    match b.form with
    | none => b
    | some id =>
      let b := { b with form := none }
      if b.inScopeWhere defaultScope (·.id == id) then b.closeImplied.removeOpen id else b

/-- Treats an end tag in a body. -/
def bodyEnd (b : Builder) (name : String) : Builder :=
  if name = "template" then b.templateEnd
  else if name ∈ ["body", "html"] then b
  else if name ∈ blockEndTags then b.closeInScope defaultScope name
  else if name = "form" then b.formEnd
  else if name = "p" then
    (if b.inScope buttonScope "p" then b else b.openTag "p").closeParagraph
  else if name ∈ ["li", "dd", "dt"] then
    if b.inScope (if name = "li" then listItemScope else defaultScope) name then
      (b.closeImpliedExcept [name]).popTag name
    else b
  else if name ∈ headingTags then
    if b.inScopeWhere defaultScope (·.isHtmlIn headingTags) then
      b.closeImplied.popThrough (·.isHtmlIn headingTags)
    else b
  else if name = "a" ∨ name = "nobr" ∨ name ∈ phraseTags then b.closeFormatting name
  else if name ∈ ["applet", "marquee", "object"] then
    if b.inScope defaultScope name then (b.closeInScope defaultScope name).clearToMarker else b
  else if name = "br" then b.reopenFormatting.addHtml ⟨"br", [], false⟩
  else b.closeOrdinary name

/-- Treats a token in a body. -/
def inBody (b : Builder) : Token → Builder
  | .characters text => b.reopenFormatting.appendText text
  | .comment => b.appendComment
  | .startTag tag => b.bodyStart tag
  | .endTag name => b.bodyEnd name
  | .nullCharacter | .doctype | .fault => b

/-- Treats a token in a body, where content that cannot stand in a table goes before it. -/
def inBodyFostering (b : Builder) (token : Token) : Builder :=
  { ({ b with fostering := true }.inBody token) with fostering := false }

/-! ## Tables -/

/-- Closes elements up to one of the given tags. -/
def popBackTo (b : Builder) (tags : List String) : Builder :=
  b.popWhile (!·.isHtmlIn tags)

/-- Closes elements up to the table. -/
def backToTable (b : Builder) : Builder := b.popBackTo ["table", "template", "html"]

/-- Closes elements up to the section of the table. -/
def backToSection (b : Builder) : Builder :=
  b.popBackTo ["tbody", "tfoot", "thead", "template", "html"]

/-- Closes elements up to the row of the table. -/
def backToRow (b : Builder) : Builder := b.popBackTo ["tr", "template", "html"]

/-- Treats a token in a table. -/
def inTable (b : Builder) (token : Token) : Outcome :=
  match token with
  | .characters _ | .nullCharacter =>
    if b.current.isHtmlIn ["table", "tbody", "template", "tfoot", "thead", "tr"] then
      .again { b with outerMode := b.mode, mode := .tableText, tableText := [] } token
    else .done (b.inBodyFostering token)
  | .comment => .done b.appendComment
  | .doctype | .fault => .done b
  | .startTag tag =>
    if tag.name = "caption" then
      .done ((b.backToTable.pushMarker.openHtml tag).withMode .caption)
    else if tag.name = "colgroup" then
      .done ((b.backToTable.openHtml tag).withMode .columnGroup)
    else if tag.name = "col" then
      .again ((b.backToTable.openTag "colgroup").withMode .columnGroup) token
    else if tag.name ∈ ["tbody", "tfoot", "thead"] then
      .done ((b.backToTable.openHtml tag).withMode .tableBody)
    else if tag.name ∈ ["td", "th", "tr"] then
      .again ((b.backToTable.openTag "tbody").withMode .tableBody) token
    else if tag.name = "table" then
      if b.inScope tableScope "table" then .again (b.popTag "table").resetMode token else .done b
    else if tag.name ∈ ["style", "script", "template"] then .done (b.headStart tag)
    else if tag.name = "input" && isHiddenInput tag then .done (b.addHtml tag)
    else if tag.name = "form" then
      if b.isOpen "template" || b.form.isSome then .done b
      else .done { b.addHtml tag with form := some b.nextId }
    else .done (b.inBodyFostering token)
  | .endTag name =>
    if name = "table" then
      if b.inScope tableScope "table" then .done (b.popTag "table").resetMode else .done b
    else if name ∈ ["body", "caption", "col", "colgroup", "html", "tbody", "td", "tfoot", "th",
        "thead", "tr"] then .done b
    else if name = "template" then .done b.templateEnd
    else .done (b.inBodyFostering token)

/-- Places the text that was found directly in a table: blanks stay in it, other text goes before
it. -/
def placeTableText (b : Builder) : Builder :=
  let text := b.tableText
  let b := { b with tableText := [], mode := b.outerMode }
  if text.isEmpty then b
  else if text.all isTableBlank then b.appendText text
  else b.inBodyFostering (.characters text)

/-- Treats a token after text directly in a table. -/
def inTableText (b : Builder) (token : Token) : Outcome :=
  match token with
  | .characters text => .done { b with tableText := b.tableText ++ text }
  | .nullCharacter => .done b
  | _ => .again b.placeTableText token

/-- Treats a token in the caption of a table. -/
def inCaption (b : Builder) (token : Token) : Outcome :=
  let closed : Builder := (b.closeInScope tableScope "caption").clearToMarker.withMode .table
  match token with
  | .startTag tag =>
    if tag.name ∈ ["caption", "col", "colgroup", "tbody", "td", "tfoot", "th", "thead", "tr"] then
      if b.inScope tableScope "caption" then .again closed token else .done b
    else .done (b.inBody token)
  | .endTag name =>
    if name = "caption" then
      if b.inScope tableScope "caption" then .done closed else .done b
    else if name = "table" then
      if b.inScope tableScope "caption" then .again closed token else .done b
    else if name ∈ ["body", "col", "colgroup", "html", "tbody", "td", "tfoot", "th", "thead",
        "tr"] then .done b
    else .done (b.inBody token)
  | _ => .done (b.inBody token)

/-- Treats a token in a group of columns. -/
def inColumnGroup (b : Builder) (token : Token) : Outcome :=
  let leave (b : Builder) (token : Token) : Outcome :=
    if b.currentIs "colgroup" then .again (b.pop.withMode .table) token else .done b
  match token with
  | .characters text =>
    if b.currentIs "colgroup" then
      let b := b.appendText (text.takeWhile isTableBlank)
      let rest := text.dropWhile isTableBlank
      if rest.isEmpty then .done b else leave b (.characters rest)
    else .done (b.appendText (text.filter isTableBlank))
  | .comment => .done b.appendComment
  | .startTag tag =>
    if tag.name = "html" then .done b
    else if tag.name = "col" then .done (b.addHtml tag)
    else if tag.name = "template" then .done (b.headStart tag)
    else leave b token
  | .endTag name =>
    if name = "colgroup" then
      if b.currentIs "colgroup" then .done (b.pop.withMode .table) else .done b
    else if name = "col" then .done b
    else if name = "template" then .done b.templateEnd
    else leave b token
  | _ => leave b token

/-- Treats a token in a section of a table. -/
def inTableBody (b : Builder) (token : Token) : Outcome :=
  let leave : Outcome :=
    if b.inScopeWhere tableScope (·.isHtmlIn ["table", "tbody", "tfoot"]) then
      .again (b.backToSection.pop.withMode .table) token
    else .done b
  match token with
  | .startTag tag =>
    if tag.name = "tr" then .done ((b.backToSection.openHtml tag).withMode .row)
    else if tag.name ∈ ["th", "td"] then
      .again ((b.backToSection.openTag "tr").withMode .row) token
    else if tag.name ∈ ["caption", "col", "colgroup", "tbody", "tfoot", "thead"] then leave
    else b.inTable token
  | .endTag name =>
    if name ∈ ["tbody", "tfoot", "thead"] then
      if b.inScope tableScope name then .done (b.backToSection.pop.withMode .table) else .done b
    else if name = "table" then leave
    else if name ∈ ["body", "caption", "col", "colgroup", "html", "td", "th", "tr"] then .done b
    else b.inTable token
  | _ => b.inTable token

/-- Treats a token in a row of a table. -/
def inRow (b : Builder) (token : Token) : Outcome :=
  let left : Builder := b.backToRow.pop.withMode .tableBody
  let hasRow := b.inScope tableScope "tr"
  match token with
  | .startTag tag =>
    if tag.name ∈ ["th", "td"] then
      .done ((b.backToRow.openHtml tag).withMode .cell).pushMarker
    else if tag.name ∈ ["caption", "col", "colgroup", "tbody", "tfoot", "thead", "tr"] then
      if hasRow then .again left token else .done b
    else b.inTable token
  | .endTag name =>
    if name = "tr" then
      if hasRow then .done left else .done b
    else if name = "table" then
      if hasRow then .again left token else .done b
    else if name ∈ ["tbody", "tfoot", "thead"] then
      if b.inScope tableScope name && hasRow then .again left token else .done b
    else if name ∈ ["body", "caption", "col", "colgroup", "html", "td", "th"] then .done b
    else b.inTable token
  | _ => b.inTable token

/-- Closes a cell of a table. -/
def closeCell (b : Builder) : Builder :=
  ((b.closeImplied.popThrough (·.isHtmlIn ["td", "th"])).clearToMarker).withMode .row

/-- Treats a token in a cell of a table. -/
def inCell (b : Builder) (token : Token) : Outcome :=
  match token with
  | .startTag tag =>
    if tag.name ∈ ["caption", "col", "colgroup", "tbody", "td", "tfoot", "th", "thead", "tr"] then
      if b.inScopeWhere tableScope (·.isHtmlIn ["td", "th"]) then .again b.closeCell token
      else .done b
    else .done (b.inBody token)
  | .endTag name =>
    if name ∈ ["td", "th"] then
      if b.inScope tableScope name then
        .done ((b.closeInScope tableScope name).clearToMarker.withMode .row)
      else .done b
    else if name ∈ ["body", "caption", "col", "colgroup", "html"] then .done b
    else if name ∈ ["table", "tbody", "tfoot", "thead", "tr"] then
      if b.inScope tableScope name then .again b.closeCell token else .done b
    else .done (b.inBody token)
  | _ => .done (b.inBody token)

/-! ## Selections, templates and text -/

/-- Treats a token in a selection. -/
def inSelect (b : Builder) (token : Token) : Outcome :=
  let closed : Builder := (b.popTag "select").resetMode
  let isIn := b.inScope selectScope "select"
  match token with
  | .characters text => .done (b.appendText text)
  | .comment => .done b.appendComment
  | .startTag tag =>
    let b := if tag.name ∈ ["option", "optgroup", "hr"] && b.currentIs "option" then b.pop else b
    let b := if tag.name ∈ ["optgroup", "hr"] && b.currentIs "optgroup" then b.pop else b
    if tag.name ∈ ["option", "optgroup"] then .done (b.openHtml tag)
    else if tag.name = "hr" then .done (b.addHtml tag)
    else if tag.name = "select" then
      if isIn then .done closed else .done b
    else if tag.name ∈ ["input", "keygen", "textarea"] then
      if isIn then .again closed token else .done b
    else if tag.name ∈ ["script", "template"] then .done (b.headStart tag)
    else .done b
  | .endTag name =>
    if name = "optgroup" then
      let inGroup := match b.stack with
        | option :: group :: _ => option.isHtml "option" && group.isHtml "optgroup"
        | _ => false
      let b := if inGroup then b.pop else b
      if b.currentIs "optgroup" then .done b.pop else .done b
    else if name = "option" then
      if b.currentIs "option" then .done b.pop else .done b
    else if name = "select" then
      if isIn then .done closed else .done b
    else if name = "template" then .done b.templateEnd
    else .done b
  | .nullCharacter | .doctype | .fault => .done b

/-- Treats a token in a selection inside a table. -/
def inSelectInTable (b : Builder) (token : Token) : Outcome :=
  let tableTags := ["caption", "table", "tbody", "tfoot", "thead", "tr", "td", "th"]
  let closed : Builder := (b.popTag "select").resetMode
  match token with
  | .startTag tag => if tag.name ∈ tableTags then .again closed token else b.inSelect token
  | .endTag name =>
    if name ∈ tableTags then
      if b.inScope tableScope name then .again closed token else .done b
    else b.inSelect token
  | _ => b.inSelect token

/-- Treats a token directly in a template, whose content may be of any kind. -/
def inTemplate (b : Builder) (token : Token) : Outcome :=
  let become (mode : Mode) : Outcome :=
    .again { b with mode, templateModes := mode :: b.templateModes.tail } token
  match token with
  | .startTag tag =>
    if tag.name ∈ headTags then .done (b.headStart tag)
    else if tag.name ∈ ["caption", "colgroup", "tbody", "tfoot", "thead"] then become .table
    else if tag.name = "col" then become .columnGroup
    else if tag.name = "tr" then become .tableBody
    else if tag.name ∈ ["td", "th"] then become .row
    else become .body
  | .endTag name => if name = "template" then .done b.templateEnd else .done b
  | .characters _ | .comment => .done (b.inBody token)
  | .nullCharacter | .doctype | .fault => .done b

/-- Treats a token in an element that holds only text. -/
def inText (b : Builder) (token : Token) : Outcome :=
  match token with
  | .characters text => .done (b.appendText text)
  | .endTag _ => .done { b.pop with mode := b.outerMode, reading := .markup }
  | _ => .done b

/-- Treats a token in the mode of the builder. -/
def inMode (b : Builder) (token : Token) : Outcome :=
  match b.mode with
  | .body => .done (b.inBody token)
  | .text => b.inText token
  | .table => b.inTable token
  | .tableText => b.inTableText token
  | .caption => b.inCaption token
  | .columnGroup => b.inColumnGroup token
  | .tableBody => b.inTableBody token
  | .row => b.inRow token
  | .cell => b.inCell token
  | .select => b.inSelect token
  | .selectInTable => b.inSelectInTable token
  | .template => b.inTemplate token

/-! ## Foreign content -/

/-- Is the content of the current element foreign as regards the token? The wrapper of the fragment
is never foreign. -/
def isForeign (b : Builder) (token : Token) : Bool :=
  let name := b.current.name
  if name.vocabulary == .html then false
  else
    match token with
    | .characters _ | .nullCharacter => !(Foreign.holdsText name || Foreign.holdsHtml name)
    | .startTag tag =>
      !((Foreign.holdsText name && tag.name ∉ ["mglyph", "malignmark"]) ||
        Foreign.holdsHtml name ||
        (name = ⟨.mathml, "annotation-xml"⟩ && tag.name == "svg"))
    | _ => true

/-- Treats an end tag in foreign content: it closes the element of its name, in any case, unless an
HTML element is above that. -/
def foreignEnd (b : Builder) (name : String) : Outcome :=
  let rec search : List OpenElement → Bool → Option (Option (List OpenElement))
    | [], _ => some none
    | [_], _ => some none
    | element :: below, isFirst =>
      if !isFirst && element.name.vocabulary == .html then none
      else if Text.lowerAsciiString element.name.name == name then some (some below)
      else search below false
  match search b.stack true with
  | none => b.inMode (.endTag name)
  | some (some stack) => .done { b with stack }
  | some none => .done b

/-- Closes foreign elements up to one that may hold HTML. -/
def leaveForeign (b : Builder) : Builder :=
  b.popWhile fun element ↦
    !(element.name.vocabulary == .html || Foreign.holdsText element.name ||
      Foreign.holdsHtml element.name)

/-- Treats a token in foreign content. -/
def inForeign (b : Builder) (token : Token) : Outcome :=
  match token with
  | .nullCharacter => .done (b.appendText [Entity.replacement])
  | .characters text => .done (b.appendText text)
  | .comment => .done b.appendComment
  | .doctype | .fault => .done b
  | .startTag tag =>
    if Foreign.endsForeign tag then b.leaveForeign.inMode token
    else .done (b.openForeign b.current.name.vocabulary tag)
  | .endTag name =>
    if name ∈ ["br", "p"] then b.leaveForeign.inMode token else b.foreignEnd name

/-! ## Whole texts -/

/-- Treats a token until it is dealt with, at most `limit` times. -/
def settle : Nat → Builder → Token → Builder
  | 0, b, _ => b
  | limit + 1, b, token =>
    match if b.isForeign token then b.inForeign token else b.inMode token with
    | .done b => b
    | .again b token => settle limit b token

/-- Treats one token. Each time a token is treated again, an element has been closed or the mode
is a more general one. -/
def accept (b : Builder) (token : Token) : Builder :=
  let dropped := b.dropLineFeed
  let b := { b with dropLineFeed := false }
  let limit := 8 * b.stack.length + 16
  match token with
  | .characters ('\n' :: rest) =>
    if !dropped then settle limit b token
    else if rest.isEmpty then b
    else settle limit b (.characters rest)
  | .doctype | .fault => b
  | _ => settle limit b token

/-- Reads a text to its end, at most `limit` parts of it. -/
def readAll : Nat → Builder → List Char → Builder
  | 0, b, _ => b
  | _ + 1, b, [] => b
  | limit + 1, b, text =>
    let foreign := b.current.name.vocabulary != .html
    let (tokens, rest) := Token.read b.reading foreign text
    readAll limit (tokens.foldl accept b) rest

/-- Places what is left at the end of a text. -/
def atEnd (b : Builder) : Builder :=
  if b.mode == .tableText then b.placeTableText else b

end Builder

/-- The nodes that a fragment of HTML denotes. A byte order mark at its start is dropped. -/
def parseFragment (html : String) : List HtmlNode :=
  let text := match html.toList with
    | '\ufeff' :: rest => rest
    | text => text
  let text := normalizeLineEnds text
  match ((Builder.empty.readAll (text.length + 1) text).atEnd).tree.finish with
  | .element _ _ children => children
  | other => [other]

end NotebookTree.Html
