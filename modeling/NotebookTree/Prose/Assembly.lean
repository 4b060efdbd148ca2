import NotebookTree.CompileError
import NotebookTree.Markdown.Event
import NotebookTree.Prose.Draft
import NotebookTree.Text.Blank

/-!
# Drafts from events

`Draft.ofEvents` folds the events of a Markdown text into drafts. An `Assembly` holds a frame for
each open construct; a closing event makes an element of the innermost frame and adds it to the
frame around it. Events that close more than is open, or leave something open, are refused, and so
is a construct that would be nested too deep.
-/

namespace NotebookTree

open Markdown (Construct ConstructKind Event)

/-- What an open construct becomes. -/
inductive FrameKind where
  /-- Its contents, without an element around them. -/
  | transparent
  | element (tag : String) (attributes : Attributes)
  | code (language : Option String)
  | image (attributes : Attributes)
  | table
  | tableHead
  deriving Inhabited

/-- An open construct with its contents so far, the latest first. -/
structure Frame where
  kind : FrameKind
  children : List Draft
  deriving Inhabited

/-- The state of folding events. -/
structure Assembly where
  /-- The greatest number of open constructs. -/
  limit : Nat
  /-- The open constructs, the innermost first. -/
  frames : List Frame
  /-- The drafts outside all constructs, the latest first. -/
  top : List Draft
  /-- The alignments of the columns of the current table. -/
  alignments : List Markdown.Alignment
  /-- Is the current table row its head? -/
  inHead : Bool
  /-- The number of cells before the next one of its row. -/
  column : Nat

namespace Assembly

/-- Nothing is open at first. -/
def empty (limit : Nat) : Assembly := ⟨limit, [], [], [], false, 0⟩

/-- Adds a draft to the innermost construct. -/
def push (a : Assembly) (draft : Draft) : Assembly :=
  match a.frames with
  | [] => { a with top := Draft.pushMerged a.top draft }
  | frame :: rest =>
    { a with frames := { frame with children := Draft.pushMerged frame.children draft } :: rest }

/-- Opens a construct. -/
def enter (a : Assembly) (kind : FrameKind) : Except CompileError Assembly :=
  if a.limit ≤ a.frames.length then .error (.tooDeep a.limit)
  else .ok { a with frames := ⟨kind, []⟩ :: a.frames }

/-- The value of the attribute that aligns a cell. -/
def alignmentValue? : Markdown.Alignment → Option String
  | .unspecified => none
  | .left => some "left"
  | .center => some "center"
  | .right => some "right"

/-- The first word of the text after a fence. -/
def language? (info : String) : Option String :=
  match (info.toList.dropWhile Text.isBlank).takeWhile (!Text.isBlank ·) with
  | [] => none
  | word => some (String.ofList word)

/-- The attributes of a heading. -/
def headingAttributes (id : Option String) (classes : List String)
    (extra : List (String × Option String)) : Attributes :=
  Attributes.ofList
    (id.toList.map (("id", ·)) ++
      (if classes.isEmpty then [] else [("class", " ".intercalate classes)]) ++
      extra.map fun (name, value) ↦ (name, value.getD ""))

/-- The attributes of a link or an image, with the given one for its destination. -/
def targetAttributes (name destination title : String) : Attributes :=
  Attributes.ofList ((name, destination) :: if title.isEmpty then [] else [("title", title)])

/-- What a construct becomes. -/
def frameKind (a : Assembly) : Construct → FrameKind
  | .paragraph => .element "p" .empty
  | .heading level id classes extra =>
    .element ("h" ++ toString level) (headingAttributes id classes extra)
  | .blockQuote => .element "blockquote" .empty
  | .codeBlock info => .code (info >>= language?)
  | .htmlBlock => .transparent
  | .list none => .element "ul" .empty
  | .list (some start) =>
    .element "ol" (Attributes.ofList (if start = 1 then [] else [("start", toString start)]))
  | .item => .element "li" .empty
  | .footnoteDefinition label =>
    .element "div" (Attributes.ofList [("class", "footnote-definition"), ("id", "fn-" ++ label)])
  | .table _ => .table
  | .tableHead => .tableHead
  | .tableRow => .element "tr" .empty
  | .tableCell =>
    let alignment := a.alignments[a.column]? >>= alignmentValue?
    .element (if a.inHead then "th" else "td")
      (Attributes.ofList (alignment.toList.map (("align", ·))))
  | .emphasis => .element "em" .empty
  | .strong => .element "strong" .empty
  | .strikethrough => .element "del" .empty
  | .link destination title => .element "a" (targetAttributes "href" destination title)
  | .image destination title => .image (targetAttributes "src" destination title)
  | .other => .transparent

/-- Opens the construct of an event. -/
def start (a : Assembly) (construct : Construct) : Except CompileError Assembly :=
  let kind := a.frameKind construct
  match construct with
  | .table alignments => { a with alignments }.enter kind
  | .tableHead => { a with inHead := true, column := 0 }.enter kind
  | .tableRow => { a with column := 0 }.enter kind
  | _ => a.enter kind

/-- Is the draft the head of a table? -/
def isTableHead : Draft → Bool
  | .element tag _ _ => tag == "thead"
  | _ => false

/-- The drafts that a closed construct gives. -/
def close (kind : FrameKind) (children : List Draft) : List Draft :=
  match kind with
  | .transparent => children
  | .element tag attributes => [.element tag attributes children]
  | .code language =>
    let attributes := language.toList.map fun name ↦ ("class", "language-" ++ name)
    [.ofTag "pre" [.element "code" (Attributes.ofList attributes) children]]
  | .image attributes =>
    [.element "img" (attributes.insert "alt" (Draft.textContents children)) []]
  | .table =>
    let rows := children.filter (!isTableHead ·)
    let body := if rows.isEmpty then [] else [Draft.ofTag "tbody" rows]
    [.ofTag "table" (children.filter isTableHead ++ body)]
  | .tableHead => [.ofTag "thead" [.ofTag "tr" children]]

/-- Closes the innermost construct. -/
def leave (a : Assembly) : Except CompileError Assembly :=
  match a.frames with
  | [] => .error (.markdown "unbalanced end event")
  | frame :: rest =>
    let a := match frame.kind with
      | .table => { a with alignments := [] }
      | _ => a
    .ok ((close frame.kind frame.children.reverse).foldl push { a with frames := rest })

/-- Closes a construct of the given kind. -/
def stop (a : Assembly) (kind : ConstructKind) : Except CompileError Assembly :=
  match kind with
  | .tableHead => { a with inHead := false }.leave
  | .tableCell => { a with column := a.column + 1 }.leave
  | _ => a.leave

/-- A reference to a footnote. -/
def footnoteReference (label : String) : Draft :=
  .element "sup" (Attributes.ofList [("class", "footnote-reference")])
    [.element "a" (Attributes.ofList [("href", "#fn-" ++ label)]) [.text label]]

/-- The box before the text of a task. -/
def taskBox (checked : Bool) : Draft :=
  .element "input"
    (Attributes.ofList ([("type", "checkbox"), ("disabled", "")] ++
      if checked then [("checked", "")] else [])) []

/-- Folds in one event. -/
def step (a : Assembly) : Event → Except CompileError Assembly
  | .start construct => a.start construct
  | .stop kind => a.stop kind
  | .text value => .ok (a.push (.text value))
  | .code value => .ok (a.push (.ofTag "code" [.text value]))
  | .html markup => .ok (a.push (.raw markup))
  | .inlineHtml markup => .ok (a.push (.raw markup))
  | .footnoteReference label => .ok (a.push (footnoteReference label))
  | .softBreak => .ok (a.push (.text "\n"))
  | .hardBreak => .ok (a.push (.ofTag "br" []))
  | .rule => .ok (a.push (.ofTag "hr" []))
  | .taskMarker checked => .ok (a.push (taskBox checked))
  | .formula _ => .ok a

/-- The drafts of a finished assembly. -/
def finish (a : Assembly) : Except CompileError (List Draft) :=
  if a.frames.isEmpty then .ok a.top.reverse
  else .error (.markdown (toString a.frames.length ++ " unclosed block(s) at end of input"))

end Assembly

/-- The drafts of a Markdown text, of which at most `limit` constructs are open at a time. -/
def Draft.ofEvents (limit : Nat) (events : List Event) : Except CompileError (List Draft) :=
  events.foldlM Assembly.step (Assembly.empty limit) >>= Assembly.finish

end NotebookTree
