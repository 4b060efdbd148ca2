import NotebookTree.Markdown.Block.Basic
import NotebookTree.Markdown.LineKind

/-!
# The state of reading blocks

The reader of blocks keeps a stack of the open containers with the blocks in them so far. Its
operations add blocks, open and close containers, and take note of the blank lines that decide how
lists go on.
-/

namespace NotebookTree.Markdown.Block

/-- The kind of an open container. -/
inductive OpenKind where
  | quote
  | list (tight : Bool) (delimiter : Char) (start : Nat)
  | item (indent : Nat)
  | footnote (label : String)
  deriving Inhabited

/-- The marks that a container asks for. -/
def OpenKind.container : OpenKind → Container
  | quote => .quote
  | list .. => .list
  | item indent => .item indent
  | footnote _ => .footnote

/-- An open container: where it starts, and its blocks so far, the latest first. -/
structure OpenBlock where
  kind : OpenKind
  start : Nat
  children : List (Placed Block)
  deriving Inhabited

/-- The block of a container that is closed. -/
def OpenBlock.close (b : OpenBlock) : Block :=
  let children := b.children.reverse
  match b.kind with
  | .quote => .quote children
  | .list tight delimiter start =>
    .list tight (if Source.isBullet delimiter then none else some start) children
  | .item indent => .item indent children
  | .footnote label => .footnote label children

/-- The state of the block reader. -/
structure Reader where
  source : Source
  extensions : Extensions
  /-- The open containers, the innermost first. -/
  stack : List OpenBlock
  /-- The blocks outside all containers, the latest first. -/
  top : List (Placed Block)
  /-- The end of the first line of the current list item, if nothing stands in it. -/
  emptyLine : Option Nat
  /-- Was the last line blank? -/
  afterBlank : Bool
  /-- The mark of a task that goes into the next paragraph. -/
  task : Option (Placed Bool)
  definitions : Definitions

namespace Reader

/-- The open containers, the outermost first. -/
def containers (r : Reader) : List Container :=
  (r.stack.map (·.kind.container)).reverse

/-- Adds a block to the innermost container. -/
def append (r : Reader) (start stop : Nat) (block : Block) : Reader :=
  let placed : Placed Block := ⟨start, stop, block⟩
  match r.stack with
  | [] => { r with top := placed :: r.top }
  | b :: rest => { r with stack := { b with children := placed :: b.children } :: rest }

/-- Opens a container. -/
def push (r : Reader) (start : Nat) (kind : OpenKind) : Reader :=
  { r with stack := ⟨kind, start, []⟩ :: r.stack }

/-- Closes the innermost container. -/
def pop (r : Reader) (stop : Nat) : Reader :=
  match r.stack with
  | [] => r
  | b :: rest =>
    let emptyLine := match b.kind with
      | .list true _ _ => none
      | _ => r.emptyLine
    { r with stack := rest, emptyLine }.append b.start stop b.close

/-- Closes containers until only the given number is open. -/
def popTo (r : Reader) (stop depth : Nat) : Nat → Reader
  | 0 => r
  | fuel + 1 => if r.stack.length ≤ depth then r else (r.pop stop).popTo stop depth fuel

/-- Is the innermost container a list item? -/
def inItem (r : Reader) : Bool :=
  match r.stack with
  | ⟨.item _, _, _⟩ :: _ => true
  | _ => false

/-- Closes a list item that started with a blank line and has another one. -/
def finishEmptyItem (r : Reader) : Reader :=
  let r := match r.emptyLine with
    | some stop => if r.afterBlank && r.inItem then r.pop stop else r
    | none => r
  { r with emptyLine := none }

/-- Makes the list at the given place of the stack loose. -/
def loosen (r : Reader) (place : Nat) : Reader :=
  { r with
    stack := r.stack.modify place fun b ↦
      match b.kind with
      | .list _ delimiter start => { b with kind := .list false delimiter start }
      | _ => b }

/-- Closes a list none of whose items is open. A blank line before a further block makes the list
around it loose. -/
def finishList (r : Reader) (stop : Nat) : Reader :=
  let r := r.finishEmptyItem
  let r := match r.stack with
    | ⟨.list .., _, _⟩ :: _ => r.pop stop
    | _ => r
  if r.afterBlank then { r.loosen 1 with afterBlank := false } else r

/-- Goes on with a list of the same delimiter, or starts one. -/
def continueList (r : Reader) (place : Nat) (mark : Source.ListMark) : Reader :=
  let r := r.finishEmptyItem
  let start (r : Reader) : Reader :=
    { r.push place (.list true mark.delimiter mark.start) with afterBlank := false }
  match r.stack with
  | [] => start r
  | ⟨.list _ delimiter _, _, _⟩ :: _ =>
    if delimiter = mark.delimiter then
      if r.afterBlank then { r.loosen 0 with afterBlank := false } else r
    else start (r.finishList place)
  | _ => start (r.finishList place)

/-- Takes note of a blank line. -/
def blank (r : Reader) : Reader :=
  match r.stack with
  | ⟨.quote, _, _⟩ :: _ => r
  | ⟨.item indent, start, children⟩ :: rest =>
    { r with
      afterBlank := true
      stack := ⟨.item (if r.emptyLine.isSome then 0 else indent), start, children⟩ :: rest }
  | _ => { r with afterBlank := true }

end Reader

end NotebookTree.Markdown.Block
