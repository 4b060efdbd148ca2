import NotebookTree.Node.Attributes

/-!
# Drafts

A `Draft` is a document tree that may still hold spans of raw markup. Drafts are collected into
lists with the latest one first; `Draft.pushMerged` joins a text to a text before it, and raw
markup to raw markup.
-/

namespace NotebookTree

/-- A node of a document with unresolved raw markup. -/
inductive Draft where
  | element (tag : String) (attributes : Attributes) (children : List Draft)
  | text (value : String)
  | raw (markup : String)
  deriving Inhabited

namespace Draft

/-- An element without attributes. -/
def ofTag (tag : String) (children : List Draft) : Draft := element tag .empty children

/-- Is the draft an element? -/
def isElement : Draft → Bool
  | element .. => true
  | _ => false

/-- Is the draft raw markup? -/
def isRaw : Draft → Bool
  | raw _ => true
  | _ => false

mutual

/-- All texts below a draft, in document order. Raw markup has none. -/
def textContent : Draft → String
  | text value => value
  | raw _ => ""
  | element _ _ children => textContents children

/-- All texts below the drafts of a list, in document order. -/
def textContents : List Draft → String
  | [] => ""
  | draft :: rest => textContent draft ++ textContents rest

end

/-- Adds a draft to a list with the latest one first. Texts that meet become one, and so does raw
markup. -/
def pushMerged (latest : List Draft) (draft : Draft) : List Draft :=
  match latest, draft with
  | text before :: rest, text value => text (before ++ value) :: rest
  | raw before :: rest, raw markup => raw (before ++ markup) :: rest
  | _, _ => draft :: latest

end Draft

end NotebookTree
