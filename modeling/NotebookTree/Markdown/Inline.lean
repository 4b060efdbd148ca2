import NotebookTree.Markdown.Event

/-!
# Inlines and emphasis

The contents of a paragraph or heading are inlines: leaves such as texts and breaks, and constructs
with inlines inside. Before emphasis is resolved they are a list of pieces, in which runs of
delimiters still stand for themselves. `Piece.resolve` pairs the runs: a run that may close looks
back for the nearest run of its character that may open and fits, and what stands between becomes
the contents of an emphasis. Runs that find no partner are plain text.
-/

namespace NotebookTree.Markdown

/-- A part of a running text. -/
inductive Inline where
  | leaf (event : Event)
  | span (construct : Construct) (children : List Inline)
  deriving Inhabited

namespace Inline

/-- A plain text. -/
def text (value : String) : Inline := leaf (.text value)

mutual

/-- The events of an inline. -/
def events : Inline → List Event
  | leaf event => [event]
  | span construct children => construct.around (eventsOf children)

/-- The events of inlines in order. -/
def eventsOf : List Inline → List Event
  | [] => []
  | inline :: rest => events inline ++ eventsOf rest

end

end Inline

/-- A run of equal characters that may open or close emphasis. -/
structure DelimiterRun where
  char : Char
  count : Nat
  canOpen : Bool
  canClose : Bool
  deriving DecidableEq, Inhabited

/-- The text of so many equal characters. -/
def runText (c : Char) (count : Nat) : Inline :=
  .text (String.ofList (List.replicate count c))

/-- A part of a running text in which emphasis is not resolved. -/
inductive Piece where
  | inline (value : Inline)
  | delimiters (run : DelimiterRun)
  /-- A line break that is written with a backslash. -/
  | backslashBreak
  /-- The opening bracket of a link or an image. Inside links further links are disabled. -/
  | opener (image disabled : Bool) (stop : Nat)
  deriving Inhabited

namespace Piece

/-- Is the piece a run of delimiters? -/
def isDelimiters : Piece → Bool
  | delimiters _ => true
  | _ => false

/-- The text of an opening bracket that opens nothing. -/
def openerText (image : Bool) : Inline :=
  .text (if image then "![" else "[")

/-! ## Pairing runs of delimiters -/

/-- A run that may open emphasis, with the inlines after it, the latest first. -/
structure OpenRun where
  char : Char
  /-- The number of characters that are left of the run. -/
  count : Nat
  /-- The number of characters that the run had at first. -/
  length : Nat
  /-- May the run close emphasis too? -/
  both : Bool
  after : List Inline
  deriving Inhabited

/-- The state of pairing runs. -/
structure Pairing where
  /-- The inlines before all open runs, the latest first. -/
  before : List Inline
  /-- The open runs, the innermost first. -/
  stack : List OpenRun
  /-- A tilde finds no partner among so many of the outermost open runs. -/
  tildeBound : Nat

namespace Pairing

/-- Adds an inline. -/
def add (p : Pairing) (inline : Inline) : Pairing :=
  match p.stack with
  | [] => { p with before := inline :: p.before }
  | run :: rest => { p with stack := { run with after := inline :: run.after } :: rest }

/-- Does an open run fit a closing one of the given character and length? -/
def fits (run : OpenRun) (c : Char) (length : Nat) (both : Bool) : Bool :=
  run.char == c && (c != '~' || length == run.length) &&
    ((!both && !run.both) || (length + run.length) % 3 != 0 || length % 3 == 0)

/-- Takes the nearest open run that fits. Runs inside it are given as text. Below the outermost
`bound` runs none is looked for. -/
def take? (c : Char) (length : Nat) (both : Bool) (bound : Nat) :
    List OpenRun → List Inline → Option (OpenRun × List OpenRun)
  | [], _ => none
  | run :: rest, inner =>
    if rest.length < bound then none
    else if fits run c length both then some ({ run with after := inner ++ run.after }, rest)
    else take? c length both bound rest (inner ++ (run.after ++ [runText run.char run.count]))

/-- Wraps inlines into emphasis of so many delimiters, the strong ones inside. -/
def wrap (c : Char) : Nat → List Inline → List Inline
  | 0, inlines => inlines
  | 1, inlines => [.span (if c = '~' then .strikethrough else .emphasis) inlines]
  | n + 2, inlines => wrap c n [.span (if c = '~' then .strikethrough else .strong) inlines]

/-- Closes emphasis with the `count` characters that are left of a run. -/
def close (p : Pairing) (c : Char) (length : Nat) (both : Bool) : Nat → Nat → Pairing × Nat
  | 0, count => (p, count)
  | fuel + 1, count =>
    if count = 0 then (p, 0)
    else
      match take? c length both (if c = '~' then p.tildeBound else 0) p.stack [] with
      | none => (if c = '~' then { p with tildeBound := p.stack.length } else p, count)
      | some (run, rest) =>
        let used := min count run.count
        let spans := wrap c used run.after.reverse
        let p : Pairing := { p with stack := rest, tildeBound := min p.tildeBound rest.length }
        let p :=
          if used < run.count then
            { p with stack := { run with count := run.count - used, after := [] } :: p.stack }
          else p
        close (spans.foldl add p) c length both fuel (count - used)

/-- Goes over a run of delimiters. -/
def run (p : Pairing) (r : DelimiterRun) : Pairing :=
  let both := r.canOpen && r.canClose
  let (p, left) := if r.canClose then p.close r.char r.count both r.count r.count else (p, r.count)
  if left = 0 then p
  else if r.canOpen then
    { p with stack := ⟨r.char, left, r.count, both, []⟩ :: p.stack }
  else p.add (runText r.char left)

/-- Goes over a piece. -/
def step (p : Pairing) : Piece → Pairing
  | inline value => p.add value
  | delimiters r => p.run r
  | backslashBreak => p.add (.leaf .hardBreak)
  | opener image _ _ => p.add (openerText image)

/-- The inlines of the pairing. Runs that are still open are text. -/
def finish (p : Pairing) : List Inline :=
  (p.stack.foldl (fun inner run ↦ inner ++ run.after ++ [runText run.char run.count]) [] ++
    p.before).reverse

end Pairing

/-- Resolves emphasis among pieces. -/
def resolve (pieces : List Piece) : List Inline :=
  (pieces.foldl Pairing.step ⟨[], [], 0⟩).finish

/-- Makes a line break text that is written with a backslash and stands at the end of pieces, which
come with the latest first. -/
def endInText (pieces : List Piece) : List Piece :=
  match pieces with
  | backslashBreak :: before => inline (.text "\\") :: before
  | _ => pieces

/-- Resolves emphasis in the contents of a link or image. A backslash at the end of contents that
have delimiters breaks no line. -/
def resolveContents (pieces : List Piece) : List Inline :=
  resolve (if pieces.any isDelimiters then (endInText pieces.reverse).reverse else pieces)

end Piece

end NotebookTree.Markdown
