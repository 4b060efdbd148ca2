import NotebookTree.Markdown.Reference
import NotebookTree.Options

/-!
# Items of a line

A line of text is first cut into items: stretches of plain text and the characters that may mean
something, such as a run of asterisks or a bracket. What these mean is decided once the whole block
is known. `Source.readLine` reads one line and gives its items with the break that ends it.
-/

namespace NotebookTree.Markdown

/-- What an item is. -/
inductive ItemBody where
  /-- Plain text, which may start right after a backslash. -/
  | text (escaped : Bool)
  /-- The text of a character reference. -/
  | replaced (text : String)
  | softBreak
  /-- A line break that is kept, written with a backslash or with spaces. -/
  | hardBreak (backslash : Bool)
  /-- A run of equal characters that may open or close emphasis. -/
  | delimiters (c : Char) (count : Nat) (canOpen canClose : Bool)
  /-- A run of backticks, the first of which may be escaped. -/
  | backticks (count : Nat) (escaped : Bool)
  | lessThan
  | linkOpen
  | imageOpen
  /-- A closing bracket, which may or may not end a reference. -/
  | linkClose (canRefer : Bool)
  /-- The mark of a task. -/
  | task (checked : Bool)
  /-- A block among running text, by its number. -/
  | block (number : Nat)
  deriving DecidableEq, Inhabited

/-- Is it still to be decided what the item means? -/
def ItemBody.isOpen : ItemBody → Bool
  | delimiters .. | backticks .. | lessThan | linkOpen | imageOpen | linkClose _ => true
  | _ => false

/-- An item from one position to another. -/
abbrev Item := Placed ItemBody

/-- Adds text to items of which the latest comes first. Text that touches the text before it is
one item with it. -/
def pushText (items : List Item) (start stop : Nat) (escaped : Bool) : List Item :=
  if stop ≤ start then items
  else
    match items with
    | ⟨first, last, .text e⟩ :: rest =>
      if last = start then ⟨first, stop, .text e⟩ :: rest
      else ⟨start, stop, .text escaped⟩ :: items
    | _ => ⟨start, stop, .text escaped⟩ :: items

/-- In which part of a table, if any, a line is read. -/
inductive TableContext where
  /-- Bars mean nothing. -/
  | none
  /-- The line may turn out to be the head of a table. -/
  | candidate
  /-- Bars end cells. -/
  | cell
  deriving DecidableEq, Inhabited

namespace Source

/-! ## Delimiter runs -/

/-- Does a bar end right before the position? -/
def afterBar (s : Source) (i : Nat) : Bool :=
  0 < i && s.has (i - 1) '|' && !(2 ≤ i && s.has (i - 2) '\\')

/-- May a run of delimiters open emphasis in a line that starts at `first`? Underscores and single
tildes may not do so inside a word. -/
def canOpen (s : Source) (table : TableContext) (first : Nat) (c : Char) (i count : Nat) : Bool :=
  match s[i + count]? with
  | none => false
  | some next =>
    if Text.isBlank next then false
    else if i = first then true
    else if table = .cell && s.afterBar i then true
    else if table = .cell && next == '|' then false
    else if c == '*' && !Text.isPunctuation next then true
    else if c == '~' && 1 < count then true
    else
      match s[i - 1]? with
      | none => true
      | some before =>
        (c == '~' && before == '~' && !Text.isPunctuation next) ||
          Text.isBlank before || Text.isPunctuation before

/-- May a run of delimiters close emphasis in a line that starts at `first`? -/
def canClose (s : Source) (table : TableContext) (first : Nat) (c : Char) (i count : Nat) : Bool :=
  if i = first then false
  else
    match s[i - 1]? with
    | none => false
    | some before =>
      if Text.isBlank before then false
      else
        match s[i + count]? with
        | none => true
        | some next =>
          if table = .cell && s.afterBar i then false
          else if table = .cell && next == '|' then true
          else if (c == '*' || (c == '~' && 1 < count)) && !Text.isPunctuation before then true
          else if c == '~' && before == '~' then true
          else Text.isBlank next || Text.isPunctuation next

/-! ## Lines -/

/-- The state of reading a line. -/
structure LineScan where
  /-- Where the line starts. -/
  first : Nat
  position : Nat
  /-- Where the current stretch of text starts. -/
  textStart : Nat
  /-- Does it start right after a backslash? -/
  escaped : Bool
  /-- The items so far, the latest first. -/
  items : List Item
  /-- The number of bars, and the place of the last one. -/
  bars : Nat
  lastBar : Nat

/-- A line that has been read. -/
structure LineResult where
  items : List Item
  next : Nat
  /-- The break at its end; nothing at the end of the text or of a cell. -/
  lineBreak : Option Item
  bars : Nat
  lastBar : Nat

/-- Closes the current stretch of text. -/
def LineScan.closeText (l : LineScan) (stop : Nat) : List Item :=
  pushText l.items l.textStart stop l.escaped

/-- Adds an item at the current position and goes on after it. -/
def LineScan.add (l : LineScan) (start stop : Nat) (body : ItemBody) : LineScan :=
  { l with
    position := stop
    textStart := stop
    escaped := false
    items := ⟨start, stop, body⟩ :: l.closeText l.position }

/-- Ends a line at a line end. -/
def LineScan.atLineEnd (l : LineScan) (s : Source) (stop : Nat) : LineResult :=
  let i := l.position
  let next := ((s.lineEnd? i).getD i).min stop
  let backslashes := i - s.skipBack (· == '\\') 0 i
  let finish (textStop breakStart : Nat) (body : ItemBody) : LineResult :=
    ⟨l.closeText textStop, next, some ⟨breakStart, next, body⟩, l.bars, l.lastBar⟩
  if backslashes % 2 = 1 && next < stop then finish (i - 1) (i - 1) (.hardBreak true)
  else
    let blank := s.skipBack isSpace 0 i
    if 2 ≤ i - blank then finish blank blank (.hardBreak false)
    else finish blank i .softBreak

/-- Ends a line or a cell at the current position without a break. -/
def LineScan.atEnd (l : LineScan) (s : Source) : LineResult :=
  ⟨l.closeText (s.skipBack isSpace l.textStart l.position), l.position, none, l.bars, l.lastBar⟩

/-- Goes over a backslash at the current position. -/
def LineScan.atBackslash (l : LineScan) (s : Source) (table : TableContext) (stop : Nat) :
    LineScan :=
  let i := l.position
  let items := l.closeText i
  if !(i + 1 < stop && s.hasPunctuation (i + 1)) then { l with position := i + 1 }
  else if s.has (i + 1) '\x60' then
    let last := (s.skipRun (i + 1) '\x60').min stop
    { l with
      position := last
      textStart := last
      escaped := false
      items := ⟨i + 1, last, .backticks (last - (i + 1)) true⟩ :: items }
  else if table = .cell && s.has (i + 1) '|' then
    { l with position := i + 2, textStart := i + 1, escaped := false, items }
  else if table = .cell && s.hasAll i ['\\', '\\', '|'] && i + 2 < stop then
    { l with position := i + 3, textStart := i + 2, escaped := true, items }
  else { l with position := i + 2, textStart := i + 1, escaped := true, items }

/-- Goes over a run of delimiters at the current position. -/
def LineScan.atDelimiters (l : LineScan) (s : Source) (table : TableContext) (c : Char)
    (stop : Nat) : LineScan :=
  let i := l.position
  let count := (s.skipRun i c).min stop - i
  let opens := s.canOpen table l.first c i count
  let closes := s.canClose table l.first c i count
  if (opens || closes) && (c != '~' || count ≤ 2) then
    l.add i (i + count) (.delimiters c count opens closes)
  else { l with position := i + count }

/-- Goes over the given character at the current position, which is no line end. Nothing if a cell
ends here. -/
def LineScan.over? (l : LineScan) (s : Source) (extensions : Extensions) (table : TableContext)
    (stop : Nat) (c : Char) : Option LineScan :=
  let i := l.position
  let plain : LineScan := { l with position := i + 1 }
  if c = '\\' then some (l.atBackslash s table stop)
  else if c = '*' ∨ c = '_' ∨ (c = '~' ∧ extensions.strikethrough) then
    some (l.atDelimiters s table c stop)
  else if c = '\x60' then
    let last := (s.skipRun i '\x60').min stop
    some (l.add i last (.backticks (last - i) false))
  else if c = '<' ∧ !s.has (i + 1) '\\' then some (l.add i (i + 1) .lessThan)
  else if c = '!' ∧ i + 1 < stop ∧ s.has (i + 1) '[' then some (l.add i (i + 2) .imageOpen)
  else if c = '[' then some (l.add i (i + 1) .linkOpen)
  else if c = ']' then some (l.add i (i + 1) (.linkClose true))
  else if c = '&' then
    match s.entity? i with
    | some (text, j) => some (if j ≤ stop then l.add i j (.replaced text) else plain)
    | none => some plain
  else if c = '|' ∧ extensions.tables then
    if table = .cell then none
    else if 0 < i && s.has (i - 1) '\\' then some plain
    else some { plain with bars := l.bars + 1, lastBar := i }
  else some plain

/-- Reads a line up to `stop` at the latest. -/
def readLineFrom (s : Source) (extensions : Extensions) (table : TableContext) (stop : Nat) :
    Nat → LineScan → LineResult
  | 0, l => ⟨l.items, l.position, none, l.bars, l.lastBar⟩
  | fuel + 1, l =>
    if stop ≤ l.position then l.atEnd s
    else
      match s[l.position]? with
      | none => l.atEnd s
      | some c =>
        if Text.isLineEnd c then
          if table = .cell then l.atEnd s else l.atLineEnd s stop
        else
          match l.over? s extensions table stop c with
          | some l => readLineFrom s extensions table stop fuel l
          | none => l.atEnd s

/-- Reads a line from a position, up to `stop` at the latest, behind the given items. -/
def readLine (s : Source) (extensions : Extensions) (table : TableContext) (stop : Nat)
    (items : List Item) (i : Nat) : LineResult :=
  readLineFrom s extensions table stop (s.size - i + 1) ⟨i, i, i, false, items, 0, i⟩

end Source

end NotebookTree.Markdown
