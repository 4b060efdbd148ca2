import NotebookTree.Text.Blank

/-!
# Quoted texts of TOML

A text stands between quotes, which are tripled if it has several lines. Between single quotes all
characters stand for themselves. Between double quotes a backslash starts an escape; in several
lines a backslash at the end of a line also removes all blanks up to the next other character.

The readers start after the opening quotes and give the text with what comes after the closing ones.
-/

namespace NotebookTree.Toml

/-- The characters of comments and texts: all but the control characters other than the tab. -/
def isTextChar (c : Char) : Bool :=
  c == '\t' || (0x20 ≤ c.toNat && c.toNat != 0x7f)

/-- The character that a single letter after a backslash stands for. -/
def escaped? : Char → Option Char
  | 'b' => some '\x08'
  | 'f' => some '\x0c'
  | 'n' => some '\n'
  | 'r' => some '\r'
  | 't' => some '\t'
  | '\\' => some '\\'
  | '"' => some '"'
  | _ => none

/-- The character with a code point in hexadecimal digits. -/
def ofCodePoint? (digits : List Char) : Option Char :=
  let n := Text.ofDigits 16 digits
  if digits.all (fun c ↦ (Text.digitValue? 16 c).isSome) && n.isValidChar then some (Char.ofNat n)
  else none

/-- Puts a character before a text that is read. -/
def consText (c : Char) (read : List Char × List Char) : List Char × List Char :=
  (c :: read.1, read.2)

/-- Reads a text between double quotes on one line. -/
def basicText? : List Char → Option (List Char × List Char)
  | [] => none
  | '"' :: rest => some ([], rest)
  | '\\' :: 'u' :: a :: b :: c :: d :: rest => do
    return consText (← ofCodePoint? [a, b, c, d]) (← basicText? rest)
  | '\\' :: 'U' :: a :: b :: c :: d :: e :: f :: g :: h :: rest => do
    return consText (← ofCodePoint? [a, b, c, d, e, f, g, h]) (← basicText? rest)
  | '\\' :: c :: rest => do
    return consText (← escaped? c) (← basicText? rest)
  | c :: rest =>
    if isTextChar c && c != '\\' then (basicText? rest).map (consText c) else none

/-- Reads a text between single quotes on one line. -/
def literalText? : List Char → Option (List Char × List Char)
  | [] => none
  | '\x27' :: rest => some ([], rest)
  | c :: rest => if isTextChar c then (literalText? rest).map (consText c) else none

/-- The number of quotes here. -/
def quoteRun (quote : Char) (chars : List Char) : Nat :=
  (chars.takeWhile (· == quote)).length

/-- The end of a text in several lines: up to two quotes of its own and the three closing ones. -/
def closing? (quote : Char) (chars : List Char) : Option (List Char × List Char) :=
  let n := quoteRun quote chars
  if n ≤ 5 then some (List.replicate (n - 3) quote, chars.drop n) else none

/-- Does a line end after blanks? -/
def endsLine (chars : List Char) : Bool :=
  match chars.dropWhile Text.isIndent with
  | '\n' :: _ | '\r' :: '\n' :: _ => true
  | _ => false

/-- Reads a text between double quotes in several lines. Where blanks are removed, `removing`
holds. -/
def basicLines? (removing : Bool) : List Char → Option (List Char × List Char)
  | [] => none
  | '\r' :: '\n' :: rest =>
    if removing then basicLines? true rest else (basicLines? false rest).map (consText '\n')
  | '\n' :: rest =>
    if removing then basicLines? true rest else (basicLines? false rest).map (consText '\n')
  | '"' :: rest =>
    if 3 ≤ quoteRun '"' ('"' :: rest) then closing? '"' ('"' :: rest)
    else (basicLines? false rest).map (consText '"')
  | '\\' :: 'u' :: a :: b :: c :: d :: rest => do
    return consText (← ofCodePoint? [a, b, c, d]) (← basicLines? false rest)
  | '\\' :: 'U' :: a :: b :: c :: d :: e :: f :: g :: h :: rest => do
    return consText (← ofCodePoint? [a, b, c, d, e, f, g, h]) (← basicLines? false rest)
  | '\\' :: c :: rest =>
    match escaped? c with
    | some char => (basicLines? false rest).map (consText char)
    | none => if endsLine (c :: rest) then basicLines? true (c :: rest) else none
  | c :: rest =>
    if removing && Text.isIndent c then basicLines? true rest
    else if isTextChar c && c != '\\' then (basicLines? false rest).map (consText c)
    else none

/-- Reads a text between single quotes in several lines. -/
def literalLines? : List Char → Option (List Char × List Char)
  | [] => none
  | '\r' :: '\n' :: rest => (literalLines? rest).map (consText '\n')
  | '\n' :: rest => (literalLines? rest).map (consText '\n')
  | '\x27' :: rest =>
    if 3 ≤ quoteRun '\x27' ('\x27' :: rest) then closing? '\x27' ('\x27' :: rest)
    else (literalLines? rest).map (consText '\x27')
  | c :: rest => if isTextChar c then (literalLines? rest).map (consText c) else none

/-- Drops a line end. -/
def dropLineEnd : List Char → List Char
  | '\n' :: rest => rest
  | '\r' :: '\n' :: rest => rest
  | rest => rest

/-- Reads a text with its quotes. -/
def quotedText? : List Char → Option (List Char × List Char)
  | '"' :: '"' :: '"' :: rest => basicLines? false (dropLineEnd rest)
  | '"' :: rest => basicText? rest
  | '\x27' :: '\x27' :: '\x27' :: rest => literalLines? (dropLineEnd rest)
  | '\x27' :: rest => literalText? rest
  | _ => none

end NotebookTree.Toml
