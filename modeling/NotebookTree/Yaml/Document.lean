import NotebookTree.Decimal.Nearest
import NotebookTree.Yaml.Basic
import NotebookTree.Yaml.Tree

/-!
# Values of YAML documents

`Yaml.parse?` reads a text as a YAML value. A plain scalar without a tag is null, a truth value or a
number if it is written like one. An alias stands for the node with its anchor, also inside that
node; what then has no end is refused, since collections may nest 128 levels. A document may use at
most a hundred times as many aliases as it has nodes.
-/

namespace NotebookTree.Yaml

/-! ## Scalars -/

/-- A digit string with a leading zero is no number. -/
def isZeroPadded (chars : List Char) : Bool :=
  let digits := match chars with
    | '-' :: rest => rest
    | '+' :: rest => rest
    | _ => chars
  match digits with
  | '0' :: rest => !rest.isEmpty && rest.all Char.isDigit
  | _ => false

/-- Reads digits of the given base, of which there is at least one. -/
def digits? (base : Nat) (chars : List Char) : Option Nat :=
  if chars.isEmpty || !chars.all fun c ↦ (Text.digitValue? base c).isSome then none
  else some (Text.ofDigits base chars)

/-- Reads a natural number, which may start with the mark of its base, if it is less than the
bound. -/
def natural? (bound : Nat) (chars : List Char) : Option Nat :=
  let based := match chars with
    | '0' :: 'x' :: rest => digits? 16 rest
    | '0' :: 'o' :: rest => digits? 8 rest
    | '0' :: 'b' :: rest => digits? 2 rest
    | _ => none
  (based.or (if isZeroPadded chars then none else digits? 10 chars)).filter (· < bound)

/-- Reads an integer of the given number of bits. -/
def integer? (bits : Nat) (chars : List Char) : Option Int :=
  match chars with
  | '-' :: rest => (natural? (Nat.pow 2 (bits - 1) + 1) rest).map fun n ↦ -(n : Int)
  | '+' :: rest => (natural? (Nat.pow 2 bits) rest).map fun n ↦ (n : Int)
  | _ => (natural? (Nat.pow 2 bits) chars).map fun n ↦ (n : Int)

/-- Reads a number that is no integer. -/
def real? (text : String) : Option Float :=
  if text ∈ [".inf", ".Inf", ".INF", "+.inf", "+.Inf", "+.INF"] then some (1.0 / 0.0)
  else if text ∈ ["-.inf", "-.Inf", "-.INF"] then some (-1.0 / 0.0)
  else if text ∈ [".nan", ".NaN", ".NAN"] then some (0.0 / 0.0)
  else Decimal.ofText? text.toList

/-- Reads an integer. Nothing if it is none, and the failure if it does not fit in 64 bits but in
128. -/
def number? (text : String) : Option (Option Yaml) :=
  match integer? 64 text.toList with
  | some n => some (some (integer n))
  | none => if (integer? 128 text.toList).isSome then some none else none

/-- Is the text a way to write null? -/
def isNull (text : String) : Bool :=
  text ∈ ["null", "Null", "NULL", "~"]

/-- Reads a truth value. -/
def bool? (text : String) : Option Bool :=
  if text ∈ ["true", "True", "TRUE"] then some true
  else if text ∈ ["false", "False", "FALSE"] then some false
  else none

/-- The value of a plain scalar. -/
def plainValue? (text : String) : Option Yaml :=
  if text.isEmpty || isNull text then some null
  else
    match bool? text with
    | some b => some (bool b)
    | none =>
      match number? text with
      | some result => result
      | none =>
        if isZeroPadded text.toList then some (string text)
        else
          match real? text with
          | some x => some (real x)
          | none => some (string text)

/-- The name that a tag gives a value, if the tag is one of the document's own and has a meaning. -/
def ownTag? (tag : Option TagName) : Option String :=
  match (tag.bind TagName.text?).map String.toList with
  | some ['!'] => some "!"
  | some ('!' :: name) => some (String.ofList name)
  | _ => none

/-- The start of the tags that YAML knows. -/
def coreTag (name : String) : String := "tag:yaml.org,2002:" ++ name

/-- The value of a scalar, apart from a tag of the document's own. -/
def scalarValue? (tag : Option TagName) (text : String) (plain : Bool) : Option Yaml :=
  let isTag (name : String) : Bool := tag.bind TagName.text? == some (coreTag name)
  if isTag "bool" then (bool? text).map bool
  else if isTag "int" then (number? text).join
  else if isTag "float" then (real? text).map real
  else if isTag "null" then (if isNull text then some null else none)
  else if plain && tag.all TagName.isOwn then plainValue? text
  else some (string text)

/-- Gives a value the tag of its node, if that is one of the document's own. -/
def withTag (tag : Option TagName) (value : Yaml) : Yaml :=
  match ownTag? tag with
  | some name => tagged name value
  | none => value

/-! ## Anchors -/

/-- A node whose anchors and aliases are numbers. -/
inductive Linked where
  | reference (number : Nat)
  | scalar (anchor : Option Nat) (tag : Option TagName) (text : String) (plain : Bool)
  | sequence (anchor : Option Nat) (tag : Option TagName) (items : List Linked)
  | mapping (anchor : Option Nat) (tag : Option TagName) (entries : List (Linked × Linked))
  deriving Inhabited

namespace Linked

/-- The numbers of the anchors so far, the latest first. -/
abbrev Anchors := List (String × Nat)

/-- Numbers an anchor with the count of different names before it. -/
def number (anchors : Anchors) (anchor : Option String) : Option Nat × Anchors :=
  match anchor with
  | none => (none, anchors)
  | some name =>
    let n := anchors.length
    (some n, (name, n) :: anchors.filter (·.1 != name))

mutual

/-- Replaces names by numbers. Nothing if an alias comes before its anchor. -/
def ofTree? (anchors : Anchors) : Tree → Option (Linked × Anchors)
  | .reference name => (anchors.lookup name).map fun n ↦ (reference n, anchors)
  | .scalar marks text plain =>
    let (n, anchors) := number anchors marks.anchor
    some (scalar n marks.tag text plain, anchors)
  | .sequence marks items => do
    let (n, anchors) := number anchors marks.anchor
    let (items, anchors) ← ofTrees? anchors items
    return (sequence n marks.tag items, anchors)
  | .mapping marks entries => do
    let (n, anchors) := number anchors marks.anchor
    let (entries, anchors) ← ofEntries? anchors entries
    return (mapping n marks.tag entries, anchors)

/-- Replaces names by numbers in nodes one after the other. -/
def ofTrees? (anchors : Anchors) : List Tree → Option (List Linked × Anchors)
  | [] => some ([], anchors)
  | tree :: rest => do
    let (node, anchors) ← ofTree? anchors tree
    let (nodes, anchors) ← ofTrees? anchors rest
    return (node :: nodes, anchors)

/-- Replaces names by numbers in the entries of a mapping. -/
def ofEntries? (anchors : Anchors) : List (Tree × Tree) → Option (List (Linked × Linked) × Anchors)
  | [] => some ([], anchors)
  | (key, value) :: rest => do
    let (key, anchors) ← ofTree? anchors key
    let (value, anchors) ← ofTree? anchors value
    let (entries, anchors) ← ofEntries? anchors rest
    return ((key, value) :: entries, anchors)

end

mutual

/-- The anchored nodes below a node with itself, the first ones first. -/
def anchored : Linked → List (Nat × Linked)
  | reference _ => []
  | scalar n tag text plain => (n.toList.map (·, scalar n tag text plain))
  | sequence n tag items =>
    (n.toList.map (·, sequence n tag items)) ++ anchoredItems items
  | mapping n tag entries =>
    (n.toList.map (·, mapping n tag entries)) ++ anchoredEntries entries

/-- The anchored nodes below the items of a sequence. -/
def anchoredItems : List Linked → List (Nat × Linked)
  | [] => []
  | item :: rest => anchored item ++ anchoredItems rest

/-- The anchored nodes below the entries of a mapping. -/
def anchoredEntries : List (Linked × Linked) → List (Nat × Linked)
  | [] => []
  | (key, value) :: rest => anchored key ++ anchored value ++ anchoredEntries rest

end

mutual

/-- The number of events of a node: one for a scalar or an alias, and two for a collection with
those of its contents. -/
def size : Linked → Nat
  | reference _ => 1
  | scalar .. => 1
  | sequence _ _ items => 2 + sizeItems items
  | mapping _ _ entries => 2 + sizeEntries entries

/-- The number of events of the items of a sequence. -/
def sizeItems : List Linked → Nat
  | [] => 0
  | item :: rest => size item + sizeItems rest

/-- The number of events of the entries of a mapping. -/
def sizeEntries : List (Linked × Linked) → Nat
  | [] => 0
  | (key, value) :: rest => size key + size value + sizeEntries rest

end

/-! ## Values -/

/-- What the aliases of a document stand for. -/
structure Targets where
  /-- The anchored nodes; of equal numbers the first entry counts. -/
  nodes : List (Nat × Linked)
  /-- The greatest number of aliases that are followed. -/
  limit : Nat

/-- Follows an alias, after `used` others have been followed. -/
def follow? (t : Targets) (used : Nat) : Linked → Option (Linked × Nat)
  | reference n => if t.limit ≤ used then none else (t.nodes.lookup n).map (·, used + 1)
  | node => some (node, used)

mutual

/-- The value of a node whose collections may nest `depth` levels, and the number of aliases
followed. -/
def value? (t : Targets) (depth used : Nat) (node : Linked) : Option (Yaml × Nat) :=
  match follow? t used node with
  | none => none
  | some (.reference _, _) => none
  | some (.scalar _ tag text plain, used) =>
    (scalarValue? tag text plain).map fun value ↦ (withTag tag value, used)
  | some (.sequence _ tag items, used) =>
    match depth with
    | 0 => none
    | depth + 1 => do
      let (values, used) ← values? t depth used items
      return (withTag tag (.sequence values), used)
  | some (.mapping _ tag entries, used) =>
    match depth with
    | 0 => none
    | depth + 1 => do
      let (values, used) ← entryValues? t depth used [] entries
      return (withTag tag (.mapping values), used)
  termination_by (depth, 0)

/-- The values of the items of a sequence. -/
def values? (t : Targets) (depth used : Nat) (items : List Linked) : Option (List Yaml × Nat) :=
  match items with
  | [] => some ([], used)
  | item :: rest => do
    let (value, used) ← value? t depth used item
    let (values, used) ← values? t depth used rest
    return (value :: values, used)
  termination_by (depth, items.length + 1)

/-- The values of the entries of a mapping behind the given ones. No key may occur twice. -/
def entryValues? (t : Targets) (depth used : Nat) (before : List (Yaml × Yaml))
    (entries : List (Linked × Linked)) : Option (List (Yaml × Yaml) × Nat) :=
  match entries with
  | [] => some (before, used)
  | (key, value) :: rest => do
    let (key, used) ← value? t depth used key
    if before.any (·.1 == key) then none
    else
      let (value, used) ← value? t depth used value
      entryValues? t depth used (before ++ [(key, value)]) rest
  termination_by (depth, entries.length + 1)

end

end Linked

/-- The greatest nesting depth of collections. -/
def maxDepth : Nat := 128

/-- How many aliases a document may use for each of its nodes. -/
def aliasFactor : Nat := 100

/-- The value of a document. -/
def ofTree? (tree : Tree) : Option Yaml := do
  let (node, _) ← Linked.ofTree? [] tree
  let t : Linked.Targets := ⟨node.anchored.reverse, aliasFactor * node.size⟩
  let (value, _) ← Linked.value? t maxDepth 0 node
  return value

/-- Reads a text as a YAML value. An empty text is null. -/
def parse? (text : List Char) : Option Yaml := do
  let tokens ← Token.readAll? text
  match ← Tree.ofTokens? tokens with
  | none => return null
  | some tree => ofTree? tree

end NotebookTree.Yaml
