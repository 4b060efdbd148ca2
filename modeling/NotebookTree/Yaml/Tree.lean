import NotebookTree.Yaml.Token

/-!
# Syntax trees of YAML documents

`Tree.ofTokens?` puts the tokens of a text together to the tree of its only document. Where a node
is left out an empty plain scalar stands for it. Each node has its anchor and its tag with the
handle replaced.
-/

namespace NotebookTree.Yaml

/-- What a node is marked with. -/
structure Marks where
  anchor : Option String
  tag : Option TagName
  deriving DecidableEq, Inhabited

/-- A node of a document. -/
inductive Tree where
  | reference (name : String)
  | scalar (marks : Marks) (text : String) (plain : Bool)
  | sequence (marks : Marks) (items : List Tree)
  | mapping (marks : Marks) (entries : List (Tree × Tree))
  deriving Inhabited

namespace Tree

/-- The scalar that stands for a node that is left out. -/
def empty : Tree := scalar ⟨none, none⟩ "" true

/-- The tags that handles stand for. -/
abbrev Handles := List (String × TagName)

/-- The handles that need no directive. -/
def defaultHandles : Handles :=
  [("!", .ofText "!"), ("!!", .ofText "tag:yaml.org,2002:")]

/-- A tag with its handle replaced. -/
def resolveTag? (handles : Handles) (tag : TagText) : Option TagName :=
  if tag.handle.isEmpty then some tag.suffix
  else (handles.lookup tag.handle).map (· ++ tag.suffix)

/-- Reads the anchor and the tag before a node, in any order. -/
def marks? (handles : Handles) : List Token → Option (Marks × List Token)
  | .anchor name :: .tag tag :: rest => do return (⟨name, ← resolveTag? handles tag⟩, rest)
  | .anchor name :: rest => some (⟨name, none⟩, rest)
  | .tag tag :: .anchor name :: rest => do return (⟨name, ← resolveTag? handles tag⟩, rest)
  | .tag tag :: rest => do return (⟨none, ← resolveTag? handles tag⟩, rest)
  | rest => some (⟨none, none⟩, rest)

/-- A scalar that is written down. An exclamation mark alone is no tag. -/
def ofScalar (marks : Marks) (text : String) (plain : Bool) : Tree :=
  scalar (if marks.tag = some [some '!'] then { marks with tag := none } else marks) text plain

/-- Does a node that is left out end here? -/
def endsBlockNode : List Token → Bool
  | .key :: _ | .value :: _ | .blockEnd :: _ => true
  | _ => false

/-- Does a node that is left out end here inside a flow collection? -/
def endsFlowNode (closing : Token) : List Token → Bool
  | .flowEntry :: _ => true
  | token :: _ => token == closing
  | [] => false

mutual

/-- Reads a node. Block collections are allowed if `block`, and entries without indentation of
their own if `loose`. -/
def node? (handles : Handles) (block loose : Bool) : Nat → List Token → Option (Tree × List Token)
  | 0, _ => none
  | fuel + 1, tokens =>
    match tokens with
    | .reference name :: rest => some (reference name, rest)
    | _ =>
      match marks? handles tokens with
      | none => none
      | some (marks, rest) =>
        match rest with
        | .scalar text plain :: rest => some (ofScalar marks text plain, rest)
        | .flowSequenceStart :: rest => do
          let (items, rest) ← flowItems? handles true fuel rest
          return (sequence marks items, rest)
        | .flowMappingStart :: rest => do
          let (entries, rest) ← flowEntries? handles true fuel rest
          return (mapping marks entries, rest)
        | _ =>
          match block, loose, rest with
          | _, true, .blockEntry :: _ => do
            let (items, rest) ← looseItems? handles fuel rest
            return (sequence marks items, rest)
          | true, _, .blockSequenceStart :: rest => do
            let (items, rest) ← blockItems? handles fuel rest
            return (sequence marks items, rest)
          | true, _, .blockMappingStart :: rest => do
            let (entries, rest) ← blockEntries? handles fuel rest
            return (mapping marks entries, rest)
          | _, _, rest =>
            if marks.anchor.isSome || marks.tag.isSome then some (scalar marks "" true, rest)
            else none

/-- Reads the entries of a block sequence and its end. -/
def blockItems? (handles : Handles) : Nat → List Token → Option (List Tree × List Token)
  | 0, _ => none
  | fuel + 1, tokens =>
    match tokens with
    | .blockEnd :: rest => some ([], rest)
    | .blockEntry :: rest => do
      let (item, rest) ← match rest with
        | .blockEntry :: _ | .blockEnd :: _ => some (empty, rest)
        | _ => node? handles true false fuel rest
      let (items, rest) ← blockItems? handles fuel rest
      return (item :: items, rest)
    | _ => none

/-- Reads the entries of a sequence without indentation of its own. -/
def looseItems? (handles : Handles) : Nat → List Token → Option (List Tree × List Token)
  | 0, _ => none
  | fuel + 1, tokens =>
    match tokens with
    | .blockEntry :: rest => do
      let (item, rest) ← match rest with
        | .blockEntry :: _ => some (empty, rest)
        | _ => if endsBlockNode rest then some (empty, rest) else node? handles true false fuel rest
      let (items, rest) ← looseItems? handles fuel rest
      return (item :: items, rest)
    | _ => some ([], tokens)

/-- Reads the entries of a block mapping and its end. -/
def blockEntries? (handles : Handles) : Nat → List Token → Option (List (Tree × Tree) × List Token)
  | 0, _ => none
  | fuel + 1, tokens =>
    match tokens with
    | .blockEnd :: rest => some ([], rest)
    | .key :: rest => do
      let (key, rest) ←
        if endsBlockNode rest then some (empty, rest) else node? handles true true fuel rest
      let (value, rest) ← match rest with
        | .value :: rest =>
          if endsBlockNode rest then some (empty, rest) else node? handles true true fuel rest
        | _ => some (empty, rest)
      let (entries, rest) ← blockEntries? handles fuel rest
      return ((key, value) :: entries, rest)
    | _ => none

/-- Reads the items of a flow sequence and its end. An item may be a mapping of one entry without
braces. -/
def flowItems? (handles : Handles) (first : Bool) :
    Nat → List Token → Option (List Tree × List Token)
  | 0, _ => none
  | fuel + 1, tokens =>
    let start : Option (List Token) := match first, tokens with
      | true, _ => some tokens
      | false, .flowSequenceEnd :: _ => some tokens
      | false, .flowEntry :: rest => some rest
      | false, _ => none
    match start with
    | none => none
    | some (.flowSequenceEnd :: rest) => some ([], rest)
    | some (.key :: rest) => do
      let (key, rest) ← match rest with
        | .value :: rest => some (empty, rest)
        | .flowEntry :: rest => some (empty, rest)
        | .flowSequenceEnd :: rest => some (empty, rest)
        | _ => node? handles false false fuel rest
      let (value, rest) ← match rest with
        | .value :: rest =>
          if endsFlowNode .flowSequenceEnd rest then some (empty, rest)
          else node? handles false false fuel rest
        | _ => some (empty, rest)
      let (items, rest) ← flowItems? handles false fuel rest
      return (mapping ⟨none, none⟩ [(key, value)] :: items, rest)
    | some rest => do
      let (item, rest) ← node? handles false false fuel rest
      let (items, rest) ← flowItems? handles false fuel rest
      return (item :: items, rest)

/-- Reads the entries of a flow mapping and its end. -/
def flowEntries? (handles : Handles) (first : Bool) :
    Nat → List Token → Option (List (Tree × Tree) × List Token)
  | 0, _ => none
  | fuel + 1, tokens =>
    let start : Option (List Token) := match first, tokens with
      | true, _ => some tokens
      | false, .flowMappingEnd :: _ => some tokens
      | false, .flowEntry :: rest => some rest
      | false, _ => none
    match start with
    | none => none
    | some (.flowMappingEnd :: rest) => some ([], rest)
    | some (.key :: rest) => do
      let (key, rest) ← match rest with
        | .value :: _ => some (empty, rest)
        | _ =>
          if endsFlowNode .flowMappingEnd rest then some (empty, rest)
          else node? handles false false fuel rest
      let (value, rest) ← match rest with
        | .value :: rest =>
          if endsFlowNode .flowMappingEnd rest then some (empty, rest)
          else node? handles false false fuel rest
        | _ => some (empty, rest)
      let (entries, rest) ← flowEntries? handles false fuel rest
      return ((key, value) :: entries, rest)
    | some rest => do
      let (key, rest) ← node? handles false false fuel rest
      let (entries, rest) ← flowEntries? handles false fuel rest
      return ((key, empty) :: entries, rest)

end

/-! ## Documents -/

/-- The handles that directives define. A handle is defined once, and there is one version, which
is 1.1 or 1.2. -/
def directives? (versioned : Bool) (handles : Handles) :
    List Token → Option (Handles × Bool × List Token)
  | .directive (.version major minor) :: rest =>
    if versioned || major != 1 || (minor != 1 && minor != 2) then none
    else directives? true handles rest
  | .directive (.handle name start) :: rest =>
    if (handles.lookup name).isSome then none
    else directives? versioned (handles ++ [(name, start)]) rest
  | rest => some (handles, versioned, rest)

/-- Is the contents of a document left out? -/
def endsDocument : List Token → Bool
  | [] | .directive _ :: _ | .documentStart :: _ | .documentEnd :: _ => true
  | _ => false

/-- Reads the first document. Its start needs a mark only after directives. -/
def document? (tokens : List Token) : Option (Tree × List Token) :=
  let fuel := 3 * tokens.length + 3
  let explicit := match tokens with
    | .directive _ :: _ | .documentStart :: _ => true
    | _ => false
  if !explicit then node? defaultHandles true false fuel tokens
  else
    match directives? false [] tokens with
    | some (handles, _, .documentStart :: rest) =>
      if endsDocument rest then some (empty, rest)
      else node? (handles ++ defaultHandles) true false fuel rest
    | _ => none

/-- The tree of the only document of a text. A text without tokens has no tree. -/
def ofTokens? (tokens : List Token) : Option (Option Tree) :=
  if tokens.isEmpty then some none
  else
    match document? tokens with
    | none => none
    | some (tree, rest) =>
      if rest.all (· == .documentEnd) then some (some tree) else none

end Tree

end NotebookTree.Yaml
