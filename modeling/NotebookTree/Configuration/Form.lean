import NotebookTree.Configuration.Basic
import NotebookTree.Decimal.Format
import NotebookTree.Toml.Document

/-!
# The TOML form of configurations

A configuration is a TOML text with the tables `defaults` and `markdown`. A missing table or field
has its default, and unknown ones are ignored. A table may also be written as an array of its
fields in order. A field of the wrong type makes the text unreadable.

`Configuration.print` writes all fields, so what it writes reads back as the same configuration.
-/

namespace NotebookTree

namespace Toml

/-- The fields of a table, by their names or by their order. A date has no fields. -/
def fields? (names : List String) : Toml → Option (List (Option Toml))
  | table _ entries => some (names.map fun name ↦ entries.lookup name)
  | array items => some ((List.range names.length).map (items[·]?))
  | tables items => some ((List.range names.length).map fun i ↦ items[i]?.map (table .header))
  | dateTime _ => some (names.map fun _ ↦ none)
  | _ => none

/-- Reads a truth value that may be missing. -/
def boolField? (fallback : Bool) : Option Toml → Option Bool
  | none => some fallback
  | some (bool value) => some value
  | some _ => none

/-- Reads a text that may be missing. -/
def stringField? (fallback : String) : Option Toml → Option String
  | none => some fallback
  | some (string value) => some value
  | some _ => none

/-- Reads a natural number that may be missing. -/
def natField? (fallback : Nat) : Option Toml → Option Nat
  | none => some fallback
  | some (integer value) => if 0 ≤ value then some value.toNat else none
  | some _ => none

end Toml

/-- Reads a table of defaults, which may be missing. -/
def PrintDefaults.ofToml? : Option Toml → Option PrintDefaults
  | none => some {}
  | some value => do
    match ← value.fields? ["output_format", "pretty"] with
    | [format, pretty] =>
      return {
        outputFormat := ← Toml.stringField? OutputFormat.json.name format
        pretty := ← Toml.boolField? true pretty }
    | _ => none

/-- Reads a table of options, which may be missing. -/
def CompileOptions.ofToml? : Option Toml → Option CompileOptions
  | none => some {}
  | some value => do
    match ← value.fields? ["frontmatter", "tables", "strikethrough", "tasklists", "footnotes",
      "heading_attributes", "max_nesting_depth"] with
    | [frontmatter, tables, strikethrough, tasklists, footnotes, headingAttributes, depth] =>
      return {
        frontmatter := ← Toml.boolField? true frontmatter
        tables := ← Toml.boolField? false tables
        strikethrough := ← Toml.boolField? false strikethrough
        tasklists := ← Toml.boolField? false tasklists
        footnotes := ← Toml.boolField? false footnotes
        headingAttributes := ← Toml.boolField? false headingAttributes
        maxNestingDepth := ← Toml.natField? defaultNestingDepth depth }
    | _ => none

namespace Configuration

/-- Reads the table that a TOML text is. -/
def ofToml? (entries : Toml.Entries) : Option Configuration := do
  let defaults ← PrintDefaults.ofToml? (entries.lookup "defaults")
  let markdown ← CompileOptions.ofToml? (entries.lookup "markdown")
  return ⟨defaults, markdown⟩

/-- Reads a TOML text, whose path is named if it fails. -/
def parse (path text : String) : Except Failure Configuration :=
  match Toml.parse? text.toList >>= ofToml? with
  | none => .error (.config ("failed to parse " ++ path))
  | some c => do
    c.validate
    return c

/-! ## Writing -/

/-- The line of a field. -/
def fieldLine (name : String) (value : List Char) : List Char :=
  name.toList ++ ' ' :: '=' :: ' ' :: value ++ ['\n']

/-- A truth value. -/
def boolChars : Bool → List Char
  | true => ['t', 'r', 'u', 'e']
  | false => ['f', 'a', 'l', 's', 'e']

/-- A character inside quotes. -/
def quotedChar (c : Char) : List Char :=
  if c = '"' ∨ c = '\\' then ['\\', c] else [c]

/-- The lines of the table of defaults. -/
def defaultsChars (d : PrintDefaults) : List Char :=
  "[defaults]\n".toList ++
    fieldLine "output_format" ('"' :: d.outputFormat.toList.flatMap quotedChar ++ ['"']) ++
    fieldLine "pretty" (boolChars d.pretty)

/-- The lines of the table of options. -/
def markdownChars (o : CompileOptions) : List Char :=
  "[markdown]\n".toList ++
    fieldLine "frontmatter" (boolChars o.frontmatter) ++
    fieldLine "tables" (boolChars o.tables) ++
    fieldLine "strikethrough" (boolChars o.strikethrough) ++
    fieldLine "tasklists" (boolChars o.tasklists) ++
    fieldLine "footnotes" (boolChars o.footnotes) ++
    fieldLine "heading_attributes" (boolChars o.headingAttributes) ++
    fieldLine "max_nesting_depth" (Decimal.natDigits o.maxNestingDepth)

/-- A configuration as a TOML text. -/
def print (c : Configuration) : String :=
  String.ofList (defaultsChars c.defaults ++ '\n' :: markdownChars c.markdown)

end Configuration

end NotebookTree
