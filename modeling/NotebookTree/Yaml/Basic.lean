import NotebookTree.Json.Printer

/-!
# YAML values

A YAML value is a scalar, a sequence, a mapping with keys of any kind, or a value with a tag of its
own. `Yaml.toJson?` gives the JSON value with the same contents. Keys become strings, which null,
collections and tagged values cannot, and neither can a double that is not finite. Of entries whose
keys become equal the last value counts.
-/

namespace NotebookTree

/-- A YAML value. -/
inductive Yaml where
  | null
  | bool (value : Bool)
  | integer (value : Int)
  | real (value : Float)
  | string (value : String)
  | sequence (items : List Yaml)
  | mapping (entries : List (Yaml × Yaml))
  | tagged (tag : String) (value : Yaml)
  deriving Inhabited

namespace Yaml

mutual

/-- Are two values equal? Doubles are compared as numbers. -/
def beq : Yaml → Yaml → Bool
  | null, null => true
  | bool a, bool b => a == b
  | integer a, integer b => a == b
  | real a, real b => a == b
  | string a, string b => a == b
  | sequence items, sequence others => beqItems items others
  | mapping entries, mapping others => beqEntries entries others
  | tagged tag a, tagged other b => tag == other && beq a b
  | _, _ => false

/-- Are the items of two sequences equal? -/
def beqItems : List Yaml → List Yaml → Bool
  | [], [] => true
  | a :: items, b :: others => beq a b && beqItems items others
  | _, _ => false

/-- Are the entries of two mappings equal, in order? -/
def beqEntries : List (Yaml × Yaml) → List (Yaml × Yaml) → Bool
  | [], [] => true
  | (key, value) :: entries, (key', value') :: others =>
    beq key key' && beq value value' && beqEntries entries others
  | _, _ => false

end

instance : BEq Yaml := ⟨beq⟩

/-- The key of a JSON object that a key becomes. -/
def key? : Yaml → Option String
  | bool value => some (if value then "true" else "false")
  | integer value => some (String.ofList (Decimal.intDigits value))
  | real value =>
    if value.isFinite then some (String.ofList (Decimal.floatChars Json.floatFormat value))
    else none
  | string value => some value
  | _ => none

/-- A tag with exactly one exclamation mark before its name, where an exclamation mark alone is a
name too. -/
def tagKey (tag : String) : String :=
  match tag.toList with
  | '!' :: c :: rest => String.ofList ('!' :: c :: rest)
  | name => String.ofList ('!' :: name)

mutual

/-- The JSON value with the same contents. -/
def toJson? : Yaml → Option Json
  | null => some .null
  | bool value => some (.bool value)
  | integer value => some (.int value)
  | real value => some (if value.isFinite then .number (.real value) else .null)
  | string value => some (.string value)
  | sequence items => do return .array (← listJson? items)
  | mapping entries => do return .object (← objectJson? [] entries)
  | tagged tag value => do return .object [(tagKey tag, ← toJson? value)]

/-- The JSON values of the items of a sequence. -/
def listJson? : List Yaml → Option (List Json)
  | [] => some []
  | item :: rest => do
    let json ← toJson? item
    let items ← listJson? rest
    return json :: items

/-- Adds the entries of a mapping to a JSON object. -/
def objectJson? (object : Json.Object) : List (Yaml × Yaml) → Option Json.Object
  | [] => some object
  | (key, value) :: rest => do
    let name ← key? key
    let json ← toJson? value
    objectJson? (Json.Object.insert name json object) rest

end

end Yaml

end NotebookTree
