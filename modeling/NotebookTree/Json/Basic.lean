/-!
# JSON values

A JSON value keeps the order of the entries of its objects. A number is an integer as long as it
fits in 64 bits, with or without a sign, and a double otherwise. Objects are lists of entries;
`Json.Object.insert` keeps one entry for each key.
-/

namespace NotebookTree

/-- The number of a JSON value. -/
inductive Json.Number where
  | integer (value : Int)
  | real (value : Float)
  deriving Repr, Inhabited

/-- A JSON value. -/
inductive Json where
  | null
  | bool (value : Bool)
  | number (value : Json.Number)
  | string (value : String)
  | array (items : List Json)
  | object (entries : List (String × Json))
  deriving Repr, Inhabited

namespace Json

/-- The entries of an object, in order. -/
abbrev Object := List (String × Json)

/-- The value of the entry with the given key. -/
def Object.get? (entries : Object) (key : String) : Option Json :=
  (entries.find? (·.1 == key)).map (·.2)

/-- Sets the value of a key. A key that is present keeps its place, a new one goes to the end. -/
def Object.insert (key : String) (value : Json) : Object → Object
  | [] => [(key, value)]
  | (k, v) :: rest =>
    if k == key then (k, value) :: rest else (k, v) :: Object.insert key value rest

/-- Inserts entries one after the other. -/
def Object.insertAll (entries more : Object) : Object :=
  more.foldl (fun acc entry ↦ Object.insert entry.1 entry.2 acc) entries

/-- An integer as a JSON value. -/
def int (n : Int) : Json := number (.integer n)

/-- A natural number as a JSON value. -/
def nat (n : Nat) : Json := int n

/-- The value at a key of an object; nothing for any other value. -/
def get? (value : Json) (key : String) : Option Json :=
  match value with
  | object entries => Object.get? entries key
  | _ => none

end Json

end NotebookTree
