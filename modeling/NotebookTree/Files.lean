/-!
# Files

A `FileTree` is a directory with all that it holds, or a plain file. `FileTree.read?` finds the file
that a path leads to. A dot stands for the directory itself and two dots for the one around it.
Nothing is known of what lies outside the tree, so a path that leaves it, or starts at the root of
all files, leads nowhere.
-/

namespace NotebookTree

/-- A plain file, or a directory with its entries. -/
inductive FileTree where
  | file (contents : ByteArray)
  | directory (entries : List (String × FileTree))
  deriving Inhabited

namespace FileTree

/-- Follows the parts of a path. The directories on the way are given, the innermost first. -/
def follow? : List FileTree → List String → Option FileTree
  | [], _ => none
  | here :: _, [] => some here
  | here :: around, part :: rest =>
    match here with
    | file _ => none
    | directory entries =>
      if part = "" ∨ part = "." then follow? (here :: around) rest
      else if part = ".." then follow? around rest
      else
        match entries.lookup part with
        | some next => follow? (next :: here :: around) rest
        | none => none

/-- The contents of the file that a path leads to from a directory of the tree. -/
def read? (tree : FileTree) (directory : List String) (path : String) : Option ByteArray :=
  if path = "" ∨ path.toList.head? = some '/' then none
  else
    let parts := (path.toList.splitOn '/').map String.ofList
    match follow? [tree] (directory ++ parts) with
    | some (file contents) => some contents
    | _ => none

end FileTree

end NotebookTree
