import NotebookTree.Command.Arguments
import NotebookTree.Configuration.Store
import NotebookTree.Content
import NotebookTree.Files
import NotebookTree.Node.Markup

/-!
# Running commands

`Command.run` gives what a command prints, and the configuration directory after it. A failing
command prints nothing and leaves the directory as it was. `Home.run` runs a whole command line on
a home directory, with the exit code that tells apart success, failure and misuse.
-/

namespace NotebookTree

/-- A record as it is printed. Only a document has an HTML form; any other record is printed as
JSON. -/
def Record.print (format : OutputFormat) (pretty : Bool) (r : Record) : String :=
  match format, r.tree? with
  | .html, some root => Node.renderHtml [root]
  | _, _ => if pretty then r.toJson.pretty else r.toJson.compact

namespace ParseRequest

/-- Reads a notebook as contents: a text as it is, or else a JSON value. -/
def content (r : ParseRequest) (input : Option ByteArray) : Except Failure Json :=
  match input with
  | none => .error (.io r.path "the file cannot be read")
  | some bytes =>
    match String.fromUTF8? bytes with
    | none => .error (.io r.path "the file is not UTF-8")
    | some text =>
      if r.raw then .ok (.string text)
      else
        match Json.parse? text with
        | some value => .ok value
        | none => .error (.notJson r.path)

/-- The document that a request prints, from the configuration and the file of the notebook. -/
def print (r : ParseRequest) (c : Configuration) (input : Option ByteArray) :
    Except Failure String := do
  let content ← r.content input
  let record := Content.parse c.compileOptions r.recordId (some content)
  return record.print (r.format.getD c.format) (c.defaults.pretty && !r.compact)

end ParseRequest

namespace Command

/-- The path of the file that a command reads, apart from the configuration. -/
def inputPath? : Command → Option String
  | parse request => some request.path
  | _ => none

/-- Runs a command in a home directory whose configuration directory and input file are given: what
it prints, and the configuration directory after it. -/
def run (home : String) (directory : ConfigDirectory) (input : Option ByteArray) :
    Command → Except Failure (String × ConfigDirectory)
  | parse request => do
    let c ← directory.load home
    return ((← request.print c input) ++ "\n", directory)
  | initConfiguration => do
    let directory ← directory.init home
    return ("Config initialized at: " ++ ConfigDirectory.filePath home ++ "\n", directory)
  | showConfiguration => do
    let c ← directory.load home
    return (c.print ++ "\n", directory)

end Command

/-- What a run of the program leaves: its exit code and what it has printed. -/
structure Outcome where
  exitCode : Nat
  output : String
  deriving DecidableEq, Inhabited

namespace Outcome

/-- The name and the version of the program. -/
def versionText : String := "nbcontent 0.1.0\n"

/-- How to use the program. -/
def helpText : String :=
  "Usage: nbcontent [--log-format text|json] [-v] parse PATH [--id ID] [-f json|html] " ++
  "[--raw] [--compact]\n       nbcontent config init|show\n"

/-- The outcome of a command line that gives no command. -/
def ofStop : Stop → Outcome
  | .misuse => ⟨2, ""⟩
  | .help => ⟨0, helpText⟩
  | .version => ⟨0, versionText⟩

end Outcome

/-- A home directory. -/
structure Home where
  path : String
  config : ConfigDirectory
  /-- What else it holds. -/
  others : List (String × FileTree)
  deriving Inhabited

namespace Home

/-- A home directory as a tree of files. -/
def tree (h : Home) : FileTree :=
  .directory <|
    match h.config with
    | .missing => h.others
    | .blocked => (ConfigDirectory.directoryName, .file .empty) :: h.others
    | .present none => (ConfigDirectory.directoryName, .directory []) :: h.others
    | .present (some bytes) =>
      (ConfigDirectory.directoryName, .directory [(ConfigDirectory.fileName, .file bytes)]) ::
        h.others

/-- The configuration in the file of a path in the home directory. -/
def loadFrom (h : Home) (path : String) : Except Failure Configuration :=
  let full := h.path ++ "/" ++ path
  match h.tree.read? [] path with
  | none => .error (.io full "the file cannot be read")
  | some bytes => ConfigDirectory.readConfiguration full bytes

/-- Runs a command line in a directory below the home directory. -/
def run (h : Home) (directory : List String) (words : List String) : Outcome × Home :=
  match Command.ofArguments words with
  | .error stop => (.ofStop stop, h)
  | .ok command =>
    let input := command.inputPath? >>= h.tree.read? directory
    match command.run h.path h.config input with
    | .error _ => (⟨1, ""⟩, h)
    | .ok (output, config) => (⟨0, output⟩, { h with config := config })

end Home

end NotebookTree
