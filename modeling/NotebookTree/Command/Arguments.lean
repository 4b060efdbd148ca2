import NotebookTree.Command.Basic
import NotebookTree.Command.Flag

/-!
# From command lines to commands

`Command.ofArguments` reads the command line of the program without the name of the program. At each
level the log format and the verbosity may be set, which have no bearing on what is printed.
-/

namespace NotebookTree.Command

/-- The flags that every level has. -/
def commonFlags : List Flag :=
  [⟨"log-format", none, .choice ["text", "json"]⟩, ⟨"verbose", some 'v', .counter⟩,
    ⟨"help", some 'h', .stop .help⟩]

/-- The level of the program itself. -/
def topLevel : Level :=
  ⟨⟨"version", some 'V', .stop .version⟩ :: commonFlags, ["parse", "config", "help"], 0⟩

/-- The level of the commands for the configuration. -/
def configLevel : Level := ⟨commonFlags, ["init", "show", "help"], 0⟩

/-- The level of a command without flags and operands of its own. -/
def plainLevel : Level := ⟨commonFlags, [], 0⟩

/-- The level of requests to compile a notebook. -/
def parseLevel : Level :=
  ⟨[⟨"id", none, .text⟩,
      ⟨"format", some 'f', .choice [OutputFormat.json.name, OutputFormat.html.name]⟩,
      ⟨"raw", none, .switch⟩, ⟨"compact", none, .switch⟩] ++ commonFlags,
    [], 1⟩

/-- The commands that help can be asked for. -/
def helpTopics : List (List String) :=
  [[], ["help"], ["parse"], ["config"], ["config", "init"], ["config", "show"], ["config", "help"]]

/-- Answers a request for help on a command. -/
def helpOn (topic : List String) : Except Stop Command :=
  .error (if helpTopics.contains topic then .help else .misuse)

/-- Reads a request to compile a notebook. -/
def ofParseArguments (words : List String) : Except Stop Command := do
  let (r, _) ← parseLevel.read none .empty words
  match r.operands with
  | [path] =>
    if path.isEmpty then .error .misuse
    else
      return parse {
        path := path
        id := r.value? "id"
        format := r.value? "format" >>= OutputFormat.ofName?
        raw := r.has "raw"
        compact := r.has "compact" }
  | _ => .error .misuse

/-- Reads the command of a level that has no arguments. -/
def ofPlainArguments (command : Command) (words : List String) : Except Stop Command := do
  let _ ← plainLevel.read none .empty words
  return command

/-- Reads a command for the configuration. -/
def ofConfigArguments (words : List String) : Except Stop Command := do
  match ← configLevel.read none .empty words with
  | (_, some ("init", rest)) => ofPlainArguments initConfiguration rest
  | (_, some ("show", rest)) => ofPlainArguments showConfiguration rest
  | (_, some (_, rest)) => helpOn ("config" :: rest)
  | (_, none) => .error .misuse

/-- Reads a command line. -/
def ofArguments (words : List String) : Except Stop Command := do
  match ← topLevel.read none .empty words with
  | (_, some ("parse", rest)) => ofParseArguments rest
  | (_, some ("config", rest)) => ofConfigArguments rest
  | (_, some (_, rest)) => helpOn rest
  | (_, none) => .error .misuse

end NotebookTree.Command
