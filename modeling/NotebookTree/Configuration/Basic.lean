import NotebookTree.Failure
import NotebookTree.Options

/-!
# Configurations

A configuration says how records are printed and how notebooks are compiled. The name of the format
and the nesting limit are restricted, which `Configuration.validate` checks, the name first.
-/

namespace NotebookTree

/-- The formats in which a record is printed. -/
inductive OutputFormat where
  | json
  | html
  deriving DecidableEq, Inhabited

namespace OutputFormat

/-- The name of a format. -/
def name : OutputFormat → String
  | json => "json"
  | html => "html"

/-- The format of a name. -/
def ofName? (name : String) : Option OutputFormat :=
  if name = "json" then some json else if name = "html" then some html else none

end OutputFormat

/-- How records are printed unless the command line says otherwise. -/
structure PrintDefaults where
  /-- The name of the format. -/
  outputFormat : String := OutputFormat.json.name
  /-- Is JSON written over indented lines? -/
  pretty : Bool := true
  deriving DecidableEq, Inhabited

/-- A configuration of the program. -/
structure Configuration where
  defaults : PrintDefaults := {}
  markdown : CompileOptions := {}
  deriving DecidableEq, Inhabited

namespace Configuration

/-- The value that makes a configuration invalid. -/
inductive Fault where
  | unknownFormat (name : String)
  | noNesting
  deriving DecidableEq, Inhabited

/-- What is wrong with the value. -/
def Fault.message : Fault → String
  | unknownFormat name =>
    "unknown output_format '" ++ name ++ "' (expected \"json\" or \"html\")"
  | noNesting => "max_nesting_depth must be at least 1"

/-- The first fault of a configuration. -/
def fault? (c : Configuration) : Option Fault :=
  if (OutputFormat.ofName? c.defaults.outputFormat).isNone then
    some (.unknownFormat c.defaults.outputFormat)
  else if c.markdown.maxNestingDepth = 0 then some .noNesting
  else none

/-- Refuses a configuration with a fault. -/
def validate (c : Configuration) : Except Failure Unit :=
  match c.fault? with
  | some fault => .error (.validation fault.message)
  | none => .ok ()

/-- The options that notebooks are compiled with. -/
def compileOptions (c : Configuration) : CompileOptions where
  frontmatter := c.markdown.frontmatter
  tables := c.markdown.tables
  strikethrough := c.markdown.strikethrough
  tasklists := c.markdown.tasklists
  footnotes := c.markdown.footnotes
  headingAttributes := c.markdown.headingAttributes
  maxNestingDepth := c.markdown.maxNestingDepth

/-- The format in which records are printed. -/
def format (c : Configuration) : OutputFormat :=
  (OutputFormat.ofName? c.defaults.outputFormat).getD .json

end Configuration

end NotebookTree
