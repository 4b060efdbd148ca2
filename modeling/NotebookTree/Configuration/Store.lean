import NotebookTree.Configuration.Form

/-!
# Where the configuration is kept

The configuration is a file in a directory of its own in the home directory. A plain file may stand
in place of the directory; nothing can then be written. As long as there is no configuration file,
the default configuration holds.
-/

namespace NotebookTree

/-- The configuration directory as it is found. -/
inductive ConfigDirectory where
  | missing
  /-- A plain file without contents is in its place. -/
  | blocked
  /-- The directory, with the contents of the configuration file if there is one. -/
  | present (file : Option ByteArray)
  deriving Inhabited

namespace ConfigDirectory

/-- The name of the directory. -/
def directoryName : String := ".nbcontent"

/-- The name of the file in the directory. -/
def fileName : String := "nbcontent.toml"

/-- The path of the directory in a home directory. -/
def directoryPath (home : String) : String := home ++ "/" ++ directoryName

/-- The path of the configuration file in a home directory. -/
def filePath (home : String) : String := directoryPath home ++ "/" ++ fileName

/-- The contents of the configuration file. -/
def contents? : ConfigDirectory → Option ByteArray
  | present file => file
  | _ => none

/-- Writes the configuration file, and makes its directory. Nothing if a plain file is in the
way. -/
def write? (bytes : ByteArray) : ConfigDirectory → Option ConfigDirectory
  | blocked => none
  | _ => some (present (some bytes))

/-- Removes the directory with all in it. A plain file stays. -/
def remove : ConfigDirectory → ConfigDirectory
  | present _ => missing
  | other => other

/-- Reads the bytes of a configuration file. -/
def readConfiguration (path : String) (bytes : ByteArray) : Except Failure Configuration :=
  match String.fromUTF8? bytes with
  | none => .error (.io path "the file is not UTF-8")
  | some text => Configuration.parse path text

/-- The configuration that holds. -/
def load (home : String) (d : ConfigDirectory) : Except Failure Configuration :=
  match d.contents? with
  | none => .ok {}
  | some bytes => readConfiguration (filePath home) bytes

/-- Writes the default configuration. -/
def init (home : String) (d : ConfigDirectory) : Except Failure ConfigDirectory :=
  match d.write? ({} : Configuration).print.toUTF8 with
  | none => .error (.io (directoryPath home) "a plain file is in the way")
  | some written => .ok written

end ConfigDirectory

end NotebookTree
