import NotebookTree.Command.Run

/-!
# The program

The outer layer of the program: it reads the files that a command needs, runs the command, and
writes what has changed.
-/

namespace NotebookTree

/-- Prints a failure. -/
def reportFailure (message : String) : IO UInt32 := do
  IO.eprintln ("Error: " ++ message)
  return 1

/-- Writes the configuration file of a home directory. -/
def writeConfiguration (home : String) (bytes : ByteArray) : IO Unit := do
  IO.FS.createDirAll (ConfigDirectory.directoryPath home)
  IO.FS.writeBinFile (ConfigDirectory.filePath home) bytes

/-- Finds the configuration directory of a home directory. -/
def findConfigDirectory (home : String) : IO ConfigDirectory := do
  match ← (IO.FS.readBinFile (ConfigDirectory.filePath home)).toBaseIO with
  | .ok bytes => return .present (some bytes)
  | .error (.noFileOrDirectory ..) | .error (.inappropriateType ..) => return .missing
  | .error e => throw e

/-- Runs a command in a home directory. -/
def runCommand (home : String) (command : Command) : IO UInt32 := do
  let before ← findConfigDirectory home
  let input ← match command.inputPath? with
    | none => pure none
    | some path => pure (← (IO.FS.readBinFile path).toBaseIO).toOption
  match command.run home before input with
  | .error failure => reportFailure failure.message
  | .ok (output, after) =>
    if command = .initConfiguration then
      if let some bytes := after.contents? then writeConfiguration home bytes
    IO.print output
    return 0

/-- Runs a command line. -/
def runArguments (arguments : List String) : IO UInt32 := do
  match Command.ofArguments arguments with
  | .error stop =>
    let outcome := Outcome.ofStop stop
    IO.print outcome.output
    if stop = .misuse then IO.eprintln Outcome.helpText
    return outcome.exitCode.toUInt32
  | .ok command =>
    match ← IO.getEnv "HOME" with
    | none => reportFailure (Failure.config "could not determine home directory").message
    | some home =>
      try runCommand home command
      catch e => reportFailure e.toString

end NotebookTree

/-- Runs the program. -/
def main (arguments : List String) : IO UInt32 :=
  NotebookTree.runArguments arguments
