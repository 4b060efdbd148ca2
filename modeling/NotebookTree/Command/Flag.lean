/-!
# Reading the words of a command line

A command line is a list of words. A word that starts with a dash sets flags: two dashes come before
the name of one flag, one dash before the letters of several. The value of a flag comes after an
equals sign, after the letter of the flag or in the next word. Two dashes alone make all words after
them operands. `Level.read` reads words up to the name of a command that stands below the level.
-/

namespace NotebookTree

/-- Why a command line gives no command. -/
inductive Stop where
  /-- It is not understood. -/
  | misuse
  /-- It asks for help. -/
  | help
  /-- It asks for the version. -/
  | version
  deriving DecidableEq, Inhabited

/-- What a flag is for. -/
inductive FlagKind where
  /-- It has no value and may be repeated. -/
  | counter
  /-- It has no value. -/
  | switch
  /-- It has any text as its value. -/
  | text
  /-- Its value is one of the names. -/
  | choice (names : List String)
  /-- It stops the reading. -/
  | stop (reason : Stop)
  deriving DecidableEq, Inhabited

/-- Has such a flag a value? -/
def FlagKind.takesValue : FlagKind → Bool
  | text | choice _ => true
  | _ => false

/-- A flag with its name, and the letter that may stand for it. -/
structure Flag where
  name : String
  letter : Option Char
  kind : FlagKind
  deriving DecidableEq, Inhabited

/-- What is known at one level of commands. -/
structure Level where
  flags : List Flag
  /-- The names of the commands below. -/
  commands : List String
  /-- The greatest number of operands. -/
  maxOperands : Nat
  deriving DecidableEq, Inhabited

/-- What has been read so far. -/
structure Reading where
  /-- The flags that are set, with their values. -/
  values : List (String × String)
  operands : List String
  deriving DecidableEq, Inhabited

namespace Reading

/-- Nothing. -/
def empty : Reading := ⟨[], []⟩

/-- Is a flag set? -/
def has (r : Reading) (name : String) : Bool := (r.values.lookup name).isSome

/-- The value of a flag. -/
def value? (r : Reading) (name : String) : Option String := r.values.lookup name

/-- Sets a flag. Only a counter may be set twice. -/
def set (r : Reading) (flag : Flag) (value : String) : Except Stop Reading :=
  match flag.kind with
  | .stop reason => .error reason
  | .counter => .ok r
  | .switch | .text =>
    if r.has flag.name then .error .misuse
    else .ok { r with values := r.values ++ [(flag.name, value)] }
  | .choice names =>
    if r.has flag.name || !names.contains value then .error .misuse
    else .ok { r with values := r.values ++ [(flag.name, value)] }

end Reading

/-- Is the word no flag? A dash alone is none. -/
def isOperand (word : List Char) : Bool :=
  match word with
  | '-' :: _ :: _ => false
  | _ => true

namespace Level

/-- Adds an operand, if there is room for one. -/
def addOperand (l : Level) (r : Reading) (word : String) : Except Stop Reading :=
  if r.operands.length < l.maxOperands then .ok { r with operands := r.operands ++ [word] }
  else .error .misuse

/-- Sets the flag of a name, which a value may follow in the same word. The flag is given back if
its value is in the next word. -/
def readName (l : Level) (r : Reading) (word : List Char) :
    Except Stop (Reading × Option Flag) := do
  let name := String.ofList (word.takeWhile (· != '='))
  match l.flags.find? (·.name == name), word.dropWhile (· != '=') with
  | none, _ => .error .misuse
  | some flag, [] =>
    if flag.kind.takesValue then .ok (r, some flag) else return (← r.set flag "", none)
  | some flag, _ :: value =>
    if flag.kind.takesValue then return (← r.set flag (String.ofList value), none)
    else .error .misuse

/-- Sets the flags of letters. A flag with a value takes all letters after it, and is given back if
there are none. -/
def readLetters (l : Level) (r : Reading) : List Char → Except Stop (Reading × Option Flag)
  | [] => .ok (r, none)
  | letter :: rest =>
    match l.flags.find? (·.letter == some letter) with
    | none => .error .misuse
    | some flag =>
      if flag.kind.takesValue then
        match rest with
        | [] => .ok (r, some flag)
        | '=' :: value => do return (← r.set flag (String.ofList value), none)
        | value => do return (← r.set flag (String.ofList value), none)
      else do l.readLetters (← r.set flag "") rest

/-- Reads a word that sets flags. -/
def readFlags (l : Level) (r : Reading) (word : List Char) : Except Stop (Reading × Option Flag) :=
  match word with
  | '-' :: '-' :: name => l.readName r name
  | '-' :: letters => l.readLetters r letters
  | _ => .error .misuse

/-- Adds operands one after the other. -/
def addOperands (l : Level) (r : Reading) (words : List String) : Except Stop Reading :=
  words.foldlM l.addOperand r

/-- Reads words, the first of which may be the value of a flag. If there is the name of a command
below, it is given back with the words after it. -/
def read (l : Level) (pending : Option Flag) (r : Reading) :
    List String → Except Stop (Reading × Option (String × List String))
  | [] => if pending.isSome then .error .misuse else .ok (r, none)
  | word :: rest =>
    match pending with
    | some flag =>
      if isOperand word.toList then do l.read none (← r.set flag word) rest else .error .misuse
    | none =>
      if l.commands.contains word then .ok (r, some (word, rest))
      else if word = "--" then do return (← l.addOperands r rest, none)
      else if isOperand word.toList then do l.read none (← l.addOperand r word) rest
      else do
        let (r, pending) ← l.readFlags r word.toList
        l.read pending r rest

end Level

end NotebookTree
