import PlatformAdmin.Invocation
import PlatformAdmin.Terminal

/-!
# The command line

The words of a command line name a command, with flags before and after it and arguments after
it.  Words are read from left to right, and the first thing that is wrong, or the first request
for help or for the version, decides.

* The flags `--debug`, `--quiet` or `-q`, and `--no-interactive` may be given once before the
  command and once after it.  Short flags may share one dash.
* After `delete-user` there may also be `-f`; the word `--` ends the flags, and all other words
  that do not begin with a dash are arguments.
* After `update-service-broker` a word with a dash that is no flag is an argument, and from the
  first argument on every word is one.
-/

set_option autoImplicit false

namespace PlatformAdmin

/-- Something a flag asks for. -/
inductive Flag
  | debug
  | quiet
  | noInteractive
  | force
  | help
  | version
  deriving DecidableEq, Repr

namespace Flag

/-- The flag of a name behind two dashes. -/
def ofLong? (name : List Char) : Option Flag :=
  if name = "debug".toList then some .debug
  else if name = "quiet".toList then some .quiet
  else if name = "no-interactive".toList then some .noInteractive
  else if name = "help".toList then some .help
  else if name = "version".toList then some .version
  else none

/-- The flag of a letter behind one dash. -/
def ofLetter? (letter : Char) : Option Flag :=
  if letter = 'q' then some .quiet
  else if letter = 'f' then some .force
  else if letter = 'h' then some .help
  else if letter = 'V' then some .version
  else none

end Flag

/-- The commands there are. -/
inductive CommandName
  | deleteUser
  | updateServiceBroker
  deriving DecidableEq, Repr

namespace CommandName

/-- How a command is written. -/
def word : CommandName → String
  | .deleteUser => "delete-user"
  | .updateServiceBroker => "update-service-broker"

/-- The command of a word. -/
def ofWord? (w : String) : Option CommandName :=
  if w = "delete-user" then some .deleteUser
  else if w = "update-service-broker" then some .updateServiceBroker
  else none

end CommandName

/-- Why a command line names nothing to execute: something is wrong with it, or it asks for
information. -/
inductive CommandLineStop
  | unknownArgument
  /-- A flag was given twice. -/
  | argumentConflict
  /-- A flag was given a value. -/
  | tooManyValues
  /-- A word is no command. -/
  | invalidSubcommand
  /-- There are flags but no command. -/
  | missingSubcommand
  /-- There is nothing at all. -/
  | nothingGiven
  /-- A word is not text. -/
  | invalidUtf8
  | help
  | version
  deriving DecidableEq, Repr

/-- The exit status; to give information is no failure. -/
def CommandLineStop.exitCode : CommandLineStop → Nat
  | .help => 0
  | .version => 0
  | _ => 2

/-- A command line that names a command to execute. -/
structure CommandLine where
  /-- A log for diagnosis is asked for.  The log is kept apart from what a command writes and is no
  part of a run here, so no execution reads this. -/
  debug : Bool := false
  quiet : Bool := false
  noInteractive : Bool := false
  force : Bool := false
  command : CommandName
  args : List String := []
  deriving DecidableEq, Repr

namespace CommandLine

/-! ## Places for flags -/

/-- Where on the command line a flag may stand. -/
inductive Place
  | beforeCommand
  | after (command : CommandName)
  deriving DecidableEq, Repr

/-- Whether a flag is known at a place. -/
def Place.knows : Place → Flag → Bool
  | .beforeCommand, .force => false
  | .beforeCommand, _ => true
  | .after _, .version => false
  | .after command, .force => command = .deleteUser
  | .after _, _ => true

/-- The flag of a name, if it is known. -/
def Place.long? (place : Place) (name : List Char) : Option Flag :=
  (Flag.ofLong? name).filter place.knows

/-- The flag of a letter, if it is known. -/
def Place.letter? (place : Place) (letter : Char) : Option Flag :=
  (Flag.ofLetter? letter).filter place.knows

/-- A flag takes effect: it asks for information, or joins those already given at its place. -/
def give (given : List Flag) (flag : Flag) : Except CommandLineStop (List Flag) :=
  if flag = .help then .error .help
  else if flag = .version then .error .version
  else if flag ∈ given then .error .argumentConflict
  else .ok (given ++ [flag])

/-- The letters behind one dash, in order. -/
def giveLetters (place : Place) : List Flag → List Char → Except CommandLineStop (List Flag)
  | given, [] => .ok given
  | given, letter :: letters =>
    match place.letter? letter with
    | none => .error .unknownArgument
    | some flag =>
      match give given flag with
      | .ok given => giveLetters place given letters
      | .error stop => .error stop

/-- A word behind two dashes: the name of a flag, without a value. -/
def giveLong (place : Place) (given : List Flag) (word : List Char) :
    Except CommandLineStop (List Flag) :=
  let name := word.takeWhile (· != '=')
  match place.long? name with
  | none => .error .unknownArgument
  | some flag => if name.length < word.length then .error .tooManyValues else give given flag

/-- What a word looks like. -/
inductive WordForm
  /-- Two dashes and nothing else. -/
  | separator
  /-- A word behind two dashes. -/
  | long (name : List Char)
  /-- Letters behind one dash. -/
  | letters (letters : List Char)
  | plain
  deriving DecidableEq, Repr

/-- The form of a word; a single dash is a plain word. -/
def WordForm.of (word : String) : WordForm :=
  match word.toList with
  | ['-', '-'] => .separator
  | '-' :: '-' :: rest => .long rest
  | ['-'] => .plain
  | '-' :: rest => .letters rest
  | _ => .plain

/-! ## After the command -/

/-- The flags and arguments after a command. -/
structure Tail where
  given : List Flag := []
  args : List String := []
  deriving DecidableEq, Repr

/-- Words that are all arguments. -/
def plainArgs : List (Option String) → Except CommandLineStop (List String)
  | [] => .ok []
  | none :: _ => .error .invalidUtf8
  | some word :: words =>
    match plainArgs words with
    | .ok args => .ok (word :: args)
    | .error stop => .error stop

/-- The words after `delete-user`: flags and arguments in any order up to the separator. -/
def readMixed (place : Place) (given : List Flag) :
    List (Option String) → Except CommandLineStop Tail
  | [] => .ok { given }
  | none :: _ => .error .invalidUtf8
  | some word :: words =>
    match WordForm.of word with
    | .separator => (plainArgs words).map fun args => { given, args }
    | .long name =>
      match giveLong place given name with
      | .ok given => readMixed place given words
      | .error stop => .error stop
    | .letters letters =>
      match giveLetters place given letters with
      | .ok given => readMixed place given words
      | .error stop => .error stop
    | .plain =>
      (readMixed place given words).map fun tail => { tail with args := word :: tail.args }

/-- The words after `update-service-broker`: flags that are known, then arguments. -/
def readLeading (place : Place) (given : List Flag) :
    List (Option String) → Except CommandLineStop Tail
  | [] => .ok { given }
  | none :: _ => .error .invalidUtf8
  | some word :: words =>
    let asArgs := (plainArgs (some word :: words)).map fun args => ({ given, args } : Tail)
    match WordForm.of word with
    | .separator => (plainArgs words).map fun args => { given, args }
    | .long name =>
      if (place.long? (name.takeWhile (· != '='))).isSome then
        match giveLong place given name with
        | .ok given => readLeading place given words
        | .error stop => .error stop
      else asArgs
    | .letters letters =>
      if letters.all fun letter => (place.letter? letter).isSome then
        match giveLetters place given letters with
        | .ok given => readLeading place given words
        | .error stop => .error stop
      else asArgs
    | .plain => asArgs

/-- The words after a command. -/
def readTail (command : CommandName) (words : List (Option String)) :
    Except CommandLineStop Tail :=
  match command with
  | .deleteUser => readMixed (.after .deleteUser) [] words
  | .updateServiceBroker => readLeading (.after .updateServiceBroker) [] words

/-! ## The whole line -/

/-- The line of a command with the flags before and after it: a flag counts wherever it
stands. -/
def ofParts (before : List Flag) (command : CommandName) (tail : Tail) : CommandLine :=
  let isGiven := fun flag => decide (flag ∈ before ∨ flag ∈ tail.given)
  { debug := isGiven .debug, quiet := isGiven .quiet, noInteractive := isGiven .noInteractive
    force := isGiven .force, command, args := tail.args }

/-- What the words after `help` come to: they may name one command, or `help` itself. -/
def helpOn : List (Option String) → CommandLineStop
  | [] => .help
  | [some word] =>
    if word = "help" ∨ (CommandName.ofWord? word).isSome then .help else .invalidSubcommand
  | _ => .invalidSubcommand

/-- The words end without a command. -/
def endWithoutCommand (given : List Flag) : CommandLineStop :=
  if given.isEmpty then .nothingGiven else .missingSubcommand

/-- What comes of the first word after a separator before any command. -/
def afterSeparator (given : List Flag) : List (Option String) → CommandLineStop
  | [] => endWithoutCommand given
  | none :: _ => .invalidSubcommand
  | some word :: _ =>
    if word = "help" ∨ (CommandName.ofWord? word).isSome then .unknownArgument
    else .invalidSubcommand

/-- The words from the beginning, after these flags. -/
def readFrom (given : List Flag) : List (Option String) → Except CommandLineStop CommandLine
  | [] => .error (endWithoutCommand given)
  | none :: _ => .error .invalidSubcommand
  | some word :: words =>
    match CommandName.ofWord? word with
    | some command => (readTail command words).map (ofParts given command)
    | none =>
      if word = "help" then .error (helpOn words)
      else
        match WordForm.of word with
        | .separator => .error (afterSeparator given words)
        | .long name =>
          match giveLong .beforeCommand given name with
          | .ok given => readFrom given words
          | .error stop => .error stop
        | .letters letters =>
          match giveLetters .beforeCommand given letters with
          | .ok given => readFrom given words
          | .error stop => .error stop
        | .plain => .error .invalidSubcommand

/-- Reads a command line without the name of the program.  A word that is not text is
`none`. -/
def read (words : List (Option String)) : Except CommandLineStop CommandLine :=
  readFrom [] words

/-- How the user wants to be spoken to. -/
def manner (line : CommandLine) : Manner :=
  { quiet := line.quiet, interactive := !line.noInteractive }

/-- The invocation that the command is given. -/
def invocation (line : CommandLine) : Invocation :=
  match line.command with
  | .deleteUser =>
    { args := line.args, flags := ({} : Flags).set Invocation.forceFlag line.force }
  | .updateServiceBroker => { args := line.args }

end CommandLine

end PlatformAdmin
