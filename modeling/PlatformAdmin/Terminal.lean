import PlatformAdmin.Text.Ascii
import PlatformAdmin.Text.Blank
import PlatformAdmin.Text.Quoted
import PlatformAdmin.Text.Utf8

/-!
# The terminal

A command talks to its user through two output streams and one input.  The primary stream
carries progress and questions, the secondary stream warnings and failures.  A `Terminal` is
the state of that conversation: what was written to each stream so far, what is still to be
read, and how the user wants to be spoken to.  Progress is written unless the terminal is
quiet; questions are asked only if it is interactive.

A stream may be broken, in which case every use of it fails with a fixed text.  A failed write
stores nothing; only questions report it, all other output goes on regardless.

Input is a list of characters, with `none` for bytes that spell no character.  It is read line
by line: `splitLine` cuts behind the first line feed, so lines partition the input.
-/

set_option autoImplicit false

namespace PlatformAdmin

/-- Why a question got no answer. -/
inductive QuestionError
  | notAllowed
  | io (text : String)
  deriving DecidableEq, Repr

/-- What the user is told about it. -/
def QuestionError.message : QuestionError → String
  | .notAllowed => "not in interactive mode"
  | .io text => "IO error: " ++ text

/-- How the user wants to be spoken to. -/
structure Manner where
  /-- Progress is kept back. -/
  quiet : Bool := false
  /-- Questions may be asked. -/
  interactive : Bool := true
  deriving DecidableEq, Repr

/-- The description of a manner. -/
def Manner.describe (m : Manner) : String :=
  Text.describeRecord "Context"
    [("quiet", Text.describeBool m.quiet), ("interactive", Text.describeBool m.interactive)]

/-- Which uses of the streams fail, and with what text.  A stream works or fails for as long as a
command runs; one that breaks in between is not described. -/
structure StreamFaults where
  /-- Each write to the primary stream. -/
  write : Option String := none
  /-- Each flush of the primary stream. -/
  flush : Option String := none
  /-- Each write to the secondary stream. -/
  writeErr : Option String := none
  /-- Each read of the input. -/
  read : Option String := none
  deriving DecidableEq, Repr

/-- The state of the conversation with the user. -/
structure Terminal extends Manner where
  /-- What is still to be read. -/
  input : List (Option Char) := []
  /-- What was written to the primary stream. -/
  out : String := ""
  /-- What was written to the secondary stream. -/
  err : String := ""
  faults : StreamFaults := {}
  deriving DecidableEq, Repr

namespace Terminal

/-- A terminal whose input serves a text. -/
def ofInput (text : String) : Terminal :=
  { input := text.toList.map some }

/-- The description of a terminal shows its manner only. -/
def describe (t : Terminal) : String :=
  Text.describeRecord "Ui"
    [("interactive", Text.describeBool t.interactive), ("quiet", Text.describeBool t.quiet)]

/-! ## Output -/

/-- Writes to the primary stream. -/
def write (t : Terminal) (text : String) : Except String Unit × Terminal :=
  match t.faults.write with
  | some fault => (.error fault, t)
  | none => (.ok (), { t with out := t.out ++ text })

/-- Writes a line to the secondary stream, or nothing if the stream is broken. -/
def warn (t : Terminal) (message : String) : Terminal :=
  match t.faults.writeErr with
  | some _ => t
  | none => { t with err := t.err ++ message ++ "\n" }

/-- Writes a line of progress, unless the terminal is quiet. -/
def say (t : Terminal) (message : String) : Terminal :=
  if t.quiet then t else (t.write (message ++ "\n")).2

/-- Writes each warning on a line of its own. -/
def warnAll (t : Terminal) (warnings : List String) : Terminal :=
  warnings.foldl warn t

/-- The mark of success. -/
def okMark : String := "OK"

/-- The mark of failure. -/
def failedMark : String := "FAILED"

/-- Reports success. -/
def ok (t : Terminal) : Terminal :=
  t.say okMark

/-- Reports a failure. -/
def failed (t : Terminal) (message : String) : Terminal :=
  (t.warn failedMark).warn message

/-- Reports wrong usage, with the usage text. -/
def showUsage (t : Terminal) (usage : String) : Terminal :=
  (t.warn "Incorrect Usage.\n").warn usage

/-! ## Input -/

/-- The input up to its first line feed, and what follows that line feed. -/
def splitLine : List (Option Char) → List (Option Char) × List (Option Char)
  | [] => ([], [])
  | c :: rest =>
    if c = some '\n' then ([], rest) else (c :: (splitLine rest).1, (splitLine rest).2)

/-- The line ends at the first line feed, which is taken along. -/
theorem splitLine_append_cons {line rest : List (Option Char)} (h : some '\n' ∉ line) :
    splitLine (line ++ some '\n' :: rest) = (line, rest) := by
  induction line with
  | nil => simp [splitLine]
  | cons c line ih =>
    simp only [List.mem_cons, not_or] at h
    simp [splitLine, ih h.2, Ne.symm h.1]

/-- Without a line feed the line is all there is. -/
theorem splitLine_of_not_mem {line : List (Option Char)} (h : some '\n' ∉ line) :
    splitLine line = (line, []) := by
  induction line with
  | nil => rfl
  | cons c line ih =>
    simp only [List.mem_cons, not_or] at h
    simp [splitLine, ih h.2, Ne.symm h.1]

/-- A line without the carriage returns at its end. -/
def stripReturns (line : String) : String :=
  String.ofList (Text.dropTrailing (· == '\r') line.toList)

/-- Reads a line, without the line feed and the carriage returns before it.  At the end of
input the line is empty.  A line with bytes that are no text is read, and reported. -/
def readLine (t : Terminal) : Except QuestionError String × Terminal :=
  match t.faults.read with
  | some fault => (.error (.io fault), t)
  | none =>
    let (line, rest) := splitLine t.input
    let t := { t with input := rest }
    match Text.Utf8.text? line with
    | some text => (.ok (stripReturns text), t)
    | none => (.error (.io "stream did not contain valid UTF-8"), t)

/-! ## Questions -/

/-- Flushes the primary stream. -/
def flush (t : Terminal) : Except String Unit :=
  match t.faults.flush with
  | some fault => .error fault
  | none => .ok ()

/-- Shows a text and reads the line the user answers with, if questions are allowed and the
text can be shown. -/
def ask (t : Terminal) (text : String) : Except QuestionError String × Terminal :=
  if t.interactive then
    match t.write text with
    | (.error fault, t) => (.error (.io fault), t)
    | (.ok (), t) =>
      match t.flush with
      | .error fault => (.error (.io fault), t)
      | .ok () => t.readLine
  else (.error .notAllowed, t)

/-- Whether an answer means yes: `y` or `yes` in any case, with any blanks around it. -/
def meansYes (answer : String) : Bool :=
  let word := Text.trim answer
  Text.equalsIgnoringCase word "y" || Text.equalsIgnoringCase word "yes"

/-- Asks a question that is answered with yes or no. -/
def confirm (t : Terminal) (question : String) : Except QuestionError Bool × Terminal :=
  match t.ask (question ++ " ") with
  | (.ok answer, t) => (.ok (meansYes answer), t)
  | (.error e, t) => (.error e, t)

/-- Asks for a secret and ends the line that its entry left open.  The secret is a line of
the input, as where the input comes from no screen; to keep a screen from showing what is typed is
not described. -/
def askSecret (t : Terminal) (label : String) : Except QuestionError String × Terminal :=
  match t.ask (label ++ ": ") with
  | (.ok answer, t) => (.ok (Text.trim answer), (t.write "\n").2)
  | (.error e, t) => (.error e, t)

end Terminal

end PlatformAdmin
