import PlatformAdmin.CommandResult
import PlatformAdmin.Credential
import PlatformAdmin.Gateway
import PlatformAdmin.PendingWarnings
import PlatformAdmin.Requirements

/-!
# Commands

A command is a declaration of what it needs together with a body that does its work.  The
declaration is all that is looked at before the body may run: how many arguments there have
to be, which capabilities, which question, which secrets.  The body works in the monad `Run`:
it may speak on the terminal, call the gateway and keep warnings, and it may fail.  Otherwise
it ends with a notice or without one.  The state of a run keeps the list of all calls made.
-/

set_option autoImplicit false

namespace PlatformAdmin

/-- What a command needs before it may run. -/
structure Declaration where
  name : String
  /-- The text that explains how the command is used. -/
  usage : String
  checkArguments : Invocation → Except ArgumentCountError Unit
  scope : Scope := .session
  requirements : Requirements := .nothing
  /-- The question to ask first, if there is one. -/
  question : Invocation → Option String := fun _ => none
  secrets : Invocation → List NeededSecret := fun _ => []

/-- The state of a run, over the state `σ` of its gateway. -/
structure RunState (σ : Type) where
  terminal : Terminal
  remote : σ
  warnings : PendingWarnings := {}
  /-- The calls made so far, oldest first. -/
  calls : List Call := []

/-- A step of a run: it may fail, and the state it reached counts even then. -/
def Run (σ α : Type) : Type :=
  RunState σ → Except Failure α × RunState σ

namespace Run

variable {σ α β : Type}

/-- The step that does nothing. -/
protected def pure (a : α) : Run σ α := fun s => (.ok a, s)

/-- One step after another; a failure is final. -/
protected def bind (x : Run σ α) (f : α → Run σ β) : Run σ β := fun s =>
  match x s with
  | (.ok a, s) => f a s
  | (.error e, s) => (.error e, s)

instance : Monad (Run σ) where
  pure := Run.pure
  bind := Run.bind

/-- To return a value changes nothing. -/
@[simp] theorem pure_apply (a : α) (s : RunState σ) : (pure a : Run σ α) s = (.ok a, s) := rfl

/-- The second step runs from where the first one ended, unless that failed. -/
theorem bind_apply (x : Run σ α) (f : α → Run σ β) (s : RunState σ) :
    (x >>= f) s = match x s with
      | (.ok a, s) => f a s
      | (.error e, s) => (.error e, s) := rfl

/-- Fails. -/
def fail (e : Failure) : Run σ α := fun s => (.error e, s)

/-- Speaks on the terminal. -/
def speak (f : Terminal → Terminal) : Run σ Unit := fun s =>
  (.ok (), { s with terminal := f s.terminal })

/-- Writes a line of progress. -/
def say (message : String) : Run σ Unit := speak (·.say message)

/-- Asks a question on the terminal; a question without an answer is a failure. -/
def ask (question : Terminal → Except QuestionError α × Terminal) : Run σ α := fun s =>
  match question s.terminal with
  | (.ok a, terminal) => (.ok a, { s with terminal })
  | (.error e, terminal) => (.error (.question e), { s with terminal })

/-- Shows the pending warnings. -/
def flushWarnings : Run σ Unit := fun s =>
  let (warnings, terminal) := s.warnings.flush s.terminal
  (.ok (), { s with warnings, terminal })

/-- Keeps warnings until they are shown. -/
def keepWarnings (warnings : List String) : Run σ Unit := fun s =>
  (.ok (), { s with warnings := s.warnings.add warnings })

/-- Calls the platform. -/
def call (g : Gateway σ) (c : Call) : Run σ (Response c.Answer) := fun s =>
  let (response, remote) := g.answer c s.remote
  (.ok response, { s with remote, calls := s.calls ++ [c] })

/-- Judges a response while its warnings are kept; an error of the platform is a failure. -/
def judge (f : PendingWarnings → Except PlatformError α × PendingWarnings) :
    Run σ α := fun s =>
  match f s.warnings with
  | (.ok a, warnings) => (.ok a, { s with warnings })
  | (.error e, warnings) => (.error (.platform e), { s with warnings })

/-- Calls the platform for an entity that may not be there. -/
def lookup (g : Gateway σ) (c : Call) : Run σ (Option c.Answer) := do
  let response ← call g c
  judge (·.receive response)

/-- Calls the platform for an entity that has to be there. -/
def demand (g : Gateway σ) (c : Call) (entity : String) : Run σ c.Answer := do
  let response ← call g c
  judge (·.demand response entity)

end Run

/-- A command: a declaration and a body.  The body ends with an optional notice. -/
structure Command (σ : Type) extends Declaration where
  run : Gateway σ → Invocation → Credentials → Run σ (Option String)

end PlatformAdmin
