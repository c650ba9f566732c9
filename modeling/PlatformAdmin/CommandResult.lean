import PlatformAdmin.Capability
import PlatformAdmin.Config
import PlatformAdmin.Invocation
import PlatformAdmin.Response
import PlatformAdmin.Terminal

/-!
# Results of commands

A command ends well, perhaps with a notice, or is declined by its user, or fails.  A failure
has one of six causes, each with a message of its own; only a failure makes the exit status
one.
-/

set_option autoImplicit false

namespace PlatformAdmin

/-- Why a command failed. -/
inductive Failure
  | usage (e : ArgumentCountError)
  /-- A capability is missing. -/
  | lacking (c : Capability)
  | platform (e : PlatformError)
  | question (e : QuestionError)
  | configuration (e : ConfigError)
  /-- A secret was not there when it was used. -/
  | missingCredential (name : String)
  deriving DecidableEq, Repr

/-- What the user is told about it. -/
def Failure.message : Failure → String
  | .usage e => e.message
  | .lacking c => c.absence
  | .platform e => e.message
  | .question e => e.message
  | .configuration e => e.message
  | .missingCredential name => "missing credential '" ++ name ++ "'"

/-- How a command ended. -/
inductive CommandResult
  | ok (notice : Option String)
  | declined
  | failed (e : Failure)
  deriving DecidableEq, Repr

namespace CommandResult

/-- Whether the command ended well. -/
def isOk : CommandResult → Bool
  | .ok _ => true
  | _ => false

/-- Whether the command failed. -/
def isFailed : CommandResult → Bool
  | .failed _ => true
  | _ => false

/-- The exit status. -/
def exitCode : CommandResult → Nat
  | .failed _ => 1
  | _ => 0

end CommandResult

end PlatformAdmin
