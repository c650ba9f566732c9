import PlatformAdmin.Command

/-!
# Execution of commands

A command passes five gates before its body runs: the check of its arguments, its scope, its
requirements, its question and its secrets.  `Declaration.clear` is the passage through them;
it sees the terminal but no gateway, so no call can be made before all gates are passed.
`Command.execute` runs the body after that, shows the warnings and marks the end.
-/

set_option autoImplicit false

namespace PlatformAdmin

/-- How a command may end before its time. -/
inductive EarlyEnd
  /-- The user said no. -/
  | declined
  /-- The usage text was shown in place of the failure. -/
  | usageShown (e : Failure)
  | failed (e : Failure)
  deriving DecidableEq, Repr

namespace Declaration

/-- Checks the arguments; on a failure the usage text is shown. -/
def clearArguments (d : Declaration) (inv : Invocation) (t : Terminal) :
    Except Failure Unit × Terminal :=
  match d.checkArguments inv with
  | .ok () => (.ok (), t)
  | .error e => (.error (.usage e), t.showUsage d.usage)

/-- Checks the scope and the requirements against the capabilities. -/
def clearSession (d : Declaration) (caps : Capabilities) : Except Capability Unit := do
  d.scope.check caps
  d.requirements.check caps

/-- Asks the question, unless none is declared or the invocation forces the command. -/
def clearQuestion (d : Declaration) (inv : Invocation) (t : Terminal) :
    Except EarlyEnd Unit × Terminal :=
  match d.question inv with
  | none => (.ok (), t)
  | some question =>
    if inv.isForced then (.ok (), t)
    else
      match t.confirm question with
      | (.ok true, t) => (.ok (), t)
      | (.ok false, t) => (.error .declined, t)
      | (.error e, t) => (.error (.failed (.question e)), t)

/-- Obtains the declared secrets. -/
def clearSecrets (d : Declaration) (inv : Invocation) (env : Environment) (t : Terminal) :
    Except EarlyEnd Credentials × Terminal :=
  match Credential.obtainAll env (d.secrets inv) t with
  | (.ok credentials, t) => (.ok ⟨credentials⟩, t)
  | (.error e, t) => (.error (.failed (.question e)), t)

/-- Passes all gates, in order, and gives the secrets. -/
def clear (d : Declaration) (inv : Invocation) (caps : Capabilities) (env : Environment)
    (t : Terminal) : Except EarlyEnd Credentials × Terminal :=
  match d.clearArguments inv t with
  | (.error e, t) => (.error (.usageShown e), t)
  | (.ok (), t) =>
    match d.clearSession caps with
    | .error c => (.error (.failed (.lacking c)), t)
    | .ok () =>
      match d.clearQuestion inv t with
      | (.error e, t) => (.error e, t)
      | (.ok (), t) => d.clearSecrets inv env t

end Declaration

/-- Marks the end of a command on the terminal, and tells its result. -/
def Terminal.conclude (t : Terminal) :
    Except EarlyEnd (Option String) → CommandResult × Terminal
  | .ok none => (.ok none, t.ok)
  | .ok (some notice) => (.ok (some notice), t.ok.warn notice)
  | .error .declined => (.declined, t)
  | .error (.usageShown e) => (.failed e, t)
  | .error (.failed e) => (.failed e, t.failed e.message)

namespace Command

variable {σ : Type}

/-- Passes the gates and runs the body. -/
def attempt (cmd : Command σ) (g : Gateway σ) (inv : Invocation) (caps : Capabilities)
    (env : Environment) (s : RunState σ) : Except EarlyEnd (Option String) × RunState σ :=
  match cmd.clear inv caps env s.terminal with
  | (.error e, terminal) => (.error e, { s with terminal })
  | (.ok credentials, terminal) =>
    match cmd.run g inv credentials { s with terminal } with
    | (.ok notice, s) => (.ok notice, s)
    | (.error e, s) => (.error (.failed e), s)

/-- Executes a command: the gates, the body, the warnings, the mark at the end.  A run starts
with no warnings and no calls. -/
def execute (cmd : Command σ) (g : Gateway σ) (inv : Invocation) (caps : Capabilities)
    (env : Environment) (terminal : Terminal) (remote : σ) : CommandResult × RunState σ :=
  let (outcome, s) := cmd.attempt g inv caps env { terminal, remote }
  let (warnings, terminal) := s.warnings.flush s.terminal
  let (result, terminal) := terminal.conclude outcome
  (result, { s with warnings, terminal })

end Command

end PlatformAdmin
