import PlatformAdmin.PlatformClient
import PlatformAdmin.Command.DeleteUser
import PlatformAdmin.Command.UpdateServiceBroker
import PlatformAdmin.CommandLine
import PlatformAdmin.Config.File
import PlatformAdmin.Execution

/-!
# The program

The program reads its command line, loads the configuration and executes the command against
the platform that the configuration names.  The number of arguments is checked before the
configuration is loaded, so that wrong usage is reported whatever the configuration holds.

All that the program meets outside itself is a parameter: the environment, the configuration
file, the terminal with its streams, and a network with a state.
-/

set_option autoImplicit false

namespace PlatformAdmin

/-- What the program meets outside itself, the network apart. -/
structure Surroundings where
  env : Environment
  /-- The home directory of the user's account. -/
  accountHome : Option String := none
  /-- What is found where the configuration file should lie. -/
  configFile : Config.FileState := .absent
  /-- Which of the standard streams are broken. -/
  faults : StreamFaults := {}

/-- The configuration that the program finds. -/
def Surroundings.config (w : Surroundings) : Except ConfigError Config := do
  let path ← Config.path w.env w.accountHome
  Config.load path w.configFile

variable {σ : Type}

/-- Executes a command on the platform that the configuration names. -/
def Command.executeIn (cmd : Command σ) (w : Surroundings) (net : Http.Network σ)
    (inv : Invocation) (terminal : Terminal) (remote : σ) : CommandResult × RunState σ :=
  match cmd.clearArguments inv terminal with
  | (.error e, terminal) => (.failed e, { terminal, remote })
  | (.ok (), terminal) =>
    match w.config with
    | .error e => (.failed (.configuration e), { terminal := terminal.failed e.message, remote })
    | .ok config =>
      cmd.execute (Gateway.ofConfig net config) inv config.capabilities w.env terminal remote

/-- The command of a name. -/
def CommandName.command : CommandName → Command σ
  | .deleteUser => DeleteUser.command
  | .updateServiceBroker => UpdateServiceBroker.command

/-- Executes the command that a command line names, on a terminal with this input. -/
def CommandLine.executeIn (line : CommandLine) (w : Surroundings) (net : Http.Network σ)
    (input : List (Option Char)) (remote : σ) : CommandResult × RunState σ :=
  line.command.command.executeIn w net line.invocation
    { toManner := line.manner, input, faults := w.faults } remote

namespace Program

/-- The version of the program. -/
def versionLine : String := "cf 0.1.0\n"

/-- What the program tells about itself. -/
def helpText : String :=
  "cf - manage users and service brokers on a platform API\n\n"
    ++ "Usage: cf [OPTIONS] <COMMAND>\n\n"
    ++ "Commands:\n"
    ++ "  delete-user            Delete a user\n"
    ++ "  update-service-broker  Update a service broker\n"
    ++ "  help                   Print this message or the help of the given subcommand(s)\n\n"
    ++ "Options:\n"
    ++ "      --debug           Enable debug logging\n"
    ++ "  -q, --quiet           No progress messages or OK marker; warnings and failures still "
    ++ "print\n"
    ++ "      --no-interactive  Disable interactive prompts\n"
    ++ "  -h, --help            Print help\n"
    ++ "  -V, --version         Print version\n"

/-- What is said of a command line with which something is wrong. -/
def complaint : CommandLineStop → String
  | .unknownArgument => "error: unexpected argument found\n"
  | .argumentConflict => "error: the argument cannot be used multiple times\n"
  | .tooManyValues => "error: unexpected value for a flag found; no more were expected\n"
  | .invalidSubcommand => "error: unrecognized subcommand\n"
  | .missingSubcommand => "error: the command requires a subcommand but one was not provided\n"
  | .invalidUtf8 => "error: invalid UTF-8 was detected in one or more arguments\n"
  | .nothingGiven => helpText
  | .help => ""
  | .version => ""

/-- How a run of the program ended. -/
structure Ending (σ : Type) where
  exitCode : Nat
  out : String
  err : String
  remote : σ

/-- The end of a run whose command line names nothing to execute. -/
def stopped (stop : CommandLineStop) (remote : σ) : Ending σ where
  exitCode := stop.exitCode
  out :=
    match stop with
    | .help => helpText
    | .version => versionLine
    | _ => ""
  err := complaint stop
  remote := remote

/-- Whether a run on these words may ask the user something. -/
def mayAsk (words : List (Option String)) : Bool :=
  match CommandLine.read words with
  | .error _ => false
  | .ok line => !line.noInteractive && !line.force

/-- Runs the program on the words of its command line, of which one that is not text is
`none`. -/
def run (net : Http.Network σ) (words : List (Option String)) (w : Surroundings)
    (input : List (Option Char)) (remote : σ) : Ending σ :=
  match CommandLine.read words with
  | .error stop => stopped stop remote
  | .ok line =>
    let (result, s) := line.executeIn w net input remote
    { exitCode := result.exitCode, out := s.terminal.out, err := s.terminal.err
      remote := s.remote }

end Program

end PlatformAdmin
