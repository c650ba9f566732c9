import PlatformAdmin.Program

/-!
# The program as a process

Here the environment, the list of accounts, the configuration file and the standard streams are
read, the program is run on them, and what it wrote is passed on.  A run that may ask something is
given all of the standard input, from which a secret is read like any other line.  No transport is
built in, so the network is down, and no log is written.
-/

set_option autoImplicit false

namespace PlatformAdmin.Process

/-- The variables that the program looks at. -/
def variableNames : List String :=
  ["HOME", Config.homeVariable, UpdateServiceBroker.neededPassword.envVar]

/-- The environment, as far as the program looks at it. -/
def readEnvironment : IO Environment := do
  let settings ← variableNames.filterMapM fun name => do
    return (← IO.getEnv name).map fun value => (name, value)
  return .ofList settings

/-- The home directory of a user in a list of accounts.  An account is a line of seven fields, of
which the third is the number of the user and the sixth the home directory. -/
def accountHome? (accounts user : String) : Option String :=
  (accounts.splitOn "\n").findSome? fun line =>
    match line.splitOn ":" with
    | [_, _, number, _, _, home, _] => if number = user ∧ home ≠ "" then some home else none
    | _ => none

/-- The number of the user in the description of a process. -/
def user? (status : String) : Option String :=
  (status.splitOn "\n").findSome? fun line =>
    match line.splitOn "\t" with
    | "Uid:" :: number :: _ => some number
    | _ => none

/-- The home directory of the account under which the process runs, where the system lists its
accounts. -/
def readAccountHome : IO (Option String) := do
  let status ← (IO.FS.readFile "/proc/self/status").toBaseIO
  let accounts ← (IO.FS.readFile "/etc/passwd").toBaseIO
  match status, accounts with
  | .ok status, .ok accounts => return (user? status).bind (accountHome? accounts)
  | _, _ => return none

/-- What is found at a path; a path that leads nowhere, or through what cannot be searched, leads
to nothing. -/
def readFileState (path : String) : IO Config.FileState := do
  match ← (IO.FS.realPath path).toBaseIO with
  | .error _ => return .absent
  | .ok _ =>
    match ← (IO.FS.readBinFile path).toBaseIO with
    | .ok bytes => return .file bytes.toList
    | .error (.inappropriateType ..) => return .directory
    | .error e => return .unreadable (toString e)

/-- All that the standard input holds, after these bytes. -/
partial def readInput (bytes : ByteArray) : IO ByteArray := do
  let more ← (← IO.getStdin).read 4096
  if more.isEmpty then return bytes else readInput (bytes ++ more)

/-- What the process meets outside itself. -/
def surroundings : IO Surroundings := do
  let env ← readEnvironment
  let accountHome ← readAccountHome
  match Config.path env accountHome with
  | .error _ => return { env, accountHome }
  | .ok path => return { env, accountHome, configFile := ← readFileState path }

end PlatformAdmin.Process

open PlatformAdmin in
/-- Runs the program on the words of the command line. -/
def main (args : List String) : IO UInt32 := do
  let words := args.map some
  let input ← if Program.mayAsk words then Process.readInput .empty else pure .empty
  let ending := Program.run .down words (← Process.surroundings)
    (Text.Utf8.decode input.toList) ()
  (← IO.getStdout).putStr ending.out
  (← IO.getStderr).putStr ending.err
  return UInt32.ofNat ending.exitCode
