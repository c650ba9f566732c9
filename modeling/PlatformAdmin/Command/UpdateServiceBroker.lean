import PlatformAdmin.Command

/-!
# The command `update-service-broker`

The command gives a service broker new settings.  It is given three or four arguments: the
broker's name, a username, then a password and a URL, or the URL alone.  Four arguments of
which the last is empty are read as three.  A password that is not given comes from the
environment, or is asked for.
-/

set_option autoImplicit false

namespace PlatformAdmin.UpdateServiceBroker

/-- The arguments by their meaning. -/
structure Arguments where
  name : String
  username : String
  /-- The place of the password, if there is one. -/
  password : Option String
  url : String
  deriving DecidableEq, Repr

/-- The meaning of the arguments. -/
def Arguments.ofInvocation (inv : Invocation) : Arguments :=
  if inv.size = 4 ∧ inv.arg 3 ≠ "" then
    { name := inv.arg 0, username := inv.arg 1, password := inv.arg? 2, url := inv.arg 3 }
  else
    { name := inv.arg 0, username := inv.arg 1, password := none, url := inv.arg 2 }

/-- The password, as a secret that is needed. -/
def neededPassword : NeededSecret where
  name := "password"
  envVar := "CF_BROKER_PASSWORD"
  label := "Service Broker Password"

/-- How the command is used. -/
def usage : String :=
  "NAME:\n   update-service-broker - Update a service broker\n\n"
    ++ "USAGE:\n   cf update-service-broker SERVICE_BROKER USERNAME PASSWORD URL\n"
    ++ "   cf update-service-broker SERVICE_BROKER USERNAME URL "
    ++ "(omit password to specify interactively or via environment variable)\n\n"
    ++ "WARNING:\n   Providing your password as a command line option is highly discouraged\n"
    ++ "   Your password may be visible to others and may be recorded in your shell history"

/-- What the command needs. -/
def declaration : Declaration where
  name := "update-service-broker"
  usage := usage
  checkArguments inv := inv.checkCount "update-service-broker" [3, 4]
  secrets inv := [{ neededPassword with argument := (Arguments.ofInvocation inv).password }]

/-- Hands out the password. -/
def takePassword {σ : Type} (credentials : Credentials) : Run σ Secret :=
  match (credentials.take neededPassword.name).1 with
  | some credential => pure credential.secret
  | none => Run.fail (.missingCredential neededPassword.name)

/-- Looks the broker up and updates the one that was found. -/
def body {σ : Type} (g : Gateway σ) (inv : Invocation) (credentials : Credentials) :
    Run σ (Option String) := do
  let args := Arguments.ofInvocation inv
  let password ← takePassword credentials
  let user ← Run.demand g .currentUser "user"
  Run.say ("Updating service broker " ++ args.name ++ " as " ++ user.username ++ "...")
  match ← Run.lookup g (.findBroker args.name) with
  | none => return some ("Service broker " ++ args.name ++ " does not exist.")
  | some broker =>
    Run.demand g (.updateBroker broker.guid ⟨args.username, password, args.url⟩)
      ("Service broker " ++ args.name)
    return none

/-- The command. -/
def command {σ : Type} : Command σ :=
  { declaration with run := body }

end PlatformAdmin.UpdateServiceBroker
