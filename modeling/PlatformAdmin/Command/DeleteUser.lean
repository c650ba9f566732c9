import PlatformAdmin.Command

/-!
# The command `delete-user`

The command deletes the user of a given name.  It needs a session and asks before it acts.  A
user who does not exist is no failure: the command ends with a notice.
-/

set_option autoImplicit false

namespace PlatformAdmin.DeleteUser

/-- The name of the user to delete. -/
def username (inv : Invocation) : String := inv.arg 0

/-- How the command is used. -/
def usage : String :=
  "NAME:\n   delete-user - Delete a user\n\n"
    ++ "USAGE:\n   cf delete-user USERNAME [-f]\n\n"
    ++ "OPTIONS:\n   -f      Force deletion without confirmation"

/-- What the command needs. -/
def declaration : Declaration where
  name := "delete-user"
  usage := usage
  checkArguments inv := inv.checkCount "delete-user" [1]
  requirements := .session
  question inv := some ("Really delete user " ++ username inv ++ "? >")

/-- Looks the user up and deletes the one that was found. -/
def body {σ : Type} (g : Gateway σ) (inv : Invocation) : Run σ (Option String) := do
  Run.say ("Deleting user " ++ username inv ++ "...")
  match ← Run.lookup g (.findUser (username inv)) with
  | none => return some ("User " ++ username inv ++ " does not exist.")
  | some user =>
    Run.demand g (.deleteUser user) ("User " ++ username inv)
    return none

/-- The command. -/
def command {σ : Type} : Command σ :=
  { declaration with run := fun g inv _ => body g inv }

end PlatformAdmin.DeleteUser
