/-!
# The environment

The variables that are set when the program runs.
-/

set_option autoImplicit false

namespace PlatformAdmin

/-- The value of each variable that is set. -/
abbrev Environment : Type := String → Option String

/-- The environment of a list of settings, of which the last of a name counts. -/
def Environment.ofList (settings : List (String × String)) : Environment :=
  fun name => settings.reverse.lookup name

end PlatformAdmin
