import PlatformAdmin.Config.Document
import PlatformAdmin.Environment
import PlatformAdmin.Text.Utf8

/-!
# The configuration file

The file lies in the directory that the variable `CF_HOME` names, or else below the home
directory.  Without a file the configuration is the default one; a file that is there has to be
text, a document of the right form, and valid.
-/

set_option autoImplicit false

namespace PlatformAdmin.Config

/-- The variable that names the directory of the file. -/
def homeVariable : String := "CF_HOME"

/-- The path of an entry of a directory; the empty directory is where the program runs. -/
def join (directory entry : String) : String :=
  if directory = "" then entry
  else if directory.toList.getLast? = some '/' then directory ++ entry
  else directory ++ "/" ++ entry

/-- The home directory: the one the environment names, else that of the user's account. -/
def homeDirectory? (env : Environment) (account : Option String) : Option String :=
  match env "HOME" with
  | some "" => account
  | some home => some home
  | none => account

/-- Where the file lies. -/
def path (env : Environment) (account : Option String) : Except ConfigError String :=
  match env homeVariable with
  | some directory => .ok (join directory "config.toml")
  | none =>
    match homeDirectory? env account with
    | some home => .ok (join home ".cfkit/config.toml")
    | none => .error .noHomeDirectory

/-- What is found where the file should lie. -/
inductive FileState
  | absent
  | directory
  /-- Something that cannot be read. -/
  | unreadable (cause : String)
  | file (bytes : List UInt8)
  deriving DecidableEq, Repr

/-- Loads the configuration. -/
def load (path : String) : FileState → Except ConfigError Config
  | .absent => .ok {}
  | .directory => .error (.read path "Is a directory (os error 21)")
  | .unreadable cause => .error (.read path cause)
  | .file bytes =>
    match Text.Utf8.decode? bytes with
    | none => .error (.read path "stream did not contain valid UTF-8")
    | some text =>
      match ofText? text with
      | none => .error (.parse path "it is not a configuration")
      | some config =>
        match config.validate with
        | .ok () => .ok config
        | .error e => .error e

end PlatformAdmin.Config
