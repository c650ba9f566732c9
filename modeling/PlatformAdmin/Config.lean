import PlatformAdmin.Capability
import PlatformAdmin.Text.Blank
import PlatformAdmin.Text.Quoted

/-!
# The configuration

The configuration names the endpoint of the platform, holds the session's access token and
remembers which organization and space are targeted.  `Config.validate` says which
configurations are acceptable and `Config.capabilities` what they allow.
-/

set_option autoImplicit false

namespace PlatformAdmin

/-- An organization or space that is targeted. -/
structure Target where
  name : String := ""
  guid : String := ""
  deriving DecidableEq, Repr

/-- The configuration; a field that is absent is `none`. -/
structure Config where
  apiEndpoint : Option String := none
  accessToken : Option String := none
  user : Option String := none
  skipSslValidation : Bool := false
  org : Option Target := none
  space : Option Target := none
  deriving DecidableEq, Repr

/-- Why there is no configuration. -/
inductive ConfigError
  | read (path cause : String)
  | parse (path detail : String)
  | invalidValue (text : String)
  | noHomeDirectory
  deriving DecidableEq, Repr

/-- What the user is told about it. -/
def ConfigError.message : ConfigError → String
  | .read path cause => "failed to read config file '" ++ path ++ "': " ++ cause
  | .parse path detail => "failed to parse config file '" ++ path ++ "': " ++ detail
  | .invalidValue text => "invalid config value: " ++ text
  | .noHomeDirectory => "home directory not found"

/-- The description of a target. -/
def Target.describe (t : Target) : String :=
  Text.describeRecord "TargetRef" [("name", Text.quoted t.name), ("guid", Text.quoted t.guid)]

/-- A target has a name; `what` says which target is at fault. -/
def Target.validate (t : Target) (what : String) : Except ConfigError Unit :=
  if t.name = "" then .error (.invalidValue (what ++ " name cannot be empty")) else .ok ()

namespace Config

/-- The description of a configuration tells that there is a token but not the token. -/
def describe (c : Config) : String :=
  Text.describeRecord "Config"
    [("api_endpoint", Text.describeOption (c.apiEndpoint.map Text.quoted)),
      ("has_access_token", Text.describeBool c.accessToken.isSome),
      ("user", Text.describeOption (c.user.map Text.quoted)),
      ("skip_ssl_validation", Text.describeBool c.skipSslValidation),
      ("org", Text.describeOption (c.org.map Target.describe)),
      ("space", Text.describeOption (c.space.map Target.describe))]

/-- Whether a text begins as the address of a web server does. -/
def hasWebScheme (endpoint : String) : Bool :=
  "http://".toList.isPrefixOf endpoint.toList || "https://".toList.isPrefixOf endpoint.toList

/-- Checks the endpoint's scheme. -/
def validateEndpoint : Option String → Except ConfigError Unit
  | none => .ok ()
  | some endpoint =>
    if hasWebScheme endpoint then .ok ()
    else .error (.invalidValue
      ("invalid api_endpoint '" ++ endpoint ++ "', must start with http:// or https://"))

/-- Checks a target if there is one. -/
def validateTarget (what : String) : Option Target → Except ConfigError Unit
  | none => .ok ()
  | some target => target.validate what

/-- Checks the endpoint, then the organization, then the space. -/
def validate (c : Config) : Except ConfigError Unit := do
  validateEndpoint c.apiEndpoint
  validateTarget "org" c.org
  validateTarget "space" c.space

/-- There is a session if there is a token that is not blank. -/
def hasSession (c : Config) : Bool :=
  match c.accessToken with
  | none => false
  | some token => Text.trim token != ""

/-- What the configuration allows. -/
def capabilities (c : Config) : Capabilities where
  loggedIn := c.hasSession
  orgTargeted := c.org.isSome
  spaceTargeted := c.space.isSome

end Config

end PlatformAdmin
