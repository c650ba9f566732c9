import PlatformAdmin.Config
import PlatformAdmin.Toml.Document

/-!
# The configuration as a TOML document

A configuration is written as a table with a key for each field that is present.  A target is a
table of its own, or an array of its fields in order.  A key that is no field is an error, and
so is a value of another type; a field that is absent has its default.
-/

set_option autoImplicit false

namespace PlatformAdmin

open Toml (Value Entries)

/-- The text that a value holds. -/
def Toml.Value.text? : Value → Option String
  | .string s => some s
  | _ => none

/-- The truth value that a value holds. -/
def Toml.Value.bool? : Value → Option Bool
  | .boolean b => some b
  | _ => none

namespace Config

/-- The value of a key that may be absent: absent, or read. -/
def readKey {α : Type} (read : Value → Option α) (key : String) (entries : Entries) :
    Option (Option α) :=
  match entries.lookup key with
  | none => some none
  | some v => (read v).map some

/-- Whether all keys of a table are among these. -/
def hasOnly (keys : List String) (entries : Entries) : Bool :=
  entries.all fun entry => keys.contains entry.1

/-- The keys of a target, in the order of its fields. -/
def targetKeys : List String := ["name", "guid"]

/-- Reads a target from the values of its fields. -/
def targetOfFields (name guid : Option String) : Target :=
  { name := name.getD "", guid := guid.getD "" }

/-- Reads a target; an array may have further items, which do not count. -/
def targetOfValue? : Value → Option Target
  | .table _ entries => do
    guard (hasOnly targetKeys entries)
    return targetOfFields (← readKey Value.text? "name" entries)
      (← readKey Value.text? "guid" entries)
  | .array [] => some {}
  | .array [name] => do return targetOfFields (some (← name.text?)) none
  | .array (name :: guid :: _) => do
    return targetOfFields (some (← name.text?)) (some (← guid.text?))
  | _ => none

/-- The keys of a configuration. -/
def keys : List String :=
  ["api_endpoint", "access_token", "user", "skip_ssl_validation", "org", "space"]

/-- Reads a configuration from a table. -/
def ofEntries? (entries : Entries) : Option Config := do
  guard (hasOnly keys entries)
  return {
    apiEndpoint := ← readKey Value.text? "api_endpoint" entries
    accessToken := ← readKey Value.text? "access_token" entries
    user := ← readKey Value.text? "user" entries
    skipSslValidation := (← readKey Value.bool? "skip_ssl_validation" entries).getD false
    org := ← readKey targetOfValue? "org" entries
    space := ← readKey targetOfValue? "space" entries }

/-- Reads a configuration from the text of a document. -/
def ofText? (text : String) : Option Config := do
  ofEntries? (← Toml.Document.read? text)

end Config

end PlatformAdmin
