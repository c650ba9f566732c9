import PlatformAdmin.Gateway
import PlatformAdmin.Http.Message
import PlatformAdmin.Http.Status
import PlatformAdmin.Json.Reader
import PlatformAdmin.Json.Record

/-!
# What the platform's server says

The server answers a lookup with a list of resources, and a request it refuses with a list of
errors.  Here those bodies are read, the warnings are taken from the headers, and a status is
turned into an outcome: `outcomeOf` says what each reply means.
-/

set_option autoImplicit false

namespace PlatformAdmin.PlatformClient

/-! ## Bodies -/

/-- A user in a list. -/
structure ListedUser where
  guid : String
  username : Option String
  deriving DecidableEq, Repr

/-- Reads a user. -/
def ListedUser.ofJson? (v : Json) : Option ListedUser := do
  match ← v.record? ["guid", "username"] with
  | [guid, username] =>
    return { guid := ← Json.required Json.text? guid
             username := ← Json.optional Json.text? username }
  | _ => none

/-- Reads a service broker in a list; one without a URL has an empty one. -/
def brokerOfJson? (v : Json) : Option ServiceBroker := do
  match ← v.record? ["guid", "name", "url"] with
  | [guid, name, url] =>
    return { guid := ← Json.required Json.text? guid
             name := ← Json.required Json.text? name
             url := ← Json.withDefault "" Json.text? url }
  | _ => none

/-- Reads the items of an array. -/
def listOf? {α : Type} (read : Json → Option α) (v : Json) : Option (List α) := do
  (← v.items?).mapM read

/-- Reads a list of resources. -/
def resources? {α : Type} (read : Json → Option α) (v : Json) : Option (List α) := do
  match ← v.record? ["resources"] with
  | [resources] => Json.required (listOf? read) resources
  | _ => none

/-- Reads the detail of an error; one without a detail has an empty one. -/
def errorDetail? (v : Json) : Option String := do
  match ← v.record? ["detail"] with
  | [detail] => Json.withDefault "" Json.text? detail
  | _ => none

/-- Reads the details of a list of errors. -/
def errorDetails? (v : Json) : Option (List String) := do
  match ← v.record? ["errors"] with
  | [errors] => Json.withDefault [] (listOf? errorDetail?) errors
  | _ => none

/-! ## Headers -/

/-- The header that lists warnings. -/
def warningHeader : String := "X-Cf-Warnings"

/-- The warnings in one value of that header: its pieces between commas, without blanks around
them, unless nothing is left. -/
def warningsIn (value : List Char) : List String :=
  ((Url.splitWhere (· == ',') value).map (Text.dropAround Text.isBlank)).filterMap fun piece =>
    if piece.isEmpty then none else some (String.ofList piece)

/-- The warnings that a reply lists; a value that is not text lists none. -/
def warningsOf (head : Http.Head) : List String :=
  (head.values warningHeader).flatMap fun value =>
    match Http.headerText? value with
    | some text => warningsIn text
    | none => []

/-! ## Outcomes -/

/-- What is said of a refusal: the first detail that the server gives, else the reason phrase
of the status. -/
def refusalText (status : Nat) (body : List UInt8) : String :=
  let details := ((Json.ofBytes? body).bind errorDetails?).getD []
  match details.find? (· != "") with
  | some detail => detail
  | none => (Http.reason? status).getD "unexpected response"

/-- What a whole reply means, when `read` reads the body of a success. -/
def outcomeOf {α : Type} (read : List UInt8 → Outcome α) (status : Nat) (body : List UInt8) :
    Outcome α :=
  if Http.isSuccess status then read body
  else if status = 404 then .notFound
  else if status = 401 then .error .invalidToken
  else .error (.refused status (refusalText status body))

/-- The first resource of a list that a lookup brought. -/
def firstResource {α : Type} (read : Json → Option α) (body : List UInt8) : Outcome α :=
  match (Json.ofBytes? body).bind (resources? read) with
  | none => .error (.unreadable "the body is not a list of resources")
  | some [] => .notFound
  | some (resource :: _) => .success resource

end PlatformAdmin.PlatformClient
