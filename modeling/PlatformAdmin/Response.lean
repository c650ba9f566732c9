/-!
# Responses of the platform

Every call of the platform ends in one of three outcomes: a value, the news that there is no
such entity, or an error.  A `Response` is an outcome together with the warnings that the
platform attached to it; they count whatever the outcome.
-/

set_option autoImplicit false

namespace PlatformAdmin

/-- Why the platform did not answer a call. -/
inductive PlatformError
  | noEndpoint
  | invalidToken
  | notFound (entity : String)
  /-- The platform refused, with this status. -/
  | refused (status : Nat) (description : String)
  | network (detail : String)
  /-- The answer is none that can be read. -/
  | unreadable (detail : String)
  | other (text : String)
  deriving DecidableEq, Repr

/-- What the user is told about it. -/
def PlatformError.message : PlatformError → String
  | .noEndpoint => "No API endpoint set. Use 'cf login' or 'cf api' to target an endpoint."
  | .invalidToken => "Invalid auth token. Re-login with 'cf login'."
  | .notFound entity => entity ++ " not found"
  | .refused _ description => description
  | .network detail => "network error: " ++ detail
  | .unreadable detail => "invalid response from API: " ++ detail
  | .other text => text

/-- How a call ended. -/
inductive Outcome (α : Type)
  | success (value : α)
  | notFound
  | error (e : PlatformError)
  deriving DecidableEq, Repr

namespace Outcome

variable {α β : Type}

/-- Whether the call gave a value. -/
def isSuccess : Outcome α → Bool
  | .success _ => true
  | _ => false

/-- Whether there was no such entity. -/
def isNotFound : Outcome α → Bool
  | .notFound => true
  | _ => false

/-- Whether the call failed. -/
def isError : Outcome α → Bool
  | .error _ => true
  | _ => false

/-- Goes on with the value, if there is one. -/
def andThen (o : Outcome α) (f : α → Outcome β) : Outcome β :=
  match o with
  | .success value => f value
  | .notFound => .notFound
  | .error e => .error e

end Outcome

/-- How a call ended, with the warnings attached. -/
structure Response (α : Type) where
  outcome : Outcome α
  warnings : List String := []
  deriving DecidableEq, Repr

namespace Response

variable {α β : Type}

/-- A value without warnings. -/
def success (value : α) : Response α := { outcome := .success value }

/-- No such entity, without warnings. -/
def notFound : Response α := { outcome := .notFound }

/-- An error without warnings. -/
def error (e : PlatformError) : Response α := { outcome := .error e }

/-- The response with these warnings in place of its own. -/
def withWarnings (r : Response α) (warnings : List String) : Response α :=
  { r with warnings }

/-- Goes on with the value, if there is one, and keeps the warnings. -/
def andThen (r : Response α) (f : α → Outcome β) : Response β :=
  { outcome := r.outcome.andThen f, warnings := r.warnings }

end Response

end PlatformAdmin
