import PlatformAdmin.Credential
import PlatformAdmin.Response

/-!
# Gateways

A gateway is the way to the platform.  Commands know five calls of it; a `Call` names one with
its arguments, and `Call.Answer` is the type of value that a successful call gives.  A
`Gateway` answers calls and may keep a state of its own, of any type.
-/

set_option autoImplicit false

namespace PlatformAdmin

/-- A user of the platform. -/
structure User where
  guid : String
  username : String
  deriving DecidableEq, Repr

/-- A service broker of the platform. -/
structure ServiceBroker where
  guid : String
  name : String
  url : String
  deriving DecidableEq, Repr

/-- New settings for a service broker. -/
structure BrokerUpdate where
  username : String
  password : Secret
  url : String
  deriving DecidableEq, Repr

/-- The description of an update keeps the password to itself. -/
def BrokerUpdate.describe (u : BrokerUpdate) : String :=
  Text.describeRecord "ServiceBrokerUpdate"
    [("username", Text.quoted u.username), ("password", u.password.describe),
      ("url", Text.quoted u.url)]

/-- A call of the platform, with its arguments. -/
inductive Call
  | currentUser
  | findUser (username : String)
  | deleteUser (user : User)
  | findBroker (name : String)
  | updateBroker (guid : String) (update : BrokerUpdate)
  deriving DecidableEq, Repr

/-- What a successful call gives. -/
abbrev Call.Answer : Call → Type
  | .currentUser => User
  | .findUser _ => User
  | .deleteUser _ => Unit
  | .findBroker _ => ServiceBroker
  | .updateBroker _ _ => Unit

/-- Whether a call changes something on the platform. -/
def Call.isMutation : Call → Bool
  | .deleteUser _ => true
  | .updateBroker _ _ => true
  | _ => false

/-- A way to the platform, with a state of type `σ`. -/
structure Gateway (σ : Type) where
  name : String
  answer : (call : Call) → σ → Response call.Answer × σ

/-- The gateway of a configuration that names no platform or holds no session: every call
fails for want of an endpoint. -/
def Gateway.unconfigured {σ : Type} : Gateway σ where
  name := "unconfigured"
  answer _ s := (.error .noEndpoint, s)

/-- The description of that gateway. -/
def Gateway.unconfiguredDescription : String := "UnconfiguredGateway"

/-- Answers that are laid down beforehand, for the calls that have one. -/
structure ProgrammedAnswers where
  onCurrentUser : Option (Response User) := none
  onFindUser : Option (Response User) := none
  onDeleteUser : Option (Response Unit) := none
  onFindBroker : Option (Response ServiceBroker) := none
  onUpdateBroker : Option (Response Unit) := none
  deriving DecidableEq, Repr

namespace ProgrammedAnswers

/-- The user who is logged in unless something else is laid down. -/
def usualCurrentUser : User := ⟨"fake-current-user-guid", "user"⟩

/-- The user found under a name unless something else is laid down. -/
def usualUser (username : String) : User := ⟨"fake-user-guid", username⟩

/-- The broker found under a name unless something else is laid down. -/
def usualBroker (name : String) : ServiceBroker :=
  ⟨"fake-service-broker-guid", name, "https://broker.example.com"⟩

/-- The answer to a call: what is laid down for it, else success with the usual value. -/
def answer (p : ProgrammedAnswers) : (call : Call) → Response call.Answer
  | .currentUser => p.onCurrentUser.getD (.success usualCurrentUser)
  | .findUser username => p.onFindUser.getD (.success (usualUser username))
  | .deleteUser _ => p.onDeleteUser.getD (.success ())
  | .findBroker name => p.onFindBroker.getD (.success (usualBroker name))
  | .updateBroker _ _ => p.onUpdateBroker.getD (.success ())

end ProgrammedAnswers

/-- The gateway that gives programmed answers. -/
def Gateway.programmed {σ : Type} (p : ProgrammedAnswers) : Gateway σ where
  name := "mock"
  answer call s := (p.answer call, s)

end PlatformAdmin
