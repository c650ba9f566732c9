import PlatformAdmin.Environment
import PlatformAdmin.Terminal

/-!
# Credentials

A command declares the secrets it needs, and each `NeededSecret` is obtained when the command
runs: from an argument that is not empty, else from the environment, else by asking.  A
`Credential` is a secret so obtained, with its name and its source.  No description of a
credential shows the secret.  `Credentials.take` hands each credential out once.
-/

set_option autoImplicit false

namespace PlatformAdmin

/-- A text that no description shows. -/
structure Secret where
  value : String
  deriving DecidableEq, Repr

/-- The description of any secret. -/
def Secret.describe (_ : Secret) : String :=
  "Secret(<redacted>)"

/-- A secret that a command needs. -/
structure NeededSecret where
  name : String
  /-- The variable that may hold it. -/
  envVar : String
  /-- What it is called when it is asked for. -/
  label : String
  /-- The argument that may hold it. -/
  argument : Option String := none
  deriving DecidableEq, Repr

/-- Where a secret came from. -/
inductive SecretSource
  | argument
  | environment
  | prompt
  deriving DecidableEq, Repr

namespace SecretSource

/-- The source, in a word. -/
def word : SecretSource → String
  | .argument => "argument"
  | .environment => "environment"
  | .prompt => "prompt"

/-- The description of a source. -/
def describe : SecretSource → String
  | .argument => "Argument"
  | .environment => "Environment"
  | .prompt => "Prompt"

end SecretSource

/-- A secret that was obtained. -/
structure Credential where
  name : String
  secret : Secret
  source : SecretSource
  deriving DecidableEq, Repr

namespace Credential

/-- The description of a credential keeps the secret to itself. -/
def describe (c : Credential) : String :=
  Text.describeRecord "Credential"
    [("name", Text.quoted c.name), ("secret", c.secret.describe),
      ("provenance", c.source.describe)]

/-- Obtains a secret: a non-empty argument, else the variable if it is set, even to the empty
text, else the answer to a question. -/
def obtain (needed : NeededSecret) (env : Environment) (t : Terminal) :
    Except QuestionError Credential × Terminal :=
  match needed.argument.filter (· != "") with
  | some value => (.ok ⟨needed.name, ⟨value⟩, .argument⟩, t)
  | none =>
    match env needed.envVar with
    | some value => (.ok ⟨needed.name, ⟨value⟩, .environment⟩, t)
    | none =>
      match t.askSecret needed.label with
      | (.ok value, t) => (.ok ⟨needed.name, ⟨value⟩, .prompt⟩, t)
      | (.error e, t) => (.error e, t)

/-- Obtains secrets in order; the first that fails ends it. -/
def obtainAll (env : Environment) :
    List NeededSecret → Terminal → Except QuestionError (List Credential) × Terminal
  | [], t => (.ok [], t)
  | needed :: rest, t =>
    match obtain needed env t with
    | (.error e, t) => (.error e, t)
    | (.ok credential, t) =>
      match obtainAll env rest t with
      | (.error e, t) => (.error e, t)
      | (.ok credentials, t) => (.ok (credential :: credentials), t)

end Credential

/-- Credentials that have not been handed out, in the order of their declaration. -/
structure Credentials where
  remaining : List Credential := []
  deriving DecidableEq, Repr

namespace Credentials

/-- Hands out the first credential of a name, which is then no longer there. -/
def take (credentials : Credentials) (name : String) : Option Credential × Credentials :=
  (credentials.remaining.find? (·.name == name),
    ⟨credentials.remaining.eraseP (·.name == name)⟩)

/-- Nothing is handed out, and nothing changes, when there is no credential of the name. -/
theorem take_of_forall_ne {credentials : Credentials} {name : String}
    (h : ∀ c ∈ credentials.remaining, c.name ≠ name) :
    credentials.take name = (none, credentials) := by
  have hp : ∀ c ∈ credentials.remaining, ¬(c.name == name) = true := by simpa using h
  simpa [take, List.eraseP_of_forall_not hp] using h

/-- Otherwise the first of the name is handed out, and the others stay in their order. -/
theorem take_of_remaining_eq {credentials : Credentials} {name : String} {c : Credential}
    {before after : List Credential}
    (hr : credentials.remaining = before ++ c :: after) (hb : ∀ d ∈ before, d.name ≠ name)
    (hc : c.name = name) :
    credentials.take name = (some c, ⟨before ++ after⟩) := by
  have hp : ∀ d ∈ before, ¬(d.name == name) = true := by simpa using hb
  have hf : before.find? (·.name == name) = none := by simpa using hb
  simp [take, hr, List.find?_append, hf, List.eraseP_append_right _ hp, hc]

end Credentials

end PlatformAdmin
