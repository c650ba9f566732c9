/-!
# Capabilities of a session

A command may rely on three things that the configuration can provide: a session, a targeted
organization and a targeted space.  A value of `Capabilities` says which of them are there; it
is seen through membership.
-/

set_option autoImplicit false

namespace PlatformAdmin

/-- Something a command may rely on. -/
inductive Capability
  | loggedIn
  | orgTargeted
  | spaceTargeted
  deriving DecidableEq, Repr

namespace Capability

/-- Every capability, in the order in which they build on one another. -/
def all : List Capability :=
  [.loggedIn, .orgTargeted, .spaceTargeted]

/-- What a capability is called. -/
def description : Capability → String
  | .loggedIn => "logged in"
  | .orgTargeted => "organization targeted"
  | .spaceTargeted => "space targeted"

/-- What the user is told when it is missing. -/
def absence : Capability → String
  | .loggedIn => "Not logged in. Use 'cf login' or 'cf login --sso' to log in."
  | .orgTargeted => "No org targeted, use 'cf target -o ORG' to target an org."
  | .spaceTargeted => "No space targeted, use 'cf target -s SPACE' to target a space."

end Capability

/-- The capabilities that are available. -/
structure Capabilities where
  loggedIn : Bool := false
  orgTargeted : Bool := false
  spaceTargeted : Bool := false
  deriving DecidableEq, Repr

namespace Capabilities

/-- Whether a capability is available. -/
def contains (caps : Capabilities) : Capability → Bool
  | .loggedIn => caps.loggedIn
  | .orgTargeted => caps.orgTargeted
  | .spaceTargeted => caps.spaceTargeted

instance : Membership Capability Capabilities where
  mem caps c := caps.contains c = true

instance (c : Capability) (caps : Capabilities) : Decidable (c ∈ caps) :=
  inferInstanceAs (Decidable (caps.contains c = true))

/-- The capabilities with one more. -/
def insert (caps : Capabilities) : Capability → Capabilities
  | .loggedIn => { caps with loggedIn := true }
  | .orgTargeted => { caps with orgTargeted := true }
  | .spaceTargeted => { caps with spaceTargeted := true }

/-- The listed capabilities. -/
def ofList (capabilities : List Capability) : Capabilities :=
  capabilities.foldl insert {}

/-- The capabilities that are available, each once, in their usual order. -/
def toList (caps : Capabilities) : List Capability :=
  Capability.all.filter (· ∈ caps)

/-- After an insertion there is what was inserted and what there was before. -/
@[simp] theorem mem_insert {caps : Capabilities} {c d : Capability} :
    d ∈ caps.insert c ↔ d = c ∨ d ∈ caps := by
  cases c <;> cases d <;> simp [Membership.mem, insert, contains]

/-- Nothing is available to begin with. -/
theorem not_mem_empty (d : Capability) : d ∉ ({} : Capabilities) := by
  cases d <;> decide

/-- Of a list, exactly what is listed is available. -/
@[simp] theorem mem_ofList {capabilities : List Capability} {d : Capability} :
    d ∈ ofList capabilities ↔ d ∈ capabilities := by
  have key : ∀ (l : List Capability) (caps : Capabilities),
      d ∈ l.foldl insert caps ↔ d ∈ l ∨ d ∈ caps := by
    intro l
    induction l with
    | nil => simp
    | cons c l ih =>
      intro caps
      rw [List.foldl_cons, ih, mem_insert, List.mem_cons]
      grind
  simp [ofList, key, not_mem_empty]

/-- The list has what is available. -/
@[simp] theorem mem_toList {caps : Capabilities} {d : Capability} :
    d ∈ caps.toList ↔ d ∈ caps := by
  cases d <;> simp [toList, Capability.all]

end Capabilities

end PlatformAdmin
