import PlatformAdmin.Capability

/-!
# Requirements and scopes

A command declares what it needs of a session twice over: as a named list of capabilities, and
as a scope, which stands for one of three standard lists.  `Requirements.check` reports the
first capability of a list that is missing.
-/

set_option autoImplicit false

namespace PlatformAdmin

/-- A named list of capabilities that have to be there. -/
structure Requirements where
  name : String
  needed : List Capability
  deriving DecidableEq, Repr

namespace Requirements

/-- Checks that all are there; the error is the first one missing. -/
def check (r : Requirements) (caps : Capabilities) : Except Capability Unit :=
  match r.needed.find? (· ∉ caps) with
  | some c => .error c
  | none => .ok ()

/-- Nothing is needed. -/
def nothing : Requirements := ⟨"none", []⟩

/-- A session is needed. -/
def session : Requirements := ⟨"login", [.loggedIn]⟩

/-- A session and an organization are needed. -/
def org : Requirements := ⟨"org", [.loggedIn, .orgTargeted]⟩

/-- A session, an organization and a space are needed. -/
def space : Requirements := ⟨"space", [.loggedIn, .orgTargeted, .spaceTargeted]⟩

variable {r : Requirements} {caps : Capabilities} {c : Capability}

/-- Requirements are met exactly when everything needed is there. -/
theorem check_eq_ok_iff : r.check caps = .ok () ↔ ∀ c ∈ r.needed, c ∈ caps := by
  have key : r.check caps = .ok () ↔ r.needed.find? (· ∉ caps) = none := by
    simp only [check]
    split <;> rename_i h <;> simp only [h, reduceCtorEq]
  rw [key]
  simp

/-- The error is what is needed first among what is missing. -/
theorem check_eq_error_iff :
    r.check caps = .error c ↔
      c ∉ caps ∧ ∃ before after, r.needed = before ++ c :: after ∧ ∀ d ∈ before, d ∈ caps := by
  have key : r.check caps = .error c ↔ r.needed.find? (· ∉ caps) = some c := by
    simp only [check]
    split <;> rename_i h <;> simp only [h, Except.error.injEq, Option.some.injEq, reduceCtorEq]
  rw [key, List.find?_eq_some_iff_append]
  simp

end Requirements

/-- How much of the platform a command acts on. -/
structure Scope where
  needsOrg : Bool := false
  needsSpace : Bool := false
  deriving DecidableEq, Repr

namespace Scope

/-- The command needs a session only. -/
def session : Scope := {}

/-- The command acts within an organization. -/
def org : Scope := { needsOrg := true }

/-- The command acts within a space, hence within its organization. -/
def space : Scope := { needsOrg := true, needsSpace := true }

/-- The requirements that a scope stands for: a session always, and a space brings its
organization along. -/
def requirements (scope : Scope) : Requirements :=
  if scope.needsSpace then .space
  else if scope.needsOrg then .org
  else .session

/-- Checks that the session covers the scope. -/
def check (scope : Scope) (caps : Capabilities) : Except Capability Unit :=
  scope.requirements.check caps

/-- A scope is covered exactly when there is a session and what the scope asks for. -/
theorem check_eq_ok_iff {scope : Scope} {caps : Capabilities} :
    scope.check caps = .ok () ↔
      Capability.loggedIn ∈ caps
        ∧ (scope.needsOrg = true ∨ scope.needsSpace = true → Capability.orgTargeted ∈ caps)
        ∧ (scope.needsSpace = true → Capability.spaceTargeted ∈ caps) := by
  obtain ⟨needsOrg, needsSpace⟩ := scope
  rw [check, Requirements.check_eq_ok_iff]
  cases needsOrg <;> cases needsSpace
    <;> simp [requirements, Requirements.session, Requirements.org, Requirements.space]

end Scope

end PlatformAdmin
