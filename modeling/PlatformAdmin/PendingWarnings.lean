import PlatformAdmin.Response
import PlatformAdmin.Terminal

/-!
# Pending warnings

Warnings that come with responses are kept while a command runs, and reach the user when they
are flushed.  `receive` and `demand` take the value out of a response after its warnings have
been kept, so that no outcome loses a warning.
-/

set_option autoImplicit false

namespace PlatformAdmin

/-- The warnings that have not been shown yet, oldest first. -/
structure PendingWarnings where
  texts : List String := []
  deriving DecidableEq, Repr

namespace PendingWarnings

/-- Keeps further warnings. -/
def add (pending : PendingWarnings) (warnings : List String) : PendingWarnings :=
  ⟨pending.texts ++ warnings⟩

/-- Whether there is nothing to show. -/
def isEmpty (pending : PendingWarnings) : Bool :=
  pending.texts.isEmpty

/-- Shows the warnings, after which none is pending. -/
def flush (pending : PendingWarnings) (t : Terminal) : PendingWarnings × Terminal :=
  ({}, t.warnAll pending.texts)

variable {α : Type}

/-- Takes the answer out of a response: `none` if there is no such entity. -/
def receive (pending : PendingWarnings) (r : Response α) :
    Except PlatformError (Option α) × PendingWarnings :=
  let answer :=
    match r.outcome with
    | .success value => .ok (some value)
    | .notFound => .ok none
    | .error e => .error e
  (answer, pending.add r.warnings)

/-- Takes the value out of a response; the absence of the entity is an error that names it. -/
def demand (pending : PendingWarnings) (r : Response α) (entity : String) :
    Except PlatformError α × PendingWarnings :=
  match pending.receive r with
  | (.ok (some value), pending) => (.ok value, pending)
  | (.ok none, pending) => (.error (.notFound entity), pending)
  | (.error e, pending) => (.error e, pending)

/-- Whatever the outcome of a response, its warnings are kept. -/
@[simp] theorem receive_snd (pending : PendingWarnings) (r : Response α) :
    (pending.receive r).2 = pending.add r.warnings := rfl

/-- The same when the entity has to be there. -/
@[simp] theorem demand_snd (pending : PendingWarnings) (r : Response α) (entity : String) :
    (pending.demand r entity).2 = pending.add r.warnings := by
  simp only [demand, receive]
  cases r.outcome <;> rfl

end PendingWarnings

end PlatformAdmin
