import PlatformAdmin.Command.DeleteUser
import PlatformAdmin.Command.UpdateServiceBroker

/-!
# The courses of the two commands

A call changes a run in one way only, `RunState.afterCall`, and its answer is judged in one of
two ways: `Outcome.asLookup` where the entity may be absent, `Outcome.asDemand` where it has to
be there.  From this each body takes one of a few courses.  `DeleteUser.Course` and
`UpdateServiceBroker.Course` have a case for each of them, which names the answers that lead
there, the outcome and the final state; the lemmas `body_course` say that there are no others.
-/

set_option autoImplicit false

namespace PlatformAdmin

/-! ## Calls -/

/-- What the outcome of a call means where the entity may be absent. -/
def Outcome.asLookup {α : Type} : Outcome α → Except Failure (Option α)
  | .success value => .ok (some value)
  | .notFound => .ok none
  | .error e => .error (.platform e)

/-- What the outcome of a call means where the entity has to be there. -/
def Outcome.asDemand {α : Type} (entity : String) : Outcome α → Except Failure α
  | .success value => .ok value
  | .notFound => .error (.platform (.notFound entity))
  | .error e => .error (.platform e)

variable {σ : Type}

/-- What a gateway responds to a call at this point of a run. -/
def RunState.response (s : RunState σ) (g : Gateway σ) (c : Call) : Response c.Answer :=
  (g.answer c s.remote).1

/-- The run after a call: the gateway has moved on, the warnings of its response are kept, and
the call is noted. -/
def RunState.afterCall (s : RunState σ) (g : Gateway σ) (c : Call) : RunState σ :=
  { terminal := s.terminal
    remote := (g.answer c s.remote).2
    warnings := s.warnings.add (s.response g c).warnings
    calls := s.calls ++ [c] }

/-- The run after a line of progress. -/
def RunState.afterSaying (s : RunState σ) (message : String) : RunState σ :=
  { s with terminal := s.terminal.say message }

namespace Run

variable {α β : Type}

/-- After a step with a value the next step goes on from there. -/
theorem bind_of_ok {x : Run σ α} {f : α → Run σ β} {s t : RunState σ} {a : α}
    (h : x s = (.ok a, t)) : (x >>= f) s = f a t := by
  rw [bind_apply, h]

/-- After a step that failed nothing more is done. -/
theorem bind_of_error {x : Run σ α} {f : α → Run σ β} {s t : RunState σ} {e : Failure}
    (h : x s = (.error e, t)) : (x >>= f) s = (.error e, t) := by
  rw [bind_apply, h]

/-- A lookup makes its call, and takes from the outcome what a lookup may bring. -/
theorem lookup_apply (g : Gateway σ) (c : Call) (s : RunState σ) :
    lookup g c s = ((s.response g c).outcome.asLookup, s.afterCall g c) := by
  unfold lookup
  rw [bind_apply]
  simp only [call, judge, PendingWarnings.receive, RunState.afterCall, RunState.response]
  cases (g.answer c s.remote).1.outcome <;> rfl

/-- A demand makes its call, and takes from the outcome what has to be there. -/
theorem demand_apply (g : Gateway σ) (c : Call) (entity : String) (s : RunState σ) :
    demand g c entity s = ((s.response g c).outcome.asDemand entity, s.afterCall g c) := by
  unfold demand
  rw [bind_apply]
  simp only [call, judge, PendingWarnings.demand, PendingWarnings.receive, RunState.afterCall,
    RunState.response]
  cases (g.answer c s.remote).1.outcome <;> rfl

/-- To demand an entity and end without a notice. -/
theorem demand_then_return (g : Gateway σ) (c : Call) (entity : String) (s : RunState σ) :
    (demand g c entity >>= fun _ => pure none : Run σ (Option String)) s =
      (((s.response g c).outcome.asDemand entity).map fun _ => none, s.afterCall g c) := by
  have h := demand_apply g c entity s
  cases hr : (s.response g c).outcome.asDemand entity with
  | error e =>
    rw [hr] at h
    rw [bind_of_error h]
    rfl
  | ok a =>
    rw [hr] at h
    rw [bind_of_ok h]
    rfl

end Run

/-! ## Deletion of a user -/

namespace DeleteUser

/-- The line of progress. -/
def progress (inv : Invocation) : String := "Deleting user " ++ username inv ++ "..."

/-- The notice that there is no such user. -/
def absence (inv : Invocation) : String := "User " ++ username inv ++ " does not exist."

/-- The run after the user was looked up. -/
def lookedUp (g : Gateway σ) (inv : Invocation) (s : RunState σ) : RunState σ :=
  (s.afterSaying (progress inv)).afterCall g (.findUser (username inv))

/-- The entity that has to be there when it is deleted. -/
def entity (inv : Invocation) : String := "User " ++ username inv

/-- The courses from a state: how each ends, and in which state. -/
inductive Course (g : Gateway σ) (inv : Invocation) (s : RunState σ) :
    Except Failure (Option String) → RunState σ → Prop
  | lookupFailed {e : PlatformError}
      (lookup : (s.response g (.findUser (username inv))).outcome = .error e) :
      Course g inv s (.error (.platform e)) (lookedUp g inv s)
  | absent (lookup : (s.response g (.findUser (username inv))).outcome = .notFound) :
      Course g inv s (.ok (some (absence inv))) (lookedUp g inv s)
  | attempted {user : User} {answer : Except Failure Unit}
      (lookup : (s.response g (.findUser (username inv))).outcome = .success user)
      (deletion : ((lookedUp g inv s).response g (.deleteUser user)).outcome.asDemand (entity inv)
        = answer) :
      Course g inv s (answer.map fun _ => none)
        ((lookedUp g inv s).afterCall g (.deleteUser user))

/-- The body of a deletion takes one of its courses, whatever the gateway answers. -/
theorem body_course (g : Gateway σ) (inv : Invocation) (s : RunState σ) :
    Course g inv s (body g inv s).1 (body g inv s).2 := by
  have hsay : Run.say ("Deleting user " ++ username inv ++ "...") s =
      (.ok (), s.afterSaying (progress inv)) := rfl
  have hfind : Run.lookup g (.findUser (username inv)) (s.afterSaying (progress inv)) =
      ((s.response g (.findUser (username inv))).outcome.asLookup, lookedUp g inv s) :=
    Run.lookup_apply g _ _
  unfold body
  rw [Run.bind_of_ok hsay]
  cases hl : (s.response g (.findUser (username inv))).outcome with
  | error e =>
    rw [hl] at hfind
    rw [Run.bind_of_error hfind]
    exact .lookupFailed hl
  | notFound =>
    rw [hl] at hfind
    rw [Run.bind_of_ok hfind]
    exact .absent hl
  | success user =>
    rw [hl] at hfind
    rw [Run.bind_of_ok hfind]
    dsimp only
    rw [Run.demand_then_return]
    exact .attempted hl rfl

end DeleteUser

/-! ## Update of a service broker -/

namespace UpdateServiceBroker

/-- The name of the broker to update. -/
def brokerName (inv : Invocation) : String := (Arguments.ofInvocation inv).name

/-- The line of progress, once the current user is known. -/
def progress (inv : Invocation) (user : User) : String :=
  "Updating service broker " ++ brokerName inv ++ " as " ++ user.username ++ "..."

/-- The notice that there is no such broker. -/
def absence (inv : Invocation) : String :=
  "Service broker " ++ brokerName inv ++ " does not exist."

/-- The new settings. -/
def settings (inv : Invocation) (password : Secret) : BrokerUpdate :=
  ⟨(Arguments.ofInvocation inv).username, password, (Arguments.ofInvocation inv).url⟩

/-- The run after the current user was asked for. -/
def identified (g : Gateway σ) (s : RunState σ) : RunState σ :=
  s.afterCall g .currentUser

/-- The run after the broker was looked up. -/
def lookedUp (g : Gateway σ) (inv : Invocation) (s : RunState σ) (user : User) : RunState σ :=
  ((identified g s).afterSaying (progress inv user)).afterCall g (.findBroker (brokerName inv))

/-- The entity that has to be there when it is updated. -/
def entity (inv : Invocation) : String := "Service broker " ++ brokerName inv

/-- The courses from a state: how each ends, and in which state. -/
inductive Course (g : Gateway σ) (inv : Invocation) (credentials : Credentials)
    (s : RunState σ) : Except Failure (Option String) → RunState σ → Prop
  | noPassword (taken : (credentials.take neededPassword.name).1 = none) :
      Course g inv credentials s (.error (.missingCredential neededPassword.name)) s
  | userFailed {password : Credential} {e : Failure}
      (taken : (credentials.take neededPassword.name).1 = some password)
      (current : (s.response g .currentUser).outcome.asDemand "user" = .error e) :
      Course g inv credentials s (.error e) (identified g s)
  | lookupFailed {password : Credential} {user : User} {e : PlatformError}
      (taken : (credentials.take neededPassword.name).1 = some password)
      (current : (s.response g .currentUser).outcome.asDemand "user" = .ok user)
      (lookup : ((identified g s).response g (.findBroker (brokerName inv))).outcome
        = .error e) :
      Course g inv credentials s (.error (.platform e)) (lookedUp g inv s user)
  | absent {password : Credential} {user : User}
      (taken : (credentials.take neededPassword.name).1 = some password)
      (current : (s.response g .currentUser).outcome.asDemand "user" = .ok user)
      (lookup : ((identified g s).response g (.findBroker (brokerName inv))).outcome
        = .notFound) :
      Course g inv credentials s (.ok (some (absence inv))) (lookedUp g inv s user)
  | attempted {password : Credential} {user : User} {broker : ServiceBroker}
      {answer : Except Failure Unit}
      (taken : (credentials.take neededPassword.name).1 = some password)
      (current : (s.response g .currentUser).outcome.asDemand "user" = .ok user)
      (lookup : ((identified g s).response g (.findBroker (brokerName inv))).outcome
        = .success broker)
      (update : ((lookedUp g inv s user).response g
        (.updateBroker broker.guid (settings inv password.secret))).outcome.asDemand (entity inv)
          = answer) :
      Course g inv credentials s (answer.map fun _ => none)
        ((lookedUp g inv s user).afterCall g
          (.updateBroker broker.guid (settings inv password.secret)))

/-- The body of an update takes one of its courses, whatever the gateway answers. -/
theorem body_course (g : Gateway σ) (inv : Invocation) (credentials : Credentials)
    (s : RunState σ) :
    Course g inv credentials s (body g inv credentials s).1 (body g inv credentials s).2 := by
  unfold body
  cases ht : (credentials.take neededPassword.name).1 with
  | none =>
    have htake : takePassword credentials s =
        (.error (.missingCredential neededPassword.name), s) := by
      simp only [takePassword, ht, Run.fail]
    rw [Run.bind_of_error htake]
    exact .noPassword ht
  | some password =>
    have htake : takePassword credentials s = (.ok password.secret, s) := by
      simp only [takePassword, ht, Run.pure_apply]
    have hcurrent : Run.demand g .currentUser "user" s =
        ((s.response g .currentUser).outcome.asDemand "user", identified g s) :=
      Run.demand_apply g .currentUser "user" s
    rw [Run.bind_of_ok htake]
    cases hc : (s.response g .currentUser).outcome.asDemand "user" with
    | error e =>
      rw [hc] at hcurrent
      rw [Run.bind_of_error hcurrent]
      exact .userFailed ht hc
    | ok user =>
      have hsay : Run.say ("Updating service broker " ++ (Arguments.ofInvocation inv).name ++ " as "
          ++ user.username ++ "...") (identified g s) =
            (.ok (), (identified g s).afterSaying (progress inv user)) := rfl
      have hfind : Run.lookup g (.findBroker (Arguments.ofInvocation inv).name)
          ((identified g s).afterSaying (progress inv user)) =
            (((identified g s).response g (.findBroker (brokerName inv))).outcome.asLookup,
              lookedUp g inv s user) :=
        Run.lookup_apply g _ _
      rw [hc] at hcurrent
      rw [Run.bind_of_ok hcurrent, Run.bind_of_ok hsay]
      cases hl : ((identified g s).response g (.findBroker (brokerName inv))).outcome with
      | error e =>
        rw [hl] at hfind
        rw [Run.bind_of_error hfind]
        exact .lookupFailed ht hc hl
      | notFound =>
        rw [hl] at hfind
        rw [Run.bind_of_ok hfind]
        exact .absent ht hc hl
      | success broker =>
        rw [hl] at hfind
        rw [Run.bind_of_ok hfind]
        dsimp only
        rw [Run.demand_then_return]
        exact .attempted ht hc hl rfl

/-- A course that comes to an update found the broker, and sends it the settings. -/
theorem Course.exists_of_update {g : Gateway σ} {inv : Invocation} {credentials : Credentials}
    {t : Terminal} {remote : σ} {outcome : Except Failure (Option String)} {s : RunState σ}
    {guid : String} {update : BrokerUpdate}
    (h : Course g inv credentials { terminal := t, remote } outcome s)
    (hupdate : .updateBroker guid update ∈ s.calls) :
    ∃ password broker, (credentials.take neededPassword.name).1 = some password ∧
      (g.answer (.findBroker (brokerName inv)) (g.answer .currentUser remote).2).1.outcome =
        .success broker ∧
      broker.guid = guid ∧ settings inv password.secret = update ∧
      s.calls = [.currentUser, .findBroker (brokerName inv), .updateBroker guid update] := by
  cases h with
  | noPassword _ => cases hupdate
  | userFailed _ _ => simp [identified, RunState.afterCall] at hupdate
  | lookupFailed _ _ _ =>
    simp [lookedUp, identified, RunState.afterCall, RunState.afterSaying] at hupdate
  | absent _ _ _ =>
    simp [lookedUp, identified, RunState.afterCall, RunState.afterSaying] at hupdate
  | @attempted password user broker _ htaken _ hlookup _ =>
    obtain ⟨rfl, rfl⟩ : guid = broker.guid ∧ update = settings inv password.secret := by
      simpa [lookedUp, identified, RunState.afterCall, RunState.afterSaying] using hupdate
    exact ⟨password, broker, htaken, hlookup, rfl, rfl, rfl⟩

end UpdateServiceBroker

end PlatformAdmin
