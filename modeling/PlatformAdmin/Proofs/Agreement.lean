import PlatformAdmin.Proofs.Reports

/-!
# What is reported and what was done

A command tells its user that it is done, that there is nothing to do, or that it failed.  Here
this is compared with the replies that the platform gave during the run.  `CommandName.Converses`
says which calls are made: each depends on the reply before it, and a reply that brings no value
ends the conversation.  `CommandResult.Reflects` says what the result has to be for given replies.

Both follow from one shape, `Reply.Decides`: all replies but the last brought a value and changed
nothing, and the last one decides the result.
-/

set_option autoImplicit false

namespace PlatformAdmin

/-- A call with the response to it. -/
abbrev Reply : Type := Σ call : Call, Response call.Answer

/-- Whether a call asks for an entity that may be absent. -/
def Call.isLookup : Call → Bool
  | .findUser _ => true
  | .findBroker _ => true
  | _ => false

/-- A change looks nothing up. -/
theorem Call.isLookup_eq_false_of_isMutation {call : Call} (h : call.isMutation = true) :
    call.isLookup = false := by
  cases call <;> first | rfl | cases h

namespace Outcome

variable {α : Type} {o : Outcome α}

/-- An outcome with a value is a success. -/
theorem isSuccess_of_success {a : α} (h : o = .success a) : o.isSuccess = true := by
  rw [h]
  rfl

/-- An outcome that found nothing is no success. -/
theorem isSuccess_of_notFound (h : o = .notFound) : o.isSuccess = false := by
  rw [h]
  rfl

/-- An error is no success. -/
theorem isSuccess_of_error {e : PlatformError} (h : o = .error e) : o.isSuccess = false := by
  rw [h]
  rfl

/-- An outcome that found nothing says so. -/
theorem isNotFound_of_notFound (h : o = .notFound) : o.isNotFound = true := by
  rw [h]
  rfl

/-- An error does not say that nothing was found. -/
theorem isNotFound_of_error {e : PlatformError} (h : o = .error e) : o.isNotFound = false := by
  rw [h]
  rfl

/-- A success does not say that nothing was found. -/
theorem isNotFound_of_isSuccess (h : o.isSuccess = true) : o.isNotFound = false := by
  cases o with
  | success _ => rfl
  | notFound => cases h
  | error _ => cases h

/-- A demand passes only with the value of a success. -/
theorem eq_success_of_asDemand {a : α} {name : String} (h : o.asDemand name = .ok a) :
    o = .success a := by
  cases o with
  | success _ => rw [Except.ok.inj h]
  | notFound => cases h
  | error _ => cases h

end Outcome

/-! ## Conversations -/

/-- The first reply is to this call.  The conversation goes on, in this way, exactly if the reply
brings a value. -/
def Reply.Chain (call : Call) (next : call.Answer → List Reply → Prop)
    (replies : List Reply) : Prop :=
  ∃ response rest, replies = ⟨call, response⟩ :: rest ∧
    (∀ answer, response.outcome = .success answer → next answer rest) ∧
    ((∀ answer, response.outcome ≠ .success answer) → rest = [])

/-- The conversation of a command whose body is entered: a user is deleted exactly if the lookup
found this user; a broker is looked up exactly if there is a current user, and updated exactly if
it was found. -/
def CommandName.Converses (name : CommandName) (inv : Invocation) : List Reply → Prop :=
  match name with
  | .deleteUser =>
    Reply.Chain (.findUser (DeleteUser.username inv)) fun user =>
      Reply.Chain (.deleteUser user) fun _ rest => rest = []
  | .updateServiceBroker =>
    Reply.Chain .currentUser fun _ =>
      Reply.Chain (.findBroker (UpdateServiceBroker.brokerName inv)) fun broker rest =>
        ∃ password, Reply.Chain
          (.updateBroker broker.guid (UpdateServiceBroker.settings inv password))
          (fun _ rest => rest = []) rest

/-! ## Results -/

/-- The failure that a reply amounts to: its error, or the absence of an entity that has to be
there, under the name that the entity of the call goes by. -/
inductive Reply.FailsWith (entity : Call → String) : Reply → PlatformError → Prop
  | error {call : Call} {response : Response call.Answer} {e : PlatformError}
      (outcome : response.outcome = .error e) : FailsWith entity ⟨call, response⟩ e
  | absent {call : Call} {response : Response call.Answer} (outcome : response.outcome = .notFound)
      (needed : call.isLookup = false) :
      FailsWith entity ⟨call, response⟩ (.notFound (entity call))

/-- A result agrees with the replies of its run. -/
structure CommandResult.Reflects (result : CommandResult) (absence : String)
    (entity : Call → String) (replies : List Reply) : Prop where
  done_iff : result = .ok none ↔
    ∃ r ∈ replies, r.1.isMutation = true ∧ r.2.outcome.isSuccess = true
  absent_iff : ∀ notice, result = .ok (some notice) ↔
    notice = absence ∧ ∃ r ∈ replies, r.1.isLookup = true ∧ r.2.outcome.isNotFound = true
  unchanged : (∃ r ∈ replies, r.1.isLookup = true ∧ r.2.outcome.isNotFound = true) →
    ∀ r ∈ replies, r.1.isMutation = false
  failed_iff : ∀ failure, result = .failed failure ↔
    ∃ last e, replies.getLast? = some last ∧ last.FailsWith entity e ∧ failure = .platform e
  undeclined : result ≠ .declined
  confirmed : result.exitCode = 0 → (∀ notice, result ≠ .ok (some notice)) →
    ∃ r, replies.filter (·.1.isMutation) = [r] ∧ r.2.outcome.isSuccess = true

/-! ## The last reply decides -/

/-- The result that a last reply leads to. -/
inductive Reply.Verdict (absence : String) (entity : Call → String) (last : Reply) :
    CommandResult → Prop
  | done (mutation : last.1.isMutation = true) (success : last.2.outcome.isSuccess = true) :
      Verdict absence entity last (.ok none)
  | absent (lookup : last.1.isLookup = true) (missing : last.2.outcome.isNotFound = true) :
      Verdict absence entity last (.ok (some absence))
  | failed {e : PlatformError} (failure : last.FailsWith entity e) :
      Verdict absence entity last (.failed (.platform e))

/-- All replies but the last brought a value and changed nothing, and the last decides. -/
structure Reply.Decides (absence : String) (entity : Call → String) (before : List Reply)
    (last : Reply) (result : CommandResult) : Prop where
  before : ∀ r ∈ before, r.1.isMutation = false ∧ r.2.outcome.isSuccess = true
  verdict : last.Verdict absence entity result

namespace Reply

variable {absence : String} {entity : Call → String} {before : List Reply} {r last : Reply}
  {result : CommandResult} {e e' : PlatformError}

/-- A reply that a command fails with is no success. -/
theorem FailsWith.not_isSuccess (h : r.FailsWith entity e) : r.2.outcome.isSuccess = false := by
  cases h with
  | error ho => exact Outcome.isSuccess_of_error ho
  | absent ho _ => exact Outcome.isSuccess_of_notFound ho

/-- A lookup whose entity is absent is no failure. -/
theorem FailsWith.not_absent (h : r.FailsWith entity e) (hlookup : r.1.isLookup = true) :
    r.2.outcome.isNotFound = false := by
  cases h with
  | error ho => exact Outcome.isNotFound_of_error ho
  | absent _ hneeded =>
    rw [hneeded] at hlookup
    cases hlookup

/-- A reply gives one failure only. -/
theorem FailsWith.unique (h : r.FailsWith entity e) (h' : r.FailsWith entity e') : e = e' := by
  cases h with
  | error ho =>
    cases h' with
    | error ho' =>
      rw [ho] at ho'
      exact Outcome.error.inj ho'
    | absent ho' _ =>
      rw [ho] at ho'
      cases ho'
  | absent ho _ =>
    cases h' with
    | error ho' =>
      rw [ho] at ho'
      cases ho'
    | absent _ _ => rfl

namespace Decides

/-- What changes something, or finds nothing, is the last reply. -/
theorem eq_last (h : Decides absence entity before last result) (hr : r ∈ before ++ [last])
    (hends : r.1.isMutation = true ∨ r.2.outcome.isNotFound = true) : r = last := by
  -- a reply before the last is a success that changes nothing
  obtain hbefore | hlast := List.mem_append.mp hr
  · obtain ⟨hstays, hsuccess⟩ := h.before r hbefore
    obtain hmutation | habsent := hends
    · rw [hstays] at hmutation
      cases hmutation
    · rw [Outcome.isNotFound_of_isSuccess hsuccess] at habsent
      cases habsent
  · exact List.mem_singleton.mp hlast

/-- If the last reply answers a change, it is the only one that does. -/
theorem filter_isMutation (h : Decides absence entity before last result)
    (hmutation : last.1.isMutation = true) :
    (before ++ [last]).filter (·.1.isMutation) = [last] := by
  have hnone : before.filter (·.1.isMutation) = [] := by
    rw [List.filter_eq_nil_iff]
    intro r hr
    rw [(h.before r hr).1]
    decide
  have hlast : [last].filter (·.1.isMutation) = [last] := List.filter_cons_of_pos hmutation
  rw [List.filter_append, hnone, hlast, List.nil_append]

/-- A run is done exactly if a change was made and succeeded. -/
theorem done_iff (h : Decides absence entity before last result) :
    result = .ok none ↔
      ∃ r ∈ before ++ [last], r.1.isMutation = true ∧ r.2.outcome.isSuccess = true := by
  constructor
  · rintro rfl
    cases h.verdict with
    | done hmutation hsuccess =>
      exact ⟨last, List.mem_append_right _ List.mem_cons_self, hmutation, hsuccess⟩
  · rintro ⟨r, hr, hmutation, hsuccess⟩
    obtain rfl := h.eq_last hr (.inl hmutation)
    cases h.verdict with
    | done _ _ => rfl
    | absent _ habsent =>
      rw [Outcome.isNotFound_of_isSuccess hsuccess] at habsent
      cases habsent
    | failed hfailure =>
      rw [hfailure.not_isSuccess] at hsuccess
      cases hsuccess

/-- A run ends with a notice exactly if a lookup found nothing. -/
theorem absent_iff (h : Decides absence entity before last result) (notice : String) :
    result = .ok (some notice) ↔ notice = absence ∧
      ∃ r ∈ before ++ [last], r.1.isLookup = true ∧ r.2.outcome.isNotFound = true := by
  constructor
  · rintro rfl
    cases h.verdict with
    | absent hlookup habsent =>
      exact ⟨rfl, last, List.mem_append_right _ List.mem_cons_self, hlookup, habsent⟩
  · rintro ⟨rfl, r, hr, hlookup, habsent⟩
    obtain rfl := h.eq_last hr (.inr habsent)
    cases h.verdict with
    | done hmutation _ =>
      rw [Call.isLookup_eq_false_of_isMutation hmutation] at hlookup
      cases hlookup
    | absent _ _ => rfl
    | failed hfailure =>
      rw [hfailure.not_absent hlookup] at habsent
      cases habsent

/-- Where a lookup found nothing, nothing is changed. -/
theorem unchanged (h : Decides absence entity before last result)
    (hmissing : ∃ r ∈ before ++ [last], r.1.isLookup = true ∧ r.2.outcome.isNotFound = true) :
    ∀ r ∈ before ++ [last], r.1.isMutation = false := by
  obtain ⟨missing, hmem, hlookup, habsent⟩ := hmissing
  obtain rfl := h.eq_last hmem (.inr habsent)
  intro r hr
  cases hmutation : r.1.isMutation with
  | false => rfl
  | true =>
    obtain rfl := h.eq_last hr (.inl hmutation)
    rw [Call.isLookup_eq_false_of_isMutation hmutation] at hlookup
    cases hlookup

/-- A run fails exactly if its last reply does, and with the failure that the reply gives. -/
theorem failed_iff (h : Decides absence entity before last result) (failure : Failure) :
    result = .failed failure ↔ ∃ final e, (before ++ [last]).getLast? = some final ∧
      final.FailsWith entity e ∧ failure = .platform e := by
  rw [List.getLast?_concat]
  constructor
  · rintro rfl
    cases h.verdict with
    | failed hfailure => exact ⟨last, _, rfl, hfailure, rfl⟩
  · rintro ⟨final, e, hfinal, hfails, rfl⟩
    obtain rfl : last = final := Option.some.inj hfinal
    cases h.verdict with
    | done _ hsuccess =>
      rw [hfails.not_isSuccess] at hsuccess
      cases hsuccess
    | absent hlookup habsent =>
      rw [hfails.not_absent hlookup] at habsent
      cases habsent
    | failed hfailure => rw [hfailure.unique hfails]

/-- What the last reply decides reflects all replies. -/
theorem reflects (h : Decides absence entity before last result) :
    result.Reflects absence entity (before ++ [last]) where
  done_iff := h.done_iff
  absent_iff := h.absent_iff
  unchanged := h.unchanged
  failed_iff := h.failed_iff
  undeclined := by
    rintro rfl
    cases h.verdict
  confirmed := by
    intro hexit hnotice
    cases h.verdict with
    | done hmutation hsuccess => exact ⟨last, h.filter_isMutation hmutation, hsuccess⟩
    | absent _ _ => exact absurd rfl (hnotice absence)
    | failed _ => cases hexit

end Decides

end Reply

/-! ## Both commands -/

/-- The notice that the entity of a command does not exist. -/
def CommandName.absence : CommandName → Invocation → String
  | .deleteUser => DeleteUser.absence
  | .updateServiceBroker => UpdateServiceBroker.absence

/-- The name of the entity that a call of a command is about. -/
def CommandName.entity (name : CommandName) (inv : Invocation) : Call → String
  | .currentUser => "user"
  | _ =>
    match name with
    | .deleteUser => DeleteUser.entity inv
    | .updateServiceBroker => UpdateServiceBroker.entity inv

/-- The result of a command whose body came to this outcome. -/
def CommandResult.ofOutcome : Except Failure (Option String) → CommandResult
  | .ok notice => .ok notice
  | .error e => .failed e

variable {σ : Type}

/-- The replies of a run agree with its calls and with its result. -/
structure CommandName.Agrees (name : CommandName) (inv : Invocation) (replies : List Reply)
    (result : CommandResult) : Prop where
  converses : name.Converses inv replies
  reflects : result.Reflects (name.absence inv) (name.entity inv) replies

namespace Reply

variable {absence : String} {entity : Call → String} {call : Call}
  {response : Response call.Answer} {next : call.Answer → List Reply → Prop}

/-- After a success the chain goes on with what the answer leads to. -/
theorem chain_of_success {answer : call.Answer} {rest : List Reply}
    (h : response.outcome = .success answer) (hnext : next answer rest) :
    Chain call next (⟨call, response⟩ :: rest) := by
  refine ⟨response, rest, rfl, ?_, ?_⟩
  · intro answer' h'
    rw [h] at h'
    obtain rfl := Outcome.success.inj h'
    exact hnext
  · intro hnone
    exact absurd h (hnone answer)

/-- Whatever is no success ends the chain. -/
theorem chain_of_not_success (h : response.outcome.isSuccess = false) :
    Chain call next [⟨call, response⟩] := by
  refine ⟨response, [], rfl, ?_, fun _ => rfl⟩
  intro answer hanswer
  rw [hanswer] at h
  cases h

/-- A call that ends a conversation. -/
theorem chain_last (call : Call) (response : Response call.Answer) :
    Chain call (fun _ rest => rest = []) [⟨call, response⟩] :=
  ⟨response, [], rfl, fun _ _ => rfl, fun _ => rfl⟩

/-- A demand that is not met fails with what the reply says. -/
theorem failsWith_of_asDemand {e : Failure} (hneeded : call.isLookup = false)
    (h : response.outcome.asDemand (entity call) = .error e) :
    ∃ e', e = .platform e' ∧ FailsWith entity ⟨call, response⟩ e' := by
  cases ho : response.outcome with
  | success _ => rw [ho] at h; cases h
  | notFound =>
    rw [ho] at h
    exact ⟨_, (Except.error.inj h).symm, .absent ho hneeded⟩
  | error e' =>
    rw [ho] at h
    exact ⟨_, (Except.error.inj h).symm, .error ho⟩

/-- The reply to a mutation decides between the good end and a failure. -/
theorem verdict_of_mutation {answer : Except Failure call.Answer}
    (hmutation : call.isMutation = true)
    (h : response.outcome.asDemand (entity call) = answer) :
    Verdict absence entity ⟨call, response⟩ (.ofOutcome (answer.map fun _ => none)) := by
  cases answer with
  | ok a =>
    exact .done hmutation (Outcome.isSuccess_of_success (Outcome.eq_success_of_asDemand h))
  | error e =>
    obtain ⟨e', rfl, hfails⟩ :=
      failsWith_of_asDemand (Call.isLookup_eq_false_of_isMutation hmutation) h
    exact .failed hfails

end Reply

/-- The reply to a call at this point of a run. -/
def RunState.reply (s : RunState σ) (g : Gateway σ) (call : Call) : Reply :=
  ⟨call, s.response g call⟩

namespace DeleteUser

variable {g : Gateway σ} {inv : Invocation} {t : Terminal} {remote : σ}
  {outcome : Except Failure (Option String)} {s : RunState σ}

/-- Each course of a deletion agrees with its replies. -/
theorem Course.agrees (h : Course g inv { terminal := t, remote } outcome s) :
    CommandName.deleteUser.Agrees inv (g.responses s.calls remote) (.ofOutcome outcome) := by
  let start : RunState σ := { terminal := t, remote }
  let lookup : Reply := start.reply g (.findUser (username inv))
  cases h with
  | @lookupFailed e hlookup =>
    have hdecides : Reply.Decides (absence inv) (CommandName.deleteUser.entity inv) [] lookup
        (.failed (.platform e)) := ⟨nofun, .failed (.error hlookup)⟩
    exact ⟨Reply.chain_of_not_success (Outcome.isSuccess_of_error hlookup), hdecides.reflects⟩
  | absent hlookup =>
    have hdecides : Reply.Decides (absence inv) (CommandName.deleteUser.entity inv) [] lookup
        (.ok (some (absence inv))) :=
      ⟨nofun, .absent rfl (Outcome.isNotFound_of_notFound hlookup)⟩
    exact ⟨Reply.chain_of_not_success (Outcome.isSuccess_of_notFound hlookup), hdecides.reflects⟩
  | @attempted user answer hlookup hdeletion =>
    have hdecides : Reply.Decides (absence inv) (CommandName.deleteUser.entity inv) [lookup]
        ((lookedUp g inv start).reply g (.deleteUser user))
        (.ofOutcome (answer.map fun _ => none)) := by
      refine ⟨fun r hr => ?_, Reply.verdict_of_mutation rfl hdeletion⟩
      obtain rfl := List.mem_singleton.mp hr
      exact ⟨rfl, Outcome.isSuccess_of_success hlookup⟩
    exact ⟨Reply.chain_of_success hlookup (Reply.chain_last _ _), hdecides.reflects⟩

end DeleteUser

namespace UpdateServiceBroker

variable {g : Gateway σ} {inv : Invocation} {credentials : Credentials} {t : Terminal}
  {remote : σ} {outcome : Except Failure (Option String)} {s : RunState σ}

/-- Once there is a password, each course of an update agrees with its replies. -/
theorem Course.agrees {password : Credential}
    (hpassword : (credentials.take neededPassword.name).1 = some password)
    (h : Course g inv credentials { terminal := t, remote } outcome s) :
    CommandName.updateServiceBroker.Agrees inv (g.responses s.calls remote)
      (.ofOutcome outcome) := by
  let start : RunState σ := { terminal := t, remote }
  let current : Reply := start.reply g .currentUser
  let lookup : Reply := (identified g start).reply g (.findBroker (brokerName inv))
  -- each course binds a user of its own, so this is stated for any
  have hknown : ∀ {user}, current.2.outcome.asDemand "user" = .ok user →
      current.1.isMutation = false ∧ current.2.outcome.isSuccess = true := fun h =>
    ⟨rfl, Outcome.isSuccess_of_success (Outcome.eq_success_of_asDemand h)⟩
  cases h with
  | noPassword hnone =>
    rw [hnone] at hpassword
    cases hpassword
  | userFailed _ hcurrent =>
    obtain ⟨e, rfl, hfails⟩ : ∃ e', _ = Failure.platform e' ∧
        current.FailsWith (CommandName.updateServiceBroker.entity inv) e' :=
      Reply.failsWith_of_asDemand rfl hcurrent
    have hdecides : Reply.Decides (absence inv) (CommandName.updateServiceBroker.entity inv) []
        current (.failed (.platform e)) := ⟨nofun, .failed hfails⟩
    exact ⟨Reply.chain_of_not_success hfails.not_isSuccess, hdecides.reflects⟩
  | @lookupFailed _ _ e _ hcurrent hlookup =>
    have hdecides : Reply.Decides (absence inv) (CommandName.updateServiceBroker.entity inv)
        [current] lookup (.failed (.platform e)) := by
      refine ⟨fun r hr => ?_, .failed (.error hlookup)⟩
      obtain rfl := List.mem_singleton.mp hr
      exact hknown hcurrent
    exact ⟨Reply.chain_of_success (Outcome.eq_success_of_asDemand hcurrent)
      (Reply.chain_of_not_success (Outcome.isSuccess_of_error hlookup)), hdecides.reflects⟩
  | absent _ hcurrent hlookup =>
    have hdecides : Reply.Decides (absence inv) (CommandName.updateServiceBroker.entity inv)
        [current] lookup (.ok (some (absence inv))) := by
      refine ⟨fun r hr => ?_, .absent rfl (Outcome.isNotFound_of_notFound hlookup)⟩
      obtain rfl := List.mem_singleton.mp hr
      exact hknown hcurrent
    exact ⟨Reply.chain_of_success (Outcome.eq_success_of_asDemand hcurrent)
      (Reply.chain_of_not_success (Outcome.isSuccess_of_notFound hlookup)), hdecides.reflects⟩
  | @attempted password user broker answer _ hcurrent hlookup hupdate =>
    have hdecides : Reply.Decides (absence inv) (CommandName.updateServiceBroker.entity inv)
        [current, lookup]
        ((lookedUp g inv start user).reply g
          (.updateBroker broker.guid (settings inv password.secret)))
        (.ofOutcome (answer.map fun _ => none)) := by
      refine ⟨fun r hr => ?_, Reply.verdict_of_mutation rfl hupdate⟩
      obtain rfl | hr := List.mem_cons.mp hr
      · exact hknown hcurrent
      · obtain rfl := List.mem_singleton.mp hr
        exact ⟨rfl, Outcome.isSuccess_of_success hlookup⟩
    exact ⟨Reply.chain_of_success (Outcome.eq_success_of_asDemand hcurrent)
      (Reply.chain_of_success hlookup ⟨password.secret, Reply.chain_last _ _⟩),
      hdecides.reflects⟩

/-- The gates hand over a password, which comes from one of its sources. -/
theorem exists_yields_of_admits {caps : Capabilities} {env : Environment} {t' : Terminal}
    (h : declaration.Admits inv caps env t credentials t') :
    ∃ password, (credentials.take neededPassword.name).1 = some password ∧
      NeededSecret.Yields { neededPassword with argument := (Arguments.ofInvocation inv).password }
        env t password t' := by
  obtain ⟨t₁, hagrees, hobtained⟩ := h.agreed
  -- there is no question, so the secrets are obtained from the terminal as it was
  obtain rfl : t = t₁ := by
    cases hagrees with
    | unasked _ => rfl
    | forced _ => rfl
    | answered hasked _ _ _ => cases hasked
  have hsecrets : declaration.secrets inv =
      [{ neededPassword with argument := (Arguments.ofInvocation inv).password }] := rfl
  rw [hsecrets] at hobtained
  generalize hremaining : credentials.remaining = remaining at hobtained
  cases hobtained with
  | @cons _ _ _ _ _ c others hyields hothers =>
    have hname : c.name = neededPassword.name := by cases hyields <;> rfl
    have htake : credentials.take neededPassword.name = (some c, ⟨[] ++ others⟩) :=
      Credentials.take_of_remaining_eq hremaining nofun hname
    cases hothers
    exact ⟨c, congrArg Prod.fst htake, hyields⟩

/-- The broker's password is among the credentials of an execution that is admitted. -/
theorem exists_password_of_admits {caps : Capabilities} {env : Environment} {t' : Terminal}
    (h : declaration.Admits inv caps env t credentials t') :
    ∃ password, (credentials.take neededPassword.name).1 = some password := by
  obtain ⟨password, hpassword, -⟩ := exists_yields_of_admits h
  exact ⟨password, hpassword⟩

end UpdateServiceBroker

/-- The result that is concluded is the one that the outcome stands for. -/
theorem Command.concluded_fst (outcome : Except Failure (Option String)) (s : RunState σ) :
    (concluded outcome s).1 = .ofOutcome outcome := by
  cases outcome with
  | error e => rfl
  | ok notice => cases notice <;> rfl

/-- A command that is admitted agrees with the replies to it: it makes the calls that they lead
to, and its result says what they say.  In particular it ends with status zero and without a
notice only after one mutation that was confirmed. -/
theorem CommandName.execute_agrees (name : CommandName) (g : Gateway σ) (inv : Invocation)
    (caps : Capabilities) (env : Environment) (t : Terminal) (remote : σ)
    (h : ∃ credentials t', (name.command : Command σ).Admits inv caps env t credentials t') :
    let ending := (name.command : Command σ).execute g inv caps env t remote
    let replies := g.responses ending.2.calls remote
    ending.2.remote = g.after ending.2.calls remote ∧ name.Converses inv replies ∧
      ending.1.Reflects (name.absence inv) (name.entity inv) replies := by
  intro ending replies
  refine ⟨Command.execute_remote name.candid g inv caps env t remote, ?_⟩
  obtain ⟨credentials, t', hadmits⟩ := h
  let run := (name.command : Command σ).run g inv credentials { terminal := t', remote }
  have hending : ending = Command.concluded run.1 run.2 :=
    (name.command : Command σ).execute_of_clear_eq_ok g remote
      (Declaration.clear_eq_ok_iff.mpr hadmits)
  have hagrees : name.Agrees inv (g.responses run.2.calls remote) (.ofOutcome run.1) := by
    cases name with
    | deleteUser => exact (DeleteUser.body_course g inv _).agrees
    | updateServiceBroker =>
      obtain ⟨password, hpassword⟩ := UpdateServiceBroker.exists_password_of_admits hadmits
      exact (UpdateServiceBroker.body_course g inv credentials _).agrees hpassword
  have hresult : ending.1 = .ofOutcome run.1 := by rw [hending, Command.concluded_fst]
  have hcalls : ending.2.calls = run.2.calls := by rw [hending]; rfl
  have hreplies : replies = g.responses run.2.calls remote :=
    congrArg (g.responses · remote) hcalls
  rw [hresult, hreplies]
  exact ⟨hagrees.converses, hagrees.reflects⟩

/-- A broker that is found, and is gone when it is to be updated. -/
theorem CommandName.execute_agrees_broker_gone :
    let g : Gateway Unit := .programmed { onUpdateBroker := some ⟨.notFound, ["late"]⟩ }
    let inv : Invocation := { args := ["b", "ann", "secret", "https://b.example"] }
    let caps : Capabilities := { loggedIn := true }
    let t : Terminal := .ofInput ""
    let ending := UpdateServiceBroker.command.execute g inv caps (fun _ => none) t ()
    (∃ credentials t', UpdateServiceBroker.declaration.Admits inv caps (fun _ => none) t
        credentials t') ∧
      ending.1 = .failed (.platform (.notFound "Service broker b")) ∧
      CommandName.updateServiceBroker.Converses inv (g.responses ending.2.calls ()) ∧
      ending.1.Reflects "Service broker b does not exist."
        (CommandName.updateServiceBroker.entity inv) (g.responses ending.2.calls ()) := by
  intro g inv caps t ending
  have hadmits : ∃ credentials t', UpdateServiceBroker.declaration.Admits inv caps (fun _ => none)
      t credentials t' := ⟨_, _, Declaration.clear_eq_ok_iff.mp rfl⟩
  obtain ⟨-, hconverses, hreflects⟩ := CommandName.updateServiceBroker.execute_agrees g inv caps
    (fun _ => none) t () hadmits
  exact ⟨hadmits, by decide, hconverses, hreflects⟩

end PlatformAdmin
