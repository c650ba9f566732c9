import PlatformAdmin.Proofs.Reports
import PlatformAdmin.Proofs.TwoRuns

/-!
# The traffic of a run

To see what a run sends, the network is logged: `Http.Network.logged` keeps each request with
what came back for it, beside the state of the network.  For the client of the platform the log
grows by one exchange at most with each call, by the request of `PlatformClient.requestFor?`.
Nothing else about a run changes when the network is logged.
-/

set_option autoImplicit false

namespace PlatformAdmin

variable {σ : Type}

/-- A request with what came back for it. -/
abbrev Http.Exchange : Type := Http.Request × Http.Delivery

/-- The network with a log of what it was sent, oldest first. -/
def Http.Network.logged (net : Http.Network σ) : Http.Network (σ × List Http.Exchange) where
  deliver request s :=
    ((net.deliver request s.1).1,
      ((net.deliver request s.1).2, s.2 ++ [(request, (net.deliver request s.1).1)]))
  nameRules := net.nameRules

namespace PlatformClient

/-- The exchange that a request leads to, if the request can be made. -/
def exchangeOn (net : Http.Network σ) (request : Option Http.Request) (remote : σ) :
    List Http.Exchange :=
  (request.map fun r => (r, (net.deliver r remote).1)).toList

/-- The request that goes out for a call, if one does. -/
def requestFor? (c : PlatformClient) (net : Http.Network σ) : Call → Option Http.Request
  | .currentUser => none
  | .findUser username => (c.findUserRequest net username).toOption
  | .deleteUser user => (c.deleteUserRequest net user).toOption
  | .findBroker name => (c.findBrokerRequest net name).toOption
  | .updateBroker guid update => (c.updateBrokerRequest net guid update).toOption

variable (c : PlatformClient) (net : Http.Network σ) (remote : σ) (log : List Http.Exchange)

/-- On a logged network an exchange does the same, and is kept in the log. -/
theorem exchange_logged {α : Type} (request : Except PlatformError Http.Request)
    (read : List UInt8 → Outcome α) :
    exchange net.logged request read (remote, log) =
      ((exchange net request read remote).1,
        ((exchange net request read remote).2, log ++ exchangeOn net request.toOption remote)) := by
  cases request with
  | error e => simp [exchange, exchangeOn, Except.toOption]
  | ok request => rfl

/-- On a logged network a call gets the same answer, and its exchange is kept in the log. -/
theorem answer_logged (call : Call) :
    c.answer net.logged call (remote, log) =
      ((c.answer net call remote).1,
        ((c.answer net call remote).2, log ++ exchangeOn net (c.requestFor? net call) remote)) := by
  -- the requests are the same on both networks, since both name servers by the same rules
  cases call with
  | currentUser => simp [answer, requestFor?, exchangeOn]
  | findUser username =>
    simp only [answer, exchange_logged]
    rfl
  | deleteUser user =>
    simp only [answer, exchange_logged]
    rfl
  | findBroker name =>
    simp only [answer, exchange_logged]
    rfl
  | updateBroker guid update =>
    simp only [answer, exchange_logged]
    rfl

/-- Each exchange in the log of a run belongs to one of its calls. -/
theorem mem_traffic {calls : List Call} {e : Http.Exchange}
    (h : e ∈ ((c.gateway net.logged).after calls (remote, log)).2) :
    e ∈ log ∨ ∃ call ∈ calls, c.requestFor? net call = some e.1 := by
  -- each call moves the network on, so both of its parts vary
  induction calls generalizing remote log with
  | nil => exact .inl h
  | cons call calls ih =>
    have hanswer : ((c.gateway net.logged).answer call (remote, log)).2 =
        ((c.answer net call remote).2, log ++ exchangeOn net (c.requestFor? net call) remote) :=
      congrArg Prod.snd (c.answer_logged net remote log call)
    rw [Gateway.after, hanswer] at h
    obtain hlog | ⟨call', hcall', hrequest⟩ := ih _ _ h
    · rw [List.mem_append] at hlog
      obtain hlog | hnew := hlog
      · exact .inl hlog
      · refine .inr ⟨call, List.mem_cons_self, ?_⟩
        rw [exchangeOn, Option.mem_toList, Option.map_eq_some_iff] at hnew
        obtain ⟨request, hrequest, rfl⟩ := hnew
        exact hrequest
    · exact .inr ⟨call', List.mem_cons_of_mem _ hcall', hrequest⟩

/-- The request to an address, once nothing stands in its way. -/
def requestTo (c : PlatformClient) (method : Http.Method) (u : Url) (body : Option Json) :
    Http.Request where
  method := method
  url := u
  headers := c.headers ++ contentHeaders body
  body := body.map Json.compact
  trustsAnyone := c.skipSslValidation

/-- A request can be made exactly if the token fits into a header, and the address is one and not
too long. -/
theorem request_eq_ok_iff {method : Http.Method} {url : Option Url} {body : Option Json}
    {request : Http.Request} : c.request method url body = .ok request ↔
      Http.isHeaderValue c.authorization = true ∧ ∃ u, url = some u ∧
        u.text.utf8ByteSize ≤ Http.maxUrlBytes ∧ c.requestTo method u body = request := by
  unfold PlatformClient.request
  cases url with
  | none => split <;> simp
  | some u =>
    by_cases hfits : Http.isHeaderValue c.authorization = true
    · by_cases hsize : u.text.utf8ByteSize ≤ Http.maxUrlBytes
      · simp [hfits, hsize, requestTo]
      · simp [hfits, hsize]
    · simp [hfits]

/-- A request has the method that it was made with. -/
theorem method_eq_of_request_eq_ok {method : Http.Method} {url : Option Url} {body : Option Json}
    {request : Http.Request} (h : c.request method url body = .ok request) :
    request.method = method := by
  obtain ⟨-, u, -, -, rfl⟩ := c.request_eq_ok_iff.mp h
  rfl

/-- Only the deletion of a user sends a request to delete. -/
theorem exists_deleteUser_of_requestFor? {call : Call} {request : Http.Request}
    (h : c.requestFor? net call = some request) (hmethod : request.method = .delete) :
    ∃ user, call = .deleteUser user := by
  have hother : ∀ {method url body}, method ≠ Http.Method.delete →
      (c.request method url body).toOption ≠ some request := by
    intro method url body hne hrequest
    cases hr : c.request method url body with
    | error e =>
      rw [hr] at hrequest
      cases hrequest
    | ok r =>
      rw [hr] at hrequest
      obtain rfl : r = request := Option.some.inj hrequest
      exact hne ((c.method_eq_of_request_eq_ok hr).symm.trans hmethod)
  cases call with
  | currentUser => cases h
  | findUser username => exact absurd h (hother nofun)
  | deleteUser user => exact ⟨user, rfl⟩
  | findBroker name => exact absurd h (hother nofun)
  | updateBroker guid update => exact absurd h (hother nofun)

end PlatformClient

/-! ## Executions on a logged network -/

/-- The state of a logged network, and that of the network alone. -/
def Http.Forgets (logged : σ × List Http.Exchange) (remote : σ) : Prop :=
  logged.1 = remote

/-- The gateway of a configuration answers alike when the network is logged. -/
theorem Gateway.answersAlike_logged (net : Http.Network σ) (config : Config) (call : Call) :
    (Gateway.ofConfig net.logged config).AnswersAlike Http.Forgets
      (Gateway.ofConfig net config) call := by
  rintro ⟨remote, log⟩ _ rfl
  unfold Gateway.ofConfig
  cases PlatformClient.ofConfig? config with
  | none => exact ⟨rfl, rfl⟩
  | some client =>
    have hanswer := client.answer_logged net remote log call
    exact ⟨congrArg Prod.fst hanswer, congrArg Prod.fst (congrArg Prod.snd hanswer)⟩

/-- Two terminals that are the same stay the same. -/
theorem Terminal.keptByOutput_eq : Terminal.KeptByOutput Eq where
  say := by
    rintro t _ rfl message
    rfl
  warn := by
    rintro t _ rfl message
    rfl

/-- An execution does the same when the network is logged. -/
theorem CommandName.execute_logged (name : CommandName) (net : Http.Network σ) (config : Config)
    (inv : Invocation) (caps : Capabilities) (env : Environment) (t : Terminal)
    (s : σ × List Http.Exchange) :
    let logged := name.command.execute (Gateway.ofConfig net.logged config) inv caps env t s
    let plain := name.command.execute (Gateway.ofConfig net config) inv caps env t s.1
    logged.1 = plain.1 ∧ RunState.Beside Eq Http.Forgets Eq logged.2 plain.2 := by
  intro logged plain
  have hclear : (name.command : Command (σ × List Http.Exchange)).clear inv caps env t =
      (name.command : Command σ).clear inv caps env t := by
    cases name <;> rfl
  refine Command.execute_parallel (K := Eq) Terminal.keptByOutput_eq ?_ ?_ rfl
    (fun _ _ hs => hs) ?_
  · rw [hclear]
    exact .refl _
  · rw [hclear]
  rintro credentials _ rfl
  exact name.run_parallel Terminal.keptByOutput_eq (fun _ => rfl)
    (Gateway.answersAlike_logged net config) inv credentials

/-- In its surroundings a command does the same when the network is logged. -/
theorem CommandName.executeIn_logged (name : CommandName) (w : Surroundings)
    (net : Http.Network σ) (inv : Invocation) (t : Terminal) (s : σ × List Http.Exchange) :
    let logged := name.command.executeIn w net.logged inv t s
    let plain := name.command.executeIn w net inv t s.1
    logged.1 = plain.1 ∧ RunState.Beside Eq Http.Forgets Eq logged.2 plain.2 := by
  intro logged plain
  have hcheck : (name.command : Command (σ × List Http.Exchange)).clearArguments inv t =
      (name.command : Command σ).clearArguments inv t := by
    cases name <;> rfl
  simp only [logged, plain, Command.executeIn, hcheck]
  cases (name.command : Command σ).clearArguments inv t with
  | mk answer t' =>
    cases answer with
    | error e => exact ⟨rfl, rfl, rfl, rfl, .nil⟩
    | ok _ =>
      cases w.config with
      | error e => exact ⟨rfl, rfl, rfl, rfl, .nil⟩
      | ok config => exact name.execute_logged net config inv config.capabilities w.env t' s

/-- The end of a run on a logged network, without the log. -/
def Program.Ending.forget (ending : Ending (σ × List Http.Exchange)) : Ending σ where
  exitCode := ending.exitCode
  out := ending.out
  err := ending.err
  remote := ending.remote.1

/-- To log the network changes nothing else about a run. -/
theorem Program.run_logged (net : Http.Network σ) (words : List (Option String))
    (w : Surroundings) (input : List (Option Char)) (remote : σ) (log : List Http.Exchange) :
    run net words w input remote = (run net.logged words w input (remote, log)).forget := by
  unfold run
  cases CommandLine.read words with
  | error stop => cases stop <;> rfl
  | ok line =>
    obtain ⟨hresult, hstate⟩ := line.command.executeIn_logged w net line.invocation
      { toManner := line.manner, input, faults := w.faults } (remote, log)
    have hterminal := hstate.terminal
    have hremote : _ = _ := hstate.remote
    simp only [CommandLine.executeIn, Ending.forget]
    rw [hresult, hterminal, hremote]

/-- In its surroundings a command either makes no call at all, or it is executed on the gateway
of the configuration. -/
theorem Command.executeIn_cases (cmd : Command σ) (w : Surroundings) (net : Http.Network σ)
    (inv : Invocation) (t : Terminal) (remote : σ) :
    ((cmd.executeIn w net inv t remote).2.remote = remote ∧
        (cmd.executeIn w net inv t remote).2.calls = []) ∨
      ∃ config, w.config = .ok config ∧ cmd.executeIn w net inv t remote =
        cmd.execute (Gateway.ofConfig net config) inv config.capabilities w.env t remote := by
  unfold Command.executeIn Declaration.clearArguments
  cases cmd.checkArguments inv with
  | error e => exact .inl ⟨rfl, rfl⟩
  | ok _ =>
    cases hconfig : w.config with
    | error e => exact .inl ⟨rfl, rfl⟩
    | ok config => exact .inr ⟨config, rfl, rfl⟩

end PlatformAdmin
