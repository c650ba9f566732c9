import PlatformAdmin.Proofs.Consent
import PlatformAdmin.Proofs.Resources

/-!
# What is acted on of a list

The server answers a lookup with a list of resources, and is trusted to list what was asked for:
the client takes the first resource of the list, under whatever name it is listed.  A command then
acts on this resource and on no other.  `Program.run_acts_on_first_listed` says this of the runs of
the program.
-/

set_option autoImplicit false

namespace PlatformAdmin

variable {σ : Type}

/-- A whole reply of success, whose body lists these resources. -/
def Http.Delivery.Lists {α : Type} (read : Json → Option α) (delivery : Http.Delivery)
    (listed : List α) : Prop :=
  ∃ head body, delivery = .whole head body ∧ Http.isSuccess head.status = true ∧
    (Json.ofBytes? body).bind (PlatformClient.resources? read) = some listed

namespace PlatformClient

variable {c : PlatformClient} {net : Http.Network σ} {remote : σ}

/-! ## Lookups -/

/-- A first resource is found exactly if the body lists at least one, and is the one listed
first. -/
theorem firstResource_eq_success_iff {α : Type} {read : Json → Option α} {body : List UInt8}
    {a : α} : firstResource read body = .success a ↔
      ∃ rest, (Json.ofBytes? body).bind (resources? read) = some (a :: rest) := by
  unfold firstResource
  cases (Json.ofBytes? body).bind (resources? read) with
  | none => exact ⟨nofun, nofun⟩
  | some listed =>
    cases listed with
    | nil => exact ⟨nofun, nofun⟩
    | cons first rest =>
      constructor
      · intro h
        obtain rfl := Outcome.success.inj h
        exact ⟨rest, rfl⟩
      · rintro ⟨rest', h⟩
        obtain ⟨rfl, -⟩ := List.cons.inj (Option.some.inj h)
        rfl

/-- A lookup brings the first resource of the list. -/
theorem exchange_firstResource_iff {α : Type} {request : Except PlatformError Http.Request}
    {read : Json → Option α} {a : α} :
    (exchange net request (firstResource read) remote).1.outcome = .success a ↔
      ∃ sent rest, request = .ok sent ∧ (net.deliver sent remote).1.Lists read (a :: rest) := by
  constructor
  · intro h
    obtain ⟨sent, head, body, hsent, hwhole, hsuccess, hfirst⟩ := exchange_eq_success h
    obtain ⟨rest, hlisted⟩ := firstResource_eq_success_iff.mp hfirst
    exact ⟨sent, rest, hsent, head, body, hwhole, hsuccess, hlisted⟩
  · rintro ⟨sent, rest, rfl, head, body, hwhole, hsuccess, hlisted⟩
    change (responseOf (firstResource read) (net.deliver sent remote).1).outcome = _
    rw [hwhole]
    change outcomeOf (firstResource read) head.status body = _
    rw [outcomeOf, if_pos hsuccess]
    exact firstResource_eq_success_iff.mpr ⟨rest, hlisted⟩

/-- The user found is the one listed first.  The name is that in the list, or else the one asked
for. -/
theorem findUser_eq_success_iff {username : String} {user : User} :
    (c.answer net (.findUser username) remote).1.outcome = .success user ↔
      ∃ sent first rest, c.findUserRequest net username = .ok sent ∧
        (net.deliver sent remote).1.Lists ListedUser.ofJson? (first :: rest) ∧
          user = ⟨first.guid, first.username.getD username⟩ := by
  let response := (exchange net (c.findUserRequest net username) (firstResource ListedUser.ofJson?)
    remote).1
  have hresponse : (c.answer net (.findUser username) remote).1 = response.andThen fun r =>
      .success { guid := r.guid, username := r.username.getD username } := rfl
  constructor
  · intro h
    rw [hresponse] at h
    cases houtcome : response.outcome with
    | notFound => simp [Response.andThen, Outcome.andThen, houtcome] at h
    | error e => simp [Response.andThen, Outcome.andThen, houtcome] at h
    | success first =>
      obtain ⟨sent, rest, hsent, hlists⟩ := exchange_firstResource_iff.mp houtcome
      refine ⟨sent, first, rest, hsent, hlists, ?_⟩
      simpa [Response.andThen, Outcome.andThen, houtcome] using h.symm
  · rintro ⟨sent, first, rest, hsent, hlists, rfl⟩
    have houtcome : response.outcome = .success first :=
      exchange_firstResource_iff.mpr ⟨sent, rest, hsent, hlists⟩
    rw [hresponse]
    simp [Response.andThen, Outcome.andThen, houtcome]

/-- The service broker found is the one listed first. -/
theorem findBroker_eq_success_iff {name : String} {broker : ServiceBroker} :
    (c.answer net (.findBroker name) remote).1.outcome = .success broker ↔
      ∃ sent rest, c.findBrokerRequest net name = .ok sent ∧
        (net.deliver sent remote).1.Lists brokerOfJson? (broker :: rest) :=
  exchange_firstResource_iff

/-! ## Requests -/

/-- A call that changes nothing is made by a request to get. -/
theorem method_of_not_isMutation {call : Call} {request : Http.Request}
    (hcall : call.isMutation = false) (h : c.requestFor? net call = some request) :
    request.method = .get := by
  cases call with
  | currentUser => cases h
  | findUser username => exact c.method_eq_of_request_eq_ok (eq_ok_of_toOption_eq_some h)
  | deleteUser user => cases hcall
  | findBroker name => exact c.method_eq_of_request_eq_ok (eq_ok_of_toOption_eq_some h)
  | updateBroker guid update => cases hcall

/-- A lookup and a change send two requests, of which the second is that of the change. -/
theorem log_of_change {lookup change : Call} {sent : Http.Request} {e : Http.Exchange}
    (hlookup : lookup.isMutation = false) (hsent : c.requestFor? net lookup = some sent)
    (he : e ∈ ((c.gateway net.logged).after [lookup, change] (remote, [])).2)
    (hmethod : e.1.method ≠ .get) :
    ((c.gateway net.logged).after [lookup, change] (remote, [])).2 =
        [(sent, (net.deliver sent remote).1), e] ∧
      c.requestFor? net change = some e.1 := by
  have hlog : ((c.gateway net.logged).after [lookup, change] (remote, [])).2 =
      (sent, (net.deliver sent remote).1) ::
        exchangeOn net (c.requestFor? net change) (c.answer net lookup remote).2 := by
    change (c.answer net.logged change (c.answer net.logged lookup (remote, [])).2).2.2 = _
    rw [answer_logged, answer_logged, hsent]
    rfl
  -- a lookup is a GET, so the request in question is the other one
  rw [hlog] at he ⊢
  obtain rfl | he := List.mem_cons.mp he
  · exact absurd (method_of_not_isMutation hlookup hsent) hmethod
  · cases hchange : c.requestFor? net change with
    | none =>
      rw [hchange] at he
      cases he
    | some request =>
      rw [hchange] at he
      obtain rfl := List.mem_singleton.mp he
      exact ⟨rfl, rfl⟩

end PlatformClient

/-! ## Calls -/

/-- A deletion updates no broker. -/
theorem DeleteUser.updateBroker_not_mem_calls {g : Gateway σ} {inv : Invocation}
    {caps : Capabilities} {env : Environment} {t : Terminal} {remote : σ} (guid : String)
    (update : BrokerUpdate) :
    .updateBroker guid update ∉ (command.execute g inv caps env t remote).2.calls := by
  intro h
  obtain ⟨credentials, t', -, hcalls⟩ := command.exists_run_of_mem_calls g remote h
  have hcourse := body_course g inv { terminal := t', remote }
  rw [hcalls] at h
  change .updateBroker guid update ∈ (body g inv { terminal := t', remote }).2.calls at h
  generalize (body g inv { terminal := t', remote }).1 = outcome at hcourse
  generalize (body g inv { terminal := t', remote }).2 = s at hcourse h
  cases hcourse <;> simp [lookedUp, RunState.afterCall, RunState.afterSaying] at h

/-- An update follows a lookup that found the broker. -/
theorem UpdateServiceBroker.calls_of_update {g : Gateway σ} {inv : Invocation}
    {caps : Capabilities} {env : Environment} {t : Terminal} {remote : σ} {guid : String}
    {update : BrokerUpdate}
    (h : .updateBroker guid update ∈ (command.execute g inv caps env t remote).2.calls) :
    ∃ broker, (g.answer (.findBroker (brokerName inv)) (g.answer .currentUser remote).2).1.outcome =
        .success broker ∧ broker.guid = guid ∧
      (command.execute g inv caps env t remote).2.calls =
        [.currentUser, .findBroker (brokerName inv), .updateBroker guid update] := by
  obtain ⟨credentials, t', -, hcalls⟩ := command.exists_run_of_mem_calls g remote h
  have hcourse := body_course g inv credentials { terminal := t', remote }
  rw [hcalls] at h ⊢
  obtain ⟨-, broker, -, hlookup, hguid, -, hmade⟩ := hcourse.exists_of_update h
  exact ⟨broker, hlookup, hguid, hmade⟩

/-! ## Executions and runs -/

/-- A request of a command that is no lookup follows the lookup of the entity that the invocation
names, and acts on the resource that was listed first. -/
inductive CommandName.ActsOnFirst (net : Http.Network σ) (c : PlatformClient) (inv : Invocation)
    (lookup e : Http.Exchange) : CommandName → Prop
  | deletion {first : PlatformClient.ListedUser} {rest : List PlatformClient.ListedUser}
      (asks : c.findUserRequest net (DeleteUser.username inv) = .ok lookup.1)
      (lists : lookup.2.Lists PlatformClient.ListedUser.ofJson? (first :: rest))
      (acts : c.deleteUserRequest net
        ⟨first.guid, first.username.getD (DeleteUser.username inv)⟩ = .ok e.1) :
      ActsOnFirst net c inv lookup e .deleteUser
  | update {first : ServiceBroker} {rest : List ServiceBroker} {update : BrokerUpdate}
      (asks : c.findBrokerRequest net (UpdateServiceBroker.brokerName inv) = .ok lookup.1)
      (lists : lookup.2.Lists PlatformClient.brokerOfJson? (first :: rest))
      (acts : c.updateBrokerRequest net first.guid update = .ok e.1) :
      ActsOnFirst net c inv lookup e .updateServiceBroker

variable {net : Http.Network σ} {remote : σ} {e : Http.Exchange}

/-- The deletion in the log of a lookup and a deletion is the second of them, for the first listed
user. -/
theorem PlatformClient.deletion_acts_on_first {c : PlatformClient} {inv : Invocation} {user : User}
    (hfound : ((c.gateway net.logged).answer (.findUser (DeleteUser.username inv))
      (remote, [])).1.outcome = .success user)
    (he : e ∈ ((c.gateway net.logged).after
      [.findUser (DeleteUser.username inv), .deleteUser user] (remote, [])).2)
    (hmethod : e.1.method ≠ .get) :
    ∃ lookup, ((c.gateway net.logged).after
        [.findUser (DeleteUser.username inv), .deleteUser user] (remote, [])).2 = [lookup, e] ∧
      CommandName.ActsOnFirst net c inv lookup e .deleteUser := by
  change (c.answer net.logged _ _).1.outcome = _ at hfound
  rw [answer_logged, findUser_eq_success_iff] at hfound
  obtain ⟨sent, first, rest, hsent, hlists, rfl⟩ := hfound
  have hrequest : c.requestFor? net (.findUser (DeleteUser.username inv)) = some sent := by
    rw [requestFor?, hsent]
    rfl
  obtain ⟨hlog, hacts⟩ := log_of_change rfl hrequest he hmethod
  exact ⟨_, hlog, .deletion hsent hlists (eq_ok_of_toOption_eq_some hacts)⟩

/-- The change in the log of a lookup and an update is the second of them, for the first listed
broker. -/
theorem PlatformClient.update_acts_on_first {c : PlatformClient} {inv : Invocation}
    {broker : ServiceBroker} {update : BrokerUpdate}
    (hfound : ((c.gateway net.logged).answer (.findBroker (UpdateServiceBroker.brokerName inv))
      (remote, [])).1.outcome = .success broker)
    (he : e ∈ ((c.gateway net.logged).after
      [.findBroker (UpdateServiceBroker.brokerName inv), .updateBroker broker.guid update]
      (remote, [])).2)
    (hmethod : e.1.method ≠ .get) :
    ∃ lookup, ((c.gateway net.logged).after
        [.findBroker (UpdateServiceBroker.brokerName inv), .updateBroker broker.guid update]
        (remote, [])).2 = [lookup, e] ∧
      CommandName.ActsOnFirst net c inv lookup e .updateServiceBroker := by
  change (c.answer net.logged _ _).1.outcome = _ at hfound
  rw [answer_logged, findBroker_eq_success_iff] at hfound
  obtain ⟨sent, rest, hsent, hlists⟩ := hfound
  have hrequest :
      c.requestFor? net (.findBroker (UpdateServiceBroker.brokerName inv)) = some sent := by
    rw [requestFor?, hsent]
    rfl
  obtain ⟨hlog, hacts⟩ := log_of_change rfl hrequest he hmethod
  exact ⟨_, hlog, .update hsent hlists (eq_ok_of_toOption_eq_some hacts)⟩

/-- What an execution sends besides lookups acts on the resource that was listed first. -/
theorem CommandName.acts_on_first {name : CommandName} {w : Surroundings} {inv : Invocation}
    {t : Terminal} (he : e ∈ (name.command.executeIn w net.logged inv t (remote, [])).2.remote.2)
    (hmethod : e.1.method ≠ .get) :
    ∃ c lookup, (name.command.executeIn w net.logged inv t (remote, [])).2.remote.2 = [lookup, e] ∧
      name.ActsOnFirst net c inv lookup e := by
  obtain ⟨hremote, -⟩ | ⟨config, -, hexecute⟩ :=
    name.command.executeIn_cases w net.logged inv t (remote, [])
  · rw [hremote] at he
    cases he
  · rw [hexecute, Command.execute_remote name.candid] at he ⊢
    unfold Gateway.ofConfig at he ⊢
    cases hclient : PlatformClient.ofConfig? config with
    | none =>
      rw [hclient] at he
      rw [Gateway.after_unconfigured] at he
      cases he
    | some client =>
      simp only [hclient] at he ⊢
      refine ⟨client, ?_⟩
      obtain hnil | ⟨call, hcall, hrequest⟩ := client.mem_traffic net remote [] he
      · cases hnil
      · cases call with
        | currentUser => cases hrequest
        | findUser username =>
          exact absurd (PlatformClient.method_of_not_isMutation rfl hrequest) hmethod
        | findBroker broker =>
          exact absurd (PlatformClient.method_of_not_isMutation rfl hrequest) hmethod
        | deleteUser user =>
          cases name with
          | updateServiceBroker =>
            exact absurd hcall (UpdateServiceBroker.deleteUser_not_mem_calls user)
          | deleteUser =>
            obtain ⟨-, hfound, hcalls⟩ := DeleteUser.calls_of_deletion hcall
            have hmade : (CommandName.deleteUser.command.execute (client.gateway net.logged) inv
                config.capabilities w.env t (remote, [])).2.calls = _ := hcalls
            rw [hmade] at he ⊢
            exact PlatformClient.deletion_acts_on_first hfound he hmethod
        | updateBroker guid update =>
          cases name with
          | deleteUser => exact absurd hcall (DeleteUser.updateBroker_not_mem_calls guid update)
          | updateServiceBroker =>
            obtain ⟨broker, hfound, rfl, hcalls⟩ := UpdateServiceBroker.calls_of_update hcall
            have hmade : (CommandName.updateServiceBroker.command.execute
                (client.gateway net.logged) inv config.capabilities w.env t (remote, [])).2.calls =
                  _ := hcalls
            rw [hmade] at he ⊢
            exact PlatformClient.update_acts_on_first hfound he hmethod

/-- A lookup finds the resource that the server lists first, if it lists any, whatever its name.
A run of the program that sends anything but a lookup sends it once, as its last request and after
the lookup of what the command line names, and for the resource that was listed first. -/
theorem Program.run_acts_on_first_listed (net : Http.Network σ) :
    (∀ (c : PlatformClient) (username : String) (user : User) (remote : σ),
      (c.answer net (.findUser username) remote).1.outcome = .success user ↔
        ∃ sent first rest, c.findUserRequest net username = .ok sent ∧
          (net.deliver sent remote).1.Lists PlatformClient.ListedUser.ofJson? (first :: rest) ∧
            user = ⟨first.guid, first.username.getD username⟩) ∧
      (∀ (c : PlatformClient) (name : String) (broker : ServiceBroker) (remote : σ),
        (c.answer net (.findBroker name) remote).1.outcome = .success broker ↔
          ∃ sent rest, c.findBrokerRequest net name = .ok sent ∧
            (net.deliver sent remote).1.Lists PlatformClient.brokerOfJson? (broker :: rest)) ∧
      ∀ (words : List (Option String)) (w : Surroundings) (input : List (Option Char)) (remote : σ),
        let log := (run net.logged words w input (remote, [])).remote.2
        ∀ e ∈ log, e.1.method ≠ .get →
          ∃ line c lookup, CommandLine.read words = .ok line ∧ log = [lookup, e] ∧
            line.command.ActsOnFirst net c line.invocation lookup e := by
  refine ⟨fun _ _ _ _ => PlatformClient.findUser_eq_success_iff,
    fun _ _ _ _ => PlatformClient.findBroker_eq_success_iff, ?_⟩
  intro words w input remote log e he hmethod
  change e ∈ (run net.logged words w input (remote, [])).remote.2 at he
  change ∃ line c lookup, _ ∧ (run net.logged words w input (remote, [])).remote.2 = _ ∧ _
  unfold run at he ⊢
  cases hread : CommandLine.read words with
  | error stop =>
    rw [hread] at he
    cases he
  | ok line =>
    rw [hread] at he
    obtain ⟨c, lookup, hlog, hacts⟩ := CommandName.acts_on_first he hmethod
    exact ⟨line, c, lookup, rfl, hlog, hacts⟩

/-- Of two users in the list, the first is deleted. -/
theorem Program.run_acts_on_first_listed_user :
    let ann := "\x7b\"guid\":\"g-1\",\"username\":\"ann\"\x7d"
    let other := "\x7b\"guid\":\"g-2\"\x7d"
    let listing := Text.Utf8.encode ("\x7b\"resources\":[" ++ ann ++ "," ++ other ++ "]\x7d")
    let server : Http.ScriptedServer :=
      { authority := "h", script := [{ body := listing }, { status := 204 }] }
    let w : Surroundings :=
      { env := .ofList [(Config.homeVariable, "/home/cf")]
        configFile := .file (Text.Utf8.encode "api_endpoint = \"http://h\"\naccess_token = \"t\"") }
    let words := [some "delete-user", some "-f", some "ann"]
    let log := (run (Http.Network.logged Http.ScriptedServer.network) words w []
      (server, [])).remote.2
    log.map (·.1.url.target) = ["/v3/users?usernames=ann", "/v3/users/g-1"] ∧
      ∃ line c lookup e, CommandLine.read words = .ok line ∧ log = [lookup, e] ∧
        line.command.ActsOnFirst Http.ScriptedServer.network c line.invocation lookup e := by
  intro ann other listing server w words log
  have htargets : log.map (·.1.url.target) = ["/v3/users?usernames=ann", "/v3/users/g-1"] := by
    decide +kernel
  have hmethods : log.map (·.1.method) = [.get, .delete] := by decide +kernel
  have hdelete : Http.Method.delete ∈ log.map (·.1.method) := by
    rw [hmethods]
    decide
  obtain ⟨e, he, hmethod⟩ := List.mem_map.mp hdelete
  obtain ⟨-, -, hruns⟩ := run_acts_on_first_listed Http.ScriptedServer.network
  obtain ⟨line, c, lookup, hline, hlog, hacts⟩ := hruns words w [] server e he
    (by rw [hmethod]; decide)
  exact ⟨htargets, line, c, lookup, e, hline, hlog, hacts⟩

/-- A server that lists another user before the one asked for has the other user deleted. -/
theorem Program.run_deletes_user_of_other_name :
    let bob := "\x7b\"guid\":\"g-1\",\"username\":\"bob\"\x7d"
    let ann := "\x7b\"guid\":\"g-2\",\"username\":\"ann\"\x7d"
    let listing := Text.Utf8.encode ("\x7b\"resources\":[" ++ bob ++ "," ++ ann ++ "]\x7d")
    let server : Http.ScriptedServer :=
      { authority := "h", script := [{ body := listing }, { status := 204 }] }
    let c := PlatformClient.ofSession "http://h" "t" none false
    let w : Surroundings :=
      { env := .ofList [(Config.homeVariable, "/home/cf")]
        configFile := .file (Text.Utf8.encode "api_endpoint = \"http://h\"\naccess_token = \"t\"") }
    let words := [some "delete-user", some "-f", some "ann"]
    (c.answer Http.ScriptedServer.network (.findUser "ann") server).1.outcome =
        .success ⟨"g-1", "bob"⟩ ∧
      (run (Http.Network.logged Http.ScriptedServer.network) words w [] (server, [])).remote.2.map
        (fun e => (e.1.method, e.1.url.target)) =
          [(.get, "/v3/users?usernames=ann"), (.delete, "/v3/users/g-1")] := by
  decide +kernel

end PlatformAdmin
