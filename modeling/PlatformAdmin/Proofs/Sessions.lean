import PlatformAdmin.Proofs.Agreement
import PlatformAdmin.Proofs.Consent
import PlatformAdmin.Proofs.Surroundings

/-!
# Sessions

A configuration is read in two ways: its capabilities say what the gates let through, and the
gateway that it leads to says what can be reached.  Both depend on the token, and
`Config.session_decides` says that they agree about it.  A token counts as a session if it has a
character that is not blank; without one the gates stop every command and the gateway reaches
nothing, and with one the gateway reaches the platform as soon as an endpoint is named.

The consequences are about whole runs.  Without a session a run ends at the gates, so that the
missing endpoint is never what it reports; without an endpoint it ends at its first call; and a
request is sent only where there are both.
-/

set_option autoImplicit false

namespace PlatformAdmin

variable {σ : Type}

/-! ## Tokens -/

/-- There is a token, and a character in it that is not blank. -/
def Config.HoldsSession (config : Config) : Prop :=
  ∃ token, config.accessToken = some token ∧ ∃ c ∈ token.toList, Text.isBlank c = false

namespace Config

variable {config : Config}

/-- A configuration has a session exactly if its token has a character that is not blank. -/
theorem hasSession_iff : config.hasSession = true ↔ config.HoldsSession := by
  unfold hasSession HoldsSession
  cases config.accessToken with
  | none => simp
  | some token =>
    have hvisible : Text.trim token ≠ "" ↔ ∃ c ∈ token.toList, Text.isBlank c = false := by
      rw [Ne, Text.trim_eq_empty_iff]
      simp
    simpa using hvisible

/-- A user is logged in exactly if there is a session. -/
theorem loggedIn_mem_capabilities_iff :
    Capability.loggedIn ∈ config.capabilities ↔ config.HoldsSession :=
  hasSession_iff

/-- A client is made exactly if there are a session and an endpoint. -/
theorem exists_ofConfig?_iff :
    (∃ client, PlatformClient.ofConfig? config = some client) ↔
      config.HoldsSession ∧ config.apiEndpoint ≠ none := by
  rw [← hasSession_iff]
  unfold PlatformClient.ofConfig?
  cases config.apiEndpoint with
  | none => simp
  | some endpoint =>
    cases htoken : config.accessToken with
    | none => simp [hasSession, htoken]
    | some token => simp

end Config

/-! ## The gateway -/

namespace Gateway

variable {config : Config} (net : Http.Network σ)

/-- Without a session or an endpoint nothing can be reached. -/
theorem ofConfig_eq_unconfigured (h : ¬(config.HoldsSession ∧ config.apiEndpoint ≠ none)) :
    ofConfig net config = unconfigured := by
  unfold ofConfig
  cases hclient : PlatformClient.ofConfig? config with
  | none => rfl
  | some client => exact absurd (Config.exists_ofConfig?_iff.mp ⟨client, hclient⟩) h

/-- The gateway is that of a client exactly if there are a session and an endpoint. -/
theorem exists_ofConfig_eq_iff :
    (∃ client : PlatformClient, ofConfig net config = client.gateway net) ↔
      config.HoldsSession ∧ config.apiEndpoint ≠ none := by
  constructor
  · rintro ⟨client, hclient⟩
    by_cases h : config.HoldsSession ∧ config.apiEndpoint ≠ none
    · exact h
    · -- the two gateways differ in their names
      rw [ofConfig_eq_unconfigured net h] at hclient
      have hname : "unconfigured" = "cloud-controller" := congrArg Gateway.name hclient
      exact absurd hname (by decide)
  · intro h
    obtain ⟨client, hclient⟩ := Config.exists_ofConfig?_iff.mpr h
    exact ⟨client, by rw [ofConfig, hclient]⟩

end Gateway

/-! ## Executions without a session or without an endpoint -/

/-- The scope of every command asks for a session, before anything else. -/
theorem Declaration.clear_of_not_loggedIn {d : Declaration} {inv : Invocation}
    {caps : Capabilities} (harguments : d.checkArguments inv = .ok ())
    (h : Capability.loggedIn ∉ caps) (env : Environment) (t : Terminal) :
    d.clear inv caps env t = (.error (.failed (.lacking .loggedIn)), t) := by
  have hmissing : caps.FirstMissing (Capability.all.filter d.scope.asksFor) .loggedIn :=
    ⟨h, [], _, rfl, nofun⟩
  have hsession : d.clearSession caps = .error .loggedIn :=
    clearSession_eq_error_iff.mpr (.inl hmissing)
  simp only [clear, clearArguments, harguments, hsession]

namespace CommandName

variable (name : CommandName) {inv : Invocation} {caps : Capabilities} {env : Environment}
  {t t' : Terminal} (remote : σ)

/-- Both commands call the platform first, and fail with what it answers. -/
theorem run_unconfigured {credentials : Credentials}
    (h : name.declaration.Admits inv caps env t credentials t') (s : RunState σ) :
    (name.command.run .unconfigured inv credentials s).1 = .error (.platform .noEndpoint) := by
  cases name with
  | deleteUser =>
    have hcourse : ∀ {outcome} {s' : RunState σ},
        DeleteUser.Course .unconfigured inv s outcome s' →
          outcome = .error (.platform .noEndpoint) := by
      intro outcome s' hcourse
      cases hcourse with
      | lookupFailed hlookup =>
        cases hlookup
        rfl
      | absent hlookup => cases hlookup
      | attempted hlookup _ => cases hlookup
    exact hcourse (DeleteUser.body_course _ _ _)
  | updateServiceBroker =>
    obtain ⟨password, hpassword⟩ := UpdateServiceBroker.exists_password_of_admits h
    have hcourse : ∀ {outcome} {s' : RunState σ},
        UpdateServiceBroker.Course .unconfigured inv credentials s outcome s' →
          outcome = .error (.platform .noEndpoint) := by
      intro outcome s' hcourse
      cases hcourse with
      | noPassword hnone =>
        rw [hpassword] at hnone
        cases hnone
      | userFailed _ hcurrent =>
        cases hcurrent
        rfl
      | lookupFailed _ hcurrent _ => cases hcurrent
      | absent _ hcurrent _ => cases hcurrent
      | attempted _ hcurrent _ _ => cases hcurrent
    exact hcourse (UpdateServiceBroker.body_course _ _ _ _)

/-- Where nothing can be reached, an execution that is admitted fails for the endpoint. -/
theorem execute_unconfigured {credentials : Credentials}
    (h : name.declaration.Admits inv caps env t credentials t') :
    (name.command.execute .unconfigured inv caps env t remote).1 =
      .failed (.platform .noEndpoint) := by
  rw [name.execute_of_admits _ _ h, Command.concluded_fst, name.run_unconfigured h]
  rfl

/-- Where nothing can be reached, the remote side is left alone. -/
theorem execute_unconfigured_remote (inv : Invocation) (caps : Capabilities) (env : Environment)
    (t : Terminal) :
    (name.command.execute .unconfigured inv caps env t remote).2.remote = remote := by
  rw [Command.execute_remote name.candid, Gateway.after_unconfigured]

/-- Without a session nothing is asked, and nothing but its absence is reported. -/
theorem execute_of_not_loggedIn (g : Gateway σ)
    (harguments : name.declaration.checkArguments inv = .ok ())
    (h : Capability.loggedIn ∉ caps) (env : Environment) (t : Terminal) :
    name.command.execute g inv caps env t remote =
      (.failed (.lacking .loggedIn),
        { terminal := t.failed Capability.loggedIn.absence, remote }) :=
  name.execute_of_clear_eq_error g remote (Declaration.clear_of_not_loggedIn harguments h env t)

end CommandName

/-- The capabilities and the gateway of a configuration agree about its session.  Where a command
line with a right number of arguments is executed on it, a missing session is all that is reported;
a missing endpoint is reported by every run that passes the gates; and nothing is sent unless both
are there. -/
theorem Config.session_decides (config : Config) (net : Http.Network σ) :
    (Capability.loggedIn ∈ config.capabilities ↔ config.HoldsSession) ∧
    ((∃ client : PlatformClient, Gateway.ofConfig net config = client.gateway net) ↔
      config.HoldsSession ∧ config.apiEndpoint ≠ none) ∧
    ∀ (line : CommandLine) (w : Surroundings) (input : List (Option Char)) (remote : σ),
      line.args.length ∈ line.command.argumentCounts → w.config = .ok config →
        let t := line.terminal w.faults input
        let ending := line.executeIn w net.logged input (remote, [])
        (¬config.HoldsSession →
          ending.1 = .failed (.lacking .loggedIn) ∧
          ending.2.OnlyReports t (remote, [])
            ("FAILED" ++ "\n" ++ (Capability.loggedIn.absence ++ "\n"))) ∧
        (config.HoldsSession → config.apiEndpoint = none →
          (∃ credentials t', line.command.declaration.Admits line.invocation config.capabilities
            w.env t credentials t') →
          ending.1 = .failed (.platform .noEndpoint) ∧ ending.2.remote = (remote, [])) ∧
        (ending.2.remote.2 ≠ [] → config.HoldsSession ∧ config.apiEndpoint ≠ none) := by
  refine ⟨loggedIn_mem_capabilities_iff, Gateway.exists_ofConfig_eq_iff net, ?_⟩
  intro line w input remote hcount hconfig t ending
  have hending : ending = line.command.command.execute (Gateway.ofConfig net.logged config)
      line.invocation config.capabilities w.env t (remote, []) :=
    CommandLine.executeIn_of_config_eq_ok net.logged input (remote, []) hcount hconfig
  have hunsent : ¬(config.HoldsSession ∧ config.apiEndpoint ≠ none) →
      ending.2.remote = (remote, []) := by
    intro h
    rw [hending, Gateway.ofConfig_eq_unconfigured _ h]
    exact line.command.execute_unconfigured_remote _ _ _ _ _
  refine ⟨fun hnone => ?_, fun _ hendpoint hadmits => ?_, fun hsent => ?_⟩
  · have harguments := CommandLine.checkArguments_of_mem hcount
    rw [hending, line.command.execute_of_not_loggedIn _ _ harguments
      (fun hmem => hnone (loggedIn_mem_capabilities_iff.mp hmem))]
    exact ⟨rfl, RunState.onlyReports_warn t _ _ _⟩
  · have hneither : ¬(config.HoldsSession ∧ config.apiEndpoint ≠ none) := fun h => h.2 hendpoint
    obtain ⟨credentials, t', hadmits⟩ := hadmits
    refine ⟨?_, hunsent hneither⟩
    rw [hending, Gateway.ofConfig_eq_unconfigured _ hneither]
    exact line.command.execute_unconfigured _ hadmits
  · by_cases h : config.HoldsSession ∧ config.apiEndpoint ≠ none
    · exact h
    · exact absurd (congrArg Prod.snd (hunsent h)) hsent

/-- A forced deletion with a blank token, with a token alone, and with a token and an endpoint. -/
theorem Config.session_decides_deletion :
    let line : CommandLine := { command := .deleteUser, args := ["ann"], force := true }
    let w := fun text => ({
      env := .ofList [(homeVariable, "/home/cf")]
      configFile := .file (Text.Utf8.encode text) } : Surroundings)
    let blank : Config := { apiEndpoint := some "http://h", accessToken := some " \t" }
    let bare : Config := { accessToken := some "t" }
    let full : Config := { apiEndpoint := some "http://h", accessToken := some "t" }
    let platform := "api_endpoint = \"http://h\"\n"
    let blanks := "access_token = \" \\t\""
    let session := "access_token = \"t\""
    let net : Http.Network Unit := .down
    let ending := fun text => line.executeIn (w text) net.logged [] ((), [])
    line.args.length ∈ line.command.argumentCounts ∧
      ((w (platform ++ blanks)).config = .ok blank ∧ ¬blank.HoldsSession ∧
        (ending (platform ++ blanks)).1 = .failed (.lacking .loggedIn)) ∧
      ((w session).config = .ok bare ∧ bare.HoldsSession ∧
        (ending session).1 = .failed (.platform .noEndpoint)) ∧
      (w (platform ++ session)).config = .ok full ∧
        (ending (platform ++ session)).2.remote.2 ≠ [] ∧ full.HoldsSession := by
  intro line w blank bare full platform blanks session net ending
  have hcount : line.args.length ∈ line.command.argumentCounts := by decide
  have hblank : (w (platform ++ blanks)).config = .ok blank := by decide +kernel
  have hbare : (w session).config = .ok bare := by decide +kernel
  have hfull : (w (platform ++ session)).config = .ok full := by decide +kernel
  have hnone : ¬blank.HoldsSession := by
    rw [← hasSession_iff]
    decide
  have hsession : bare.HoldsSession := hasSession_iff.mp (by decide)
  have hadmits : ∃ credentials t', line.command.declaration.Admits line.invocation
      bare.capabilities (w "").env (line.terminal {} []) credentials t' :=
    ⟨_, _, Declaration.clear_eq_ok_iff.mp rfl⟩
  have hsent : (ending (platform ++ session)).2.remote.2 ≠ [] := by decide +kernel
  obtain ⟨-, -, hruns⟩ := session_decides blank net
  obtain ⟨-, -, hruns'⟩ := session_decides bare net
  obtain ⟨-, -, hruns''⟩ := session_decides full net
  refine ⟨hcount, ⟨hblank, hnone, ?_⟩, ⟨hbare, hsession, ?_⟩, hfull, hsent, ?_⟩
  · exact ((hruns line (w (platform ++ blanks)) [] () hcount hblank).1 hnone).1
  · exact ((hruns' line (w session) [] () hcount hbare).2.1 hsession rfl hadmits).1
  · obtain ⟨-, -, hsends⟩ := hruns'' line (w (platform ++ session)) [] () hcount hfull
    dsimp only [ending] at hsent
    exact (hsends hsent).1

end PlatformAdmin
