import Mathlib.Data.List.TakeWhile
import PlatformAdmin.Http.ScriptedServer
import PlatformAdmin.Proofs.FlagWords
import PlatformAdmin.Proofs.Traffic
import PlatformAdmin.Proofs.Trimming

/-!
# No deletion without consent

A user is deleted only if the command line forces it or the user said yes.  The way there leads
through the whole program: the words of the command line give the flag and the manner of the
terminal, the gates ask unless the flag is there, the body deletes what it found, and the client
turns that into requests.  For each of these stages there is a lemma about the stage alone, and
`Program.run_deletes_with_consent` puts them together for the words and the input that the
program is run on.
-/

set_option autoImplicit false

namespace PlatformAdmin

variable {σ : Type}

/-! ## Answers -/

namespace Terminal

/-- The first line is `y` or `yes` in any case, with blanks around it. -/
def SaysYes (input : List (Option Char)) : Prop :=
  ∃ line word, Text.Utf8.text? (splitLine input).1 = some line ∧ word ∈ ["y", "yes"] ∧
    Text.equalsIgnoringCase (Text.trim line) word = true

/-- The first line is blank, as it is at the end of input, or it is no text. -/
def SaysNothing (input : List (Option Char)) : Prop :=
  Text.Utf8.text? (splitLine input).1 = none ∨
    ∃ line, Text.Utf8.text? (splitLine input).1 = some line ∧
      ∀ c ∈ line.toList, Text.isBlank c = true

variable {t : Terminal} {input : List (Option Char)}

/-- Where a question hears a yes, the first line of the input says it. -/
theorem Hears.saysYes {answer : String} (h : t.Hears answer) (hyes : meansYes answer = true) :
    SaysYes t.input := by
  obtain ⟨line, hline, rfl⟩ := h.heard
  rw [meansYes, Text.trim_stripReturns, Bool.or_eq_true] at hyes
  obtain hy | hyes := hyes
  · exact ⟨line, "y", hline, by simp, hy⟩
  · exact ⟨line, "yes", hline, by simp, hyes⟩

/-- A line that says yes is neither blank nor without text. -/
theorem SaysYes.not_saysNothing (h : SaysYes input) : ¬SaysNothing input := by
  obtain ⟨line, word, hline, hword, hyes⟩ := h
  rintro (hnone | ⟨line', hline', hblank⟩)
  · rw [hline] at hnone
    cases hnone
  · rw [hline, Option.some.injEq] at hline'
    rw [hline', Text.trim_eq_empty_iff.mpr hblank] at hyes
    obtain rfl | rfl : word = "y" ∨ word = "yes" := by simpa using hword
    · exact absurd hyes (by decide)
    · exact absurd hyes (by decide)

end Terminal

/-! ## Calls -/

/-- A deletion was forced or agreed to, and follows a lookup that found this user. -/
theorem DeleteUser.calls_of_deletion {g : Gateway σ} {inv : Invocation} {caps : Capabilities}
    {env : Environment} {t : Terminal} {remote : σ} {user : User}
    (h : .deleteUser user ∈ (command.execute g inv caps env t remote).2.calls) :
    (inv.flags.get "f" = true ∨ ∃ answer, t.Hears answer ∧ Terminal.meansYes answer = true) ∧
      (g.answer (.findUser (username inv)) remote).1.outcome = .success user ∧
      (command.execute g inv caps env t remote).2.calls =
        [.findUser (username inv), .deleteUser user] := by
  obtain ⟨credentials, t', hclear, hcalls⟩ := command.exists_run_of_mem_calls g remote h
  -- a call means that the gates were passed, and the command does declare a question
  obtain ⟨-, t₁, hagrees, -⟩ := Declaration.clear_eq_ok_iff.mp hclear
  have hconsent : inv.flags.get "f" = true ∨
      ∃ answer, t.Hears answer ∧ Terminal.meansYes answer = true := by
    cases hagrees with
    | unasked hnone => cases hnone
    | forced hflag => exact .inl hflag
    | answered _ _ hheard hyes => exact .inr ⟨_, hheard, hyes⟩
  refine ⟨hconsent, ?_⟩
  have hcourse := body_course g inv { terminal := t', remote }
  rw [hcalls] at h ⊢
  change .deleteUser user ∈ (body g inv { terminal := t', remote }).2.calls at h
  change _ ∧ (body g inv { terminal := t', remote }).2.calls = _
  generalize (body g inv { terminal := t', remote }).1 = outcome at hcourse
  generalize (body g inv { terminal := t', remote }).2 = s at hcourse h
  cases hcourse with
  | lookupFailed _ => simp [lookedUp, RunState.afterCall, RunState.afterSaying] at h
  | absent _ => simp [lookedUp, RunState.afterCall, RunState.afterSaying] at h
  | @attempted found _ hfound _ =>
    obtain rfl : user = found := by
      simpa [lookedUp, RunState.afterCall, RunState.afterSaying] using h
    exact ⟨hfound, rfl⟩

/-- The update of a broker deletes no user. -/
theorem UpdateServiceBroker.deleteUser_not_mem_calls {g : Gateway σ} {inv : Invocation}
    {caps : Capabilities} {env : Environment} {t : Terminal} {remote : σ} (user : User) :
    .deleteUser user ∉ (command.execute g inv caps env t remote).2.calls := by
  intro h
  obtain ⟨credentials, t', -, hcalls⟩ := command.exists_run_of_mem_calls g remote h
  have hcourse := body_course g inv credentials { terminal := t', remote }
  rw [hcalls] at h
  change .deleteUser user ∈ (body g inv credentials { terminal := t', remote }).2.calls at h
  generalize (body g inv credentials { terminal := t', remote }).1 = outcome at hcourse
  generalize (body g inv credentials { terminal := t', remote }).2 = s at hcourse h
  cases hcourse <;> simp [lookedUp, identified, RunState.afterCall, RunState.afterSaying] at h

/-! ## Requests -/

/-- A whole reply that lists a user with this identifier first. -/
def Http.Delivery.Finds (delivery : Http.Delivery) (guid : String) : Prop :=
  ∃ head body found, delivery = .whole head body ∧ Http.isSuccess head.status = true ∧
    PlatformClient.firstResource PlatformClient.ListedUser.ofJson? body = .success found ∧
    found.guid = guid

namespace PlatformClient

variable {c : PlatformClient} {net : Http.Network σ} {remote : σ}

/-- A call succeeds only with a whole reply of success whose body can be read. -/
theorem exchange_eq_success {α : Type} {request : Except PlatformError Http.Request}
    {read : List UInt8 → Outcome α} {a : α}
    (h : (exchange net request read remote).1.outcome = .success a) :
    ∃ sent head body, request = .ok sent ∧ (net.deliver sent remote).1 = .whole head body ∧
      Http.isSuccess head.status = true ∧ read body = .success a := by
  cases request with
  | error e => cases h
  | ok sent =>
    change (responseOf read (net.deliver sent remote).1).outcome = .success a at h
    cases hd : (net.deliver sent remote).1 with
    | lost =>
      rw [hd] at h
      cases h
    | brokenOff head =>
      rw [hd] at h
      cases h
    | whole head body =>
      rw [hd] at h
      change outcomeOf read head.status body = .success a at h
      unfold outcomeOf at h
      split_ifs at h with hsuccess
      exact ⟨sent, head, body, rfl, hd, hsuccess, h⟩

/-- A user is found only by a request that was made and a reply that finds the user. -/
theorem findUser_eq_success {username : String} {user : User}
    (h : (c.answer net (.findUser username) remote).1.outcome = .success user) :
    ∃ sent, c.findUserRequest net username = .ok sent ∧
      (net.deliver sent remote).1.Finds user.guid := by
  change ((exchange net (c.findUserRequest net username) (firstResource ListedUser.ofJson?)
    remote).1.andThen _).outcome = .success user at h
  cases ho : (exchange net (c.findUserRequest net username) (firstResource ListedUser.ofJson?)
      remote).1.outcome with
  | notFound => simp [Response.andThen, Outcome.andThen, ho] at h
  | error e => simp [Response.andThen, Outcome.andThen, ho] at h
  | success found =>
    obtain ⟨sent, head, body, hsent, hwhole, hsuccess, hfound⟩ := exchange_eq_success ho
    obtain rfl : _ = user := by simpa [Response.andThen, Outcome.andThen, ho] using h
    exact ⟨sent, hsent, head, body, found, hwhole, hsuccess, hfound, rfl⟩

/-- The log of two exchanges, of which the second deletes the user that the first has found. -/
structure DeletesFound (net : Http.Network σ) (log : List Http.Exchange)
    (lookup deletion : Http.Exchange) : Prop where
  log_eq : log = [lookup, deletion]
  lookup_method : lookup.1.method = .get
  requests : ∃ (c : PlatformClient) (username : String) (user : User),
    c.findUserRequest net username = .ok lookup.1 ∧ lookup.2.Finds user.guid ∧
      c.deleteUserRequest net user = .ok deletion.1

/-- A deletion in the log of a lookup and a deletion is the second of them, and follows the
first. -/
theorem deletesFound_of_calls {username : String} {user : User} {e : Http.Exchange}
    (hfound : (c.answer net.logged (.findUser username) (remote, [])).1.outcome = .success user)
    (he : e ∈ ((c.gateway net.logged).after [.findUser username, .deleteUser user]
      (remote, [])).2)
    (hmethod : e.1.method = .delete) :
    ∃ lookup, DeletesFound net ((c.gateway net.logged).after [.findUser username, .deleteUser user]
      (remote, [])).2 lookup e := by
  rw [answer_logged] at hfound
  obtain ⟨sent, hsent, hfinds⟩ := findUser_eq_success hfound
  have hget : sent.method = .get := c.method_eq_of_request_eq_ok hsent
  have hrequest : c.requestFor? net (.findUser username) = some sent := by
    rw [requestFor?, hsent]
    rfl
  have hlog : ((c.gateway net.logged).after [.findUser username, .deleteUser user]
      (remote, [])).2 = (sent, (net.deliver sent remote).1) ::
        exchangeOn net (c.deleteUserRequest net user).toOption
          (c.answer net (.findUser username) remote).2 := by
    change (c.answer net.logged (.deleteUser user)
      (c.answer net.logged (.findUser username) (remote, [])).2).2.2 = _
    rw [answer_logged, answer_logged, hrequest]
    rfl
  rw [hlog] at he ⊢
  obtain rfl | he := List.mem_cons.mp he
  · rw [hget] at hmethod
    cases hmethod
  · cases hdelete : c.deleteUserRequest net user with
    | error e' =>
      rw [hdelete] at he
      cases he
    | ok request =>
      rw [hdelete] at he
      obtain rfl := List.mem_singleton.mp he
      exact ⟨_, rfl, hget, c, username, user, hsent, hfinds, hdelete⟩

end PlatformClient

/-! ## Executions and runs -/

/-- Of the two commands only the deletion of a user sends a request to delete, and it has
consent. -/
theorem CommandName.consent_of_deletion {name : CommandName} {w : Surroundings}
    {net : Http.Network σ} {inv : Invocation} {t : Terminal} {remote : σ} {e : Http.Exchange}
    (he : e ∈ (name.command.executeIn w net.logged inv t (remote, [])).2.remote.2)
    (hmethod : e.1.method = .delete) :
    name = .deleteUser ∧
      (inv.flags.get "f" = true ∨ ∃ answer, t.Hears answer ∧ Terminal.meansYes answer = true) ∧
      ∃ lookup, PlatformClient.DeletesFound net
        (name.command.executeIn w net.logged inv t (remote, [])).2.remote.2 lookup e := by
  obtain ⟨hremote, -⟩ | ⟨config, -, hexecute⟩ :=
    name.command.executeIn_cases w net.logged inv t (remote, [])
  · rw [hremote] at he
    cases he
  · rw [hexecute, Command.execute_remote name.candid] at he ⊢
    unfold Gateway.ofConfig at he ⊢
    cases hclient : PlatformClient.ofConfig? config with
    | none =>
      rw [hclient] at he
      rw [Gateway.after_unconfigured] at he
      cases he
    | some client =>
      simp only [hclient] at he ⊢
      -- the log is made of the exchanges of the calls, so one of them is the deletion
      obtain hnil | ⟨call, hcall, hrequest⟩ := client.mem_traffic net remote [] he
      · cases hnil
      · obtain ⟨user, rfl⟩ := client.exists_deleteUser_of_requestFor? net hrequest hmethod
        cases name with
        | updateServiceBroker =>
          exact absurd hcall (UpdateServiceBroker.deleteUser_not_mem_calls user)
        | deleteUser =>
          obtain ⟨hconsent, hfound, hcalls⟩ := DeleteUser.calls_of_deletion hcall
          refine ⟨rfl, hconsent, ?_⟩
          change e ∈ ((client.gateway net.logged).after
            (DeleteUser.command.execute (client.gateway net.logged) inv config.capabilities w.env t
              (remote, [])).2.calls (remote, [])).2 at he
          change ∃ lookup, PlatformClient.DeletesFound net ((client.gateway net.logged).after
            (DeleteUser.command.execute (client.gateway net.logged) inv config.capabilities w.env t
              (remote, [])).2.calls (remote, [])).2 lookup e
          rw [hcalls] at he ⊢
          exact PlatformClient.deletesFound_of_calls hfound he hmethod

/-- What it takes to be asked and to say yes: the words leave the terminal interactive, the
input can be read, and its first line says yes. -/
structure Program.SaysYesTo (words : List (Option String)) (w : Surroundings)
    (input : List (Option Char)) : Prop where
  interactive : some "--no-interactive" ∉ words.takeWhile (· ≠ some "--")
  readable : w.faults.read = none
  yes : Terminal.SaysYes input

/-- The flag of an invocation is the one that the command line gives. -/
theorem CommandLine.get_force_invocation {line : CommandLine} (h : line.command = .deleteUser) :
    line.invocation.flags.get "f" = line.force := by
  simp only [invocation, h, Flags.get_set]
  rfl

/-- A run of the program that sends a request to delete has consent, and found the user before. -/
theorem Program.consent_of_deletion {net : Http.Network σ} {words : List (Option String)}
    {w : Surroundings} {input : List (Option Char)} {remote : σ} {e : Http.Exchange}
    (he : e ∈ (run net.logged words w input (remote, [])).remote.2)
    (hmethod : e.1.method = .delete) :
    (CommandLine.IsForcedBy words ∨ SaysYesTo words w input) ∧
      ∃ lookup, PlatformClient.DeletesFound net
        (run net.logged words w input (remote, [])).remote.2 lookup e := by
  unfold run at he ⊢
  cases hread : CommandLine.read words with
  | error stop =>
    rw [hread] at he
    cases he
  | ok line =>
    rw [hread] at he
    have hline : CommandLine.Line [] words line := CommandLine.readFrom_eq_ok_iff.mp hread
    obtain ⟨hcommand, hconsent, hdeletes⟩ := CommandName.consent_of_deletion he hmethod
    refine ⟨?_, hdeletes⟩
    obtain hflag | ⟨answer, hheard, hyes⟩ := hconsent
    · rw [CommandLine.get_force_invocation hcommand] at hflag
      exact .inl (hline.isForcedBy List.not_mem_nil hcommand hflag)
    · refine .inr ⟨fun hword => ?_, hheard.readable, hheard.saysYes hyes⟩
      have hquiet : line.noInteractive = true := hline.noInteractive_of_mem hcommand hword
      have hallowed : (!line.noInteractive) = true := hheard.allowed
      rw [hquiet] at hallowed
      cases hallowed

/-- A run of the program that sends a request to delete does so once, as its last request and
after the lookup that found the user, and only if the words force it or the user said yes.
Without such a word, an input that says nothing or cannot be read keeps the user from being
deleted.  To log the network changes nothing else about the run. -/
theorem Program.run_deletes_with_consent (net : Http.Network σ) (words : List (Option String))
    (w : Surroundings) (input : List (Option Char)) (remote : σ) :
    let ending := run net.logged words w input (remote, [])
    let log := ending.remote.2
    run net words w input remote = ending.forget ∧
      (∀ e ∈ log, e.1.method = .delete →
        (CommandLine.IsForcedBy words ∨ SaysYesTo words w input) ∧
          ∃ lookup, PlatformClient.DeletesFound net log lookup e) ∧
      (¬CommandLine.IsForcedBy words →
        Terminal.SaysNothing input ∨ w.faults.read ≠ none → ∀ e ∈ log, e.1.method ≠ .delete) := by
  intro ending log
  refine ⟨run_logged net words w input remote [], ?_, ?_⟩
  · exact fun e he hmethod => consent_of_deletion he hmethod
  · intro hforced hsilent e he hmethod
    obtain ⟨hconsent, -⟩ := consent_of_deletion he hmethod
    obtain hforces | hyes := hconsent
    · exact hforced hforces
    · obtain hnothing | hbroken := hsilent
      · exact hyes.yes.not_saysNothing hnothing
      · exact hbroken hyes.readable

/-- A user is deleted from a scripted server after a yes. -/
theorem Program.run_deletes_with_consent_answered :
    let server : Http.ScriptedServer :=
      { authority := "h"
        script := [{ body := Text.Utf8.encode "\x7b\"resources\":[\x7b\"guid\":\"g\"\x7d]\x7d" },
          { status := 204 }] }
    let w : Surroundings :=
      { env := .ofList [(Config.homeVariable, "/home/cf")]
        configFile := .file (Text.Utf8.encode "api_endpoint = \"http://h\"\naccess_token = \"t\"") }
    let words := [some "delete-user", some "ann"]
    let input := " Yes\r\n".toList.map some
    let log := (run (Http.Network.logged Http.ScriptedServer.network) words w input
      (server, [])).remote.2
    log.map (·.1.method) = [.get, .delete] ∧ ¬CommandLine.IsForcedBy words ∧
      SaysYesTo words w input := by
  intro server w words input log
  have hmethods : log.map (·.1.method) = [.get, .delete] := by decide +kernel
  have hforced : ¬CommandLine.IsForcedBy words := by
    rintro ⟨before, between, word, letters, after, hwords, -, hword, -⟩
    have hmem : some word ∈ words := by
      rw [hwords]
      simp
    obtain rfl | rfl : word = "delete-user" ∨ word = "ann" := by simpa [words] using hmem
    · exact absurd hword (by simp)
    · exact absurd hword (by simp)
  obtain ⟨-, hdeletes, -⟩ := run_deletes_with_consent Http.ScriptedServer.network words w input
    server
  have hdelete : Http.Method.delete ∈ log.map (·.1.method) := by
    rw [hmethods]
    decide
  obtain ⟨e, he, hmethod⟩ := List.mem_map.mp hdelete
  obtain ⟨hconsent, -⟩ := hdeletes e he hmethod
  exact ⟨hmethods, hforced, hconsent.resolve_left hforced⟩

end PlatformAdmin
