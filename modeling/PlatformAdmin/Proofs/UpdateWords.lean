import PlatformAdmin.Proofs.Agreement

/-!
# The words of an update

The words that `update-service-broker` is given are read twice: once to declare the secret that is
needed, before the gates, and once to send the update.  `UpdateServiceBroker.Form` says in which
forms they may come and where the URL and the password then stand.  An update that is sent follows
the one form of its words in both readings, so no word counts twice, and the password that was
declared is there when it is needed.
-/

set_option autoImplicit false

namespace PlatformAdmin.UpdateServiceBroker

/-- The forms that the words may have, with the place of the URL, and that of the password if there
is one.  Places are counted from zero. -/
inductive Form : List String → Nat → Option Nat → Prop
  | long {name username password url : String} (given : url ≠ "") :
      Form [name, username, password, url] 3 (some 2)
  | short {name username url : String} : Form [name, username, url] 2 none
  | shortened {name username url : String} : Form [name, username, url, ""] 2 none

/-- The password as it is needed, if it may stand in a place among the words. -/
def neededAt (words : List String) (place : Option Nat) : NeededSecret :=
  { neededPassword with argument := place.bind fun i => words[i]? }

variable {words : List String} {urlAt : Nat} {passwordAt : Option Nat}

/-- The password and the address stand in two places. -/
theorem Form.places_ne (h : Form words urlAt passwordAt) : passwordAt ≠ some urlAt := by
  cases h <;> decide

/-- Three or four words have a form. -/
theorem exists_form (h : words.length ∈ [3, 4]) :
    ∃ urlAt passwordAt, Form words urlAt passwordAt := by
  match words, h with
  | [_, _, _], _ => exact ⟨2, none, .short⟩
  | [_, _, _, url], _ =>
    by_cases hurl : url = ""
    · subst hurl
      exact ⟨2, none, .shortened⟩
    · exact ⟨3, some 2, .long hurl⟩

/-- Both readings of the words go by their form. -/
theorem Form.arguments {inv : Invocation} (h : Form inv.args urlAt passwordAt) :
    inv.args[1]? = some (Arguments.ofInvocation inv).username ∧
      inv.args[urlAt]? = some (Arguments.ofInvocation inv).url ∧
      (passwordAt.bind fun i => inv.args[i]?) = (Arguments.ofInvocation inv).password := by
  obtain ⟨args, flags⟩ := inv
  cases h with
  | long given =>
    simp [Arguments.ofInvocation, Invocation.size, Invocation.arg, Invocation.arg?, given]
  | short => simp [Arguments.ofInvocation, Invocation.size, Invocation.arg, Invocation.arg?]
  | shortened => simp [Arguments.ofInvocation, Invocation.size, Invocation.arg, Invocation.arg?]

variable {σ : Type}

/-- No execution lacks the password when it is needed. -/
theorem execute_ne_missingCredential (g : Gateway σ) (inv : Invocation) (caps : Capabilities)
    (env : Environment) (t : Terminal) (remote : σ) (name : String) :
    (command.execute g inv caps env t remote).1 ≠ .failed (.missingCredential name) := by
  intro hresult
  cases hclear : declaration.clear inv caps env t with
  | mk answer t' =>
    cases answer with
    | error stop =>
      have hstops : declaration.Stops inv caps env t stop.result :=
        Declaration.stops_of_clear_eq_error (by rw [hclear])
      rw [command.execute_of_clear_eq_error g remote hclear] at hresult
      change stop.result = _ at hresult
      rw [hresult] at hstops
      cases hstops
    | ok credentials =>
      obtain ⟨password, hpassword⟩ :=
        exists_password_of_admits (Declaration.clear_eq_ok_iff.mp hclear)
      have hagrees := (body_course g inv credentials { terminal := t', remote }).agrees hpassword
      rw [command.execute_of_clear_eq_ok g remote hclear, Command.concluded_fst] at hresult
      obtain ⟨-, e, -, -, he⟩ := (hagrees.reflects.failed_iff _).mp hresult
      cases he

/-- An update takes its username from the second word, and its URL from the place that the form of
the words gives it.  Its password comes from the place that the form gives to the password, in the
declaration of the secret as well, or else from the environment or a question.  These two places
are never the same.  No execution fails for want of the password. -/
theorem execute_follows_form (g : Gateway σ) (inv : Invocation) (caps : Capabilities)
    (env : Environment) (t : Terminal) (remote : σ) :
    let ending := command.execute g inv caps env t remote
    (∀ guid update, .updateBroker guid update ∈ ending.2.calls →
      ∃ urlAt passwordAt, Form inv.args urlAt passwordAt ∧ passwordAt ≠ some urlAt ∧
        declaration.secrets inv = [neededAt inv.args passwordAt] ∧
        inv.args[1]? = some update.username ∧ inv.args[urlAt]? = some update.url ∧
        ∃ password t', (neededAt inv.args passwordAt).Yields env t password t' ∧
          update.password = password.secret) ∧
      ∀ name, ending.1 ≠ .failed (.missingCredential name) := by
  intro ending
  refine ⟨?_, execute_ne_missingCredential g inv caps env t remote⟩
  intro guid update hupdate
  obtain ⟨credentials, t', hclear, hcalls⟩ := command.exists_run_of_mem_calls g remote hupdate
  change .updateBroker guid update ∈ (command.execute g inv caps env t remote).2.calls at hupdate
  rw [hcalls] at hupdate
  have hadmits : declaration.Admits inv caps env t credentials t' :=
    Declaration.clear_eq_ok_iff.mp hclear
  obtain ⟨password, -, htaken, -, -, rfl, -⟩ :=
    (body_course g inv credentials { terminal := t', remote }).exists_of_update hupdate
  obtain ⟨password', htaken', hyields⟩ := exists_yields_of_admits hadmits
  rw [htaken] at htaken'
  obtain rfl : password = password' := Option.some.inj htaken'
  have hcount : inv.args.length ∈ [3, 4] := by
    have hcheck : inv.checkCount "update-service-broker" [3, 4] = .ok () := hadmits.suits.arguments
    unfold Invocation.checkCount at hcheck
    split at hcheck
    · assumption
    · cases hcheck
  obtain ⟨urlAt, passwordAt, hform⟩ := exists_form hcount
  obtain ⟨husername, hurl, hplace⟩ := hform.arguments
  have hneeded : neededAt inv.args passwordAt =
      { neededPassword with argument := (Arguments.ofInvocation inv).password } := by
    rw [neededAt, hplace]
  refine ⟨urlAt, passwordAt, hform, hform.places_ne, ?_, husername, hurl, password, t', ?_, rfl⟩
  · rw [hneeded]
    rfl
  · rw [hneeded]
    exact hyields

/-- Four words of which the last is empty: the third is the URL, and the environment has the
password. -/
theorem execute_follows_form_shortened :
    let g : Gateway Unit := .programmed {}
    let inv : Invocation := { args := ["b", "ann", "https://b.example", ""] }
    let env := Environment.ofList [("CF_BROKER_PASSWORD", "s3cret")]
    let ending := command.execute g inv { loggedIn := true } env (.ofInput "") ()
    let update : BrokerUpdate := ⟨"ann", ⟨"s3cret"⟩, "https://b.example"⟩
    .updateBroker "fake-service-broker-guid" update ∈ ending.2.calls ∧
      ∃ urlAt passwordAt, Form inv.args urlAt passwordAt ∧
        declaration.secrets inv = [neededAt inv.args passwordAt] ∧
        inv.args[urlAt]? = some update.url ∧
        ∃ password t', (neededAt inv.args passwordAt).Yields env (.ofInput "") password t' ∧
          update.password = password.secret := by
  intro g inv env ending update
  have hcalled : .updateBroker "fake-service-broker-guid" update ∈ ending.2.calls := by
    decide +kernel
  obtain ⟨hupdates, -⟩ := execute_follows_form g inv { loggedIn := true } env (.ofInput "") ()
  obtain ⟨urlAt, passwordAt, hform, -, hsecrets, -, hurl, hyields⟩ := hupdates _ _ hcalled
  exact ⟨hcalled, urlAt, passwordAt, hform, hsecrets, hurl, hyields⟩

end PlatformAdmin.UpdateServiceBroker
