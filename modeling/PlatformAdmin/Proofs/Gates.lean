import PlatformAdmin.Execution
import PlatformAdmin.Proofs.SecretSources

/-!
# The gates before a command

Before its body may run, a command passes five gates: its arguments, its scope, its
requirements, its question and its secrets.  `Declaration.Admits` says what it takes to pass
them all and with which credentials, and `Declaration.Stops` says which result a command comes
to when it does not: there is a case for each way in which a gate may fail, and each case asks
that all gates before that one were passed.

To see whether a body is entered, and how often, a command is watched: `Command.watched` keeps
a log of the entries into its body beside the state of the gateway.  The main statement,
`execute_gated`, is that the log of every execution has one entry if the command is admitted,
with the credentials it is admitted with, and none otherwise; and that without an entry no call
was made, the gateway is as it was, and the first gate that failed decides the result.
-/

set_option autoImplicit false

namespace PlatformAdmin

/-! ## Scope and requirements -/

/-- Of a list of capabilities this one is missing, and all before it are there. -/
def Capabilities.FirstMissing (caps : Capabilities) (needed : List Capability)
    (c : Capability) : Prop :=
  c ∉ caps ∧ ∃ before after, needed = before ++ c :: after ∧ ∀ d ∈ before, d ∈ caps

/-- Whether a scope asks for a capability: for a session always, and for the organization also
when it acts within a space. -/
def Scope.asksFor (scope : Scope) : Capability → Bool
  | .loggedIn => true
  | .orgTargeted => scope.needsOrg || scope.needsSpace
  | .spaceTargeted => scope.needsSpace

/-- The list of a scope has what the scope asks for, in the usual order. -/
theorem Scope.requirements_needed (scope : Scope) :
    scope.requirements.needed = Capability.all.filter scope.asksFor := by
  obtain ⟨needsOrg, needsSpace⟩ := scope
  cases needsOrg <;> cases needsSpace <;> rfl

/-- The error of a scope is what it asks for first among what is missing. -/
theorem Scope.check_eq_error_iff {scope : Scope} {caps : Capabilities} {c : Capability} :
    scope.check caps = .error c ↔
      caps.FirstMissing (Capability.all.filter scope.asksFor) c := by
  rw [Scope.check, Requirements.check_eq_error_iff, Scope.requirements_needed]
  exact Iff.rfl

namespace Declaration

/-! ## Passing the gates -/

/-- The arguments are right, and the session covers the scope and the requirements. -/
structure Suits (d : Declaration) (inv : Invocation) (caps : Capabilities) : Prop where
  arguments : d.checkArguments inv = .ok ()
  scope : ∀ c, d.scope.asksFor c = true → c ∈ caps
  requirements : ∀ c ∈ d.requirements.needed, c ∈ caps

/-- The user agrees: there is no question, or the command is forced, or the question is asked
and the answer means yes.  The second terminal is the one after that. -/
inductive Agrees (d : Declaration) (inv : Invocation) (t : Terminal) : Terminal → Prop
  | unasked (question : d.question inv = none) : Agrees d inv t t
  | forced (flag : inv.flags.get "f" = true) : Agrees d inv t t
  | answered {question answer : String} (asked : d.question inv = some question)
      (flag : inv.flags.get "f" = false) (heard : t.Hears answer)
      (yes : Terminal.meansYes answer = true) :
      Agrees d inv t (t.afterAnswer (question ++ " "))

/-- All gates are passed, with these credentials. -/
structure Admits (d : Declaration) (inv : Invocation) (caps : Capabilities) (env : Environment)
    (t : Terminal) (credentials : Credentials) (t' : Terminal) : Prop where
  suits : d.Suits inv caps
  agreed : ∃ t₁, d.Agrees inv t t₁ ∧
    Credential.Obtained env t₁ (d.secrets inv) credentials.remaining t'

/-- A gate fails, all gates before it having been passed, and this is the result. -/
inductive Stops (d : Declaration) (inv : Invocation) (caps : Capabilities) (env : Environment)
    (t : Terminal) : CommandResult → Prop
  | arguments {e : ArgumentCountError} (failed : d.checkArguments inv = .error e) :
      Stops d inv caps env t (.failed (.usage e))
  | scope {c : Capability} (passed : d.checkArguments inv = .ok ())
      (failed : caps.FirstMissing (Capability.all.filter d.scope.asksFor) c) :
      Stops d inv caps env t (.failed (.lacking c))
  | requirements {c : Capability} (passed : d.checkArguments inv = .ok ())
      (covered : ∀ c, d.scope.asksFor c = true → c ∈ caps)
      (failed : caps.FirstMissing d.requirements.needed c) :
      Stops d inv caps env t (.failed (.lacking c))
  | declined {question answer : String} (suits : d.Suits inv caps)
      (asked : d.question inv = some question) (flag : inv.flags.get "f" = false)
      (heard : t.Hears answer) (no : Terminal.meansYes answer = false) :
      Stops d inv caps env t .declined
  | question {question : String} {e : QuestionError} (suits : d.Suits inv caps)
      (asked : d.question inv = some question) (flag : inv.flags.get "f" = false)
      (failed : t.Refuses e) : Stops d inv caps env t (.failed (.question e))
  | secret {t₁ t₂ : Terminal} {before after : List NeededSecret} {needed : NeededSecret}
      {credentials : List Credential} {e : QuestionError} (suits : d.Suits inv caps)
      (agreed : d.Agrees inv t t₁) (declared : d.secrets inv = before ++ needed :: after)
      (obtained : Credential.Obtained env t₁ before credentials t₂)
      (failed : needed.Fails env t₂ e) : Stops d inv caps env t (.failed (.question e))

variable {d : Declaration} {inv : Invocation} {caps : Capabilities} {env : Environment}
  {t t' : Terminal}

/-- The scope is covered exactly if each capability that it asks for is there. -/
theorem covered_iff :
    d.scope.check caps = .ok () ↔ ∀ c, d.scope.asksFor c = true → c ∈ caps := by
  rw [Scope.check, Requirements.check_eq_ok_iff, Scope.requirements_needed]
  refine forall_congr' fun c => ?_
  have hall : c ∈ Capability.all := by cases c <;> decide
  simp [List.mem_filter, hall]

/-- The session is cleared exactly if all capabilities of the scope and of the requirements are
there. -/
theorem clearSession_eq_ok_iff :
    d.clearSession caps = .ok () ↔
      (∀ c, d.scope.asksFor c = true → c ∈ caps) ∧ ∀ c ∈ d.requirements.needed, c ∈ caps := by
  rw [← covered_iff, ← Requirements.check_eq_ok_iff]
  unfold clearSession
  cases h : d.scope.check caps with
  | error c => simp [bind, Except.bind]
  | ok _ => simp [bind, Except.bind]

/-- The session stops at the first capability that is missing, those of the scope before the
others. -/
theorem clearSession_eq_error_iff {c : Capability} :
    d.clearSession caps = .error c ↔
      caps.FirstMissing (Capability.all.filter d.scope.asksFor) c ∨
        (∀ c, d.scope.asksFor c = true → c ∈ caps) ∧
          caps.FirstMissing d.requirements.needed c := by
  have hreq : d.requirements.check caps = .error c ↔
      caps.FirstMissing d.requirements.needed c := Requirements.check_eq_error_iff
  rw [← covered_iff, ← Scope.check_eq_error_iff, ← hreq]
  unfold clearSession
  cases h : d.scope.check caps with
  | error c => simp [bind, Except.bind]
  | ok _ => simp [bind, Except.bind]

/-- The question is cleared exactly if there is none, or the answer to it is a yes. -/
theorem clearQuestion_eq_ok_iff :
    d.clearQuestion inv t = (.ok (), t') ↔ d.Agrees inv t t' := by
  constructor
  · intro h
    unfold clearQuestion at h
    split at h
    · rename_i hq
      obtain rfl : t = t' := by simpa using h
      exact .unasked hq
    · rename_i question hq
      split at h
      · rename_i hf
        obtain rfl : t = t' := by simpa using h
        exact .forced hf
      · rename_i hf
        split at h
        · rename_i t₁ hc
          obtain ⟨answer, hheard, hyes, rfl⟩ := Terminal.confirm_eq_ok_iff.mp hc
          obtain rfl : _ = t' := by simpa using h
          exact .answered hq (Bool.eq_false_iff.mpr hf) hheard hyes.symm
        · simp at h
        · simp at h
  · intro h
    unfold clearQuestion
    cases h with
    | unasked hq => rw [hq]
    | forced hf =>
      cases d.question inv with
      | none => rfl
      | some question => exact if_pos hf
    | @answered question answer hq hf hheard hyes =>
      have hc : t.confirm question = (.ok true, t.afterAnswer (question ++ " ")) :=
        Terminal.confirm_eq_ok_iff.mpr ⟨answer, hheard, hyes.symm, rfl⟩
      have hforced : inv.isForced = false := hf
      simp [hq, hforced, hc]

/-- A question that stops a command was declined or failed. -/
theorem clearQuestion_eq_error_iff {stop : EarlyEnd} :
    (d.clearQuestion inv t).1 = .error stop ↔
      ∃ question, d.question inv = some question ∧ inv.flags.get "f" = false ∧
        ((stop = .declined ∧ ∃ answer, t.Hears answer ∧ Terminal.meansYes answer = false) ∨
          ∃ e, stop = .failed (.question e) ∧ t.Refuses e) := by
  constructor
  · intro h
    unfold clearQuestion at h
    split at h
    · simp at h
    · rename_i question hq
      refine ⟨question, hq, ?_⟩
      split at h
      · simp at h
      · rename_i hf
        refine ⟨Bool.eq_false_iff.mpr hf, ?_⟩
        split at h
        · simp at h
        · rename_i t₁ hc
          obtain ⟨answer, hheard, hno, -⟩ := Terminal.confirm_eq_ok_iff.mp hc
          obtain rfl : EarlyEnd.declined = stop := by simpa using h
          exact .inl ⟨rfl, answer, hheard, hno.symm⟩
        · rename_i e t₁ hc
          obtain rfl : EarlyEnd.failed (.question e) = stop := by simpa using h
          exact .inr ⟨e, rfl, Terminal.confirm_eq_error_iff.mp (by rw [hc])⟩
  · rintro ⟨question, hq, hf, hcase⟩
    have hforced : inv.isForced = false := hf
    simp only [clearQuestion, hq, hforced, Bool.false_eq_true, if_false]
    obtain ⟨rfl, answer, hheard, hno⟩ | ⟨e, rfl, hrefuses⟩ := hcase
    · have hc : t.confirm question = (.ok false, t.afterAnswer (question ++ " ")) :=
        Terminal.confirm_eq_ok_iff.mpr ⟨answer, hheard, hno.symm, rfl⟩
      rw [hc]
    · have hc : (t.confirm question).1 = .error e := Terminal.confirm_eq_error_iff.mpr hrefuses
      split <;> simp_all

/-- The secrets are cleared exactly if all of them are obtained. -/
theorem clearSecrets_eq_ok_iff {credentials : Credentials} :
    d.clearSecrets inv env t = (.ok credentials, t') ↔
      Credential.Obtained env t (d.secrets inv) credentials.remaining t' := by
  rw [← Credential.obtainAll_eq_ok_iff, clearSecrets]
  obtain ⟨remaining⟩ := credentials
  split <;> rename_i h <;> simp [h]

/-- The secrets stop at the first of them that cannot be asked for. -/
theorem clearSecrets_eq_error_iff {stop : EarlyEnd} :
    (d.clearSecrets inv env t).1 = .error stop ↔
      ∃ e, stop = .failed (.question e) ∧
        (Credential.obtainAll env (d.secrets inv) t).1 = .error e := by
  unfold clearSecrets
  split
  · rename_i h
    simp [h]
  · rename_i e t₁ h
    rw [h]
    constructor
    · intro hstop
      exact ⟨e, by simpa using hstop.symm, rfl⟩
    · rintro ⟨e', rfl, he⟩
      obtain rfl : e = e' := by simpa using he
      rfl

/-- The gates let a command through exactly when it is admitted. -/
theorem clear_eq_ok_iff {credentials : Credentials} :
    d.clear inv caps env t = (.ok credentials, t') ↔
      d.Admits inv caps env t credentials t' := by
  constructor
  · intro h
    unfold clear clearArguments at h
    cases ha : d.checkArguments inv with
    | error e => simp [ha] at h
    | ok _ =>
      simp only [ha] at h
      cases hs : d.clearSession caps with
      | error c => simp [hs] at h
      | ok _ =>
        simp only [hs] at h
        obtain ⟨hscope, hreq⟩ := clearSession_eq_ok_iff.mp hs
        split at h
        · simp at h
        · rename_i t₁ hq
          exact ⟨⟨ha, hscope, hreq⟩, t₁, clearQuestion_eq_ok_iff.mp hq,
            clearSecrets_eq_ok_iff.mp h⟩
  · rintro ⟨⟨ha, hscope, hreq⟩, t₁, hq, hsecrets⟩
    have hs := clearSession_eq_ok_iff.mpr ⟨hscope, hreq⟩
    simp only [clear, clearArguments, ha, hs, clearQuestion_eq_ok_iff.mpr hq,
      clearSecrets_eq_ok_iff.mpr hsecrets]

end Declaration

/-- The result of a command that ends before its time. -/
def EarlyEnd.result : EarlyEnd → CommandResult
  | .declined => .declined
  | .usageShown e => .failed e
  | .failed e => .failed e

namespace Declaration

variable {d : Declaration} {inv : Invocation} {caps : Capabilities} {env : Environment}
  {t t' : Terminal}

/-- When the gates do not let a command through, the first that failed decides. -/
theorem stops_of_clear_eq_error {stop : EarlyEnd}
    (h : (d.clear inv caps env t).1 = .error stop) : d.Stops inv caps env t stop.result := by
  unfold clear clearArguments at h
  cases ha : d.checkArguments inv with
  | error e =>
    obtain rfl : EarlyEnd.usageShown (.usage e) = stop := by simpa [ha] using h
    exact .arguments ha
  | ok _ =>
    simp only [ha] at h
    cases hs : d.clearSession caps with
    | error c =>
      obtain rfl : EarlyEnd.failed (.lacking c) = stop := by simpa [hs] using h
      obtain hc | ⟨hscope, hc⟩ := clearSession_eq_error_iff.mp hs
      · exact .scope ha hc
      · exact .requirements ha hscope hc
    | ok _ =>
      simp only [hs] at h
      obtain ⟨hscope, hreq⟩ := clearSession_eq_ok_iff.mp hs
      have hsuits : d.Suits inv caps := ⟨ha, hscope, hreq⟩
      cases hq : d.clearQuestion inv t with
      | mk answer t₁ =>
        simp only [hq] at h
        cases answer with
        | error stop' =>
          obtain rfl : stop' = stop := by simpa using h
          have hfst : (d.clearQuestion inv t).1 = .error stop' := by rw [hq]
          obtain ⟨question, hquestion, hf, hcase⟩ := clearQuestion_eq_error_iff.mp hfst
          obtain ⟨rfl, answer, hheard, hno⟩ | ⟨e, rfl, hrefuses⟩ := hcase
          · exact .declined hsuits hquestion hf hheard hno
          · exact .question hsuits hquestion hf hrefuses
        | ok _ =>
          obtain ⟨e, rfl, he⟩ := clearSecrets_eq_error_iff.mp h
          obtain ⟨before, needed, after, credentials, t₂, hd, ho, hn⟩ :=
            Credential.obtainAll_eq_error_iff.mp he
          exact .secret hsuits (clearQuestion_eq_ok_iff.mp hq) hd ho hn

/-- Of an invocation that suits the gates, the question and the secrets are left to clear. -/
theorem clear_of_suits (h : d.Suits inv caps) :
    d.clear inv caps env t = match d.clearQuestion inv t with
      | (.error e, t) => (.error e, t)
      | (.ok (), t) => d.clearSecrets inv env t := by
  have hs : d.clearSession caps = .ok () := clearSession_eq_ok_iff.mpr ⟨h.scope, h.requirements⟩
  cases hq : d.clearQuestion inv t with
  | mk answer t₁ => cases answer <;> simp only [clear, clearArguments, h.arguments, hs, hq]

/-- Conversely, a gate that fails after all before it were passed stops the command. -/
theorem clear_eq_error_of_stops {result : CommandResult} (h : d.Stops inv caps env t result) :
    ∃ stop, (d.clear inv caps env t).1 = .error stop ∧ stop.result = result := by
  cases h with
  | arguments ha => exact ⟨.usageShown (.usage _), by simp [clear, clearArguments, ha], rfl⟩
  | @scope c ha hc =>
    have hs : d.clearSession caps = .error c := clearSession_eq_error_iff.mpr (.inl hc)
    exact ⟨.failed (.lacking c), by simp [clear, clearArguments, ha, hs], rfl⟩
  | @requirements c ha hscope hc =>
    have hs : d.clearSession caps = .error c := clearSession_eq_error_iff.mpr (.inr ⟨hscope, hc⟩)
    exact ⟨.failed (.lacking c), by simp [clear, clearArguments, ha, hs], rfl⟩
  | declined hsuits hq hf hheard hno =>
    have hc : (d.clearQuestion inv t).1 = .error .declined :=
      clearQuestion_eq_error_iff.mpr ⟨_, hq, hf, .inl ⟨rfl, _, hheard, hno⟩⟩
    refine ⟨.declined, ?_, rfl⟩
    rw [clear_of_suits hsuits]
    split <;> simp_all
  | @question _ e hsuits hq hf hrefuses =>
    have hc : (d.clearQuestion inv t).1 = .error (.failed (.question e)) :=
      clearQuestion_eq_error_iff.mpr ⟨_, hq, hf, .inr ⟨e, rfl, hrefuses⟩⟩
    refine ⟨.failed (.question e), ?_, rfl⟩
    rw [clear_of_suits hsuits]
    split <;> simp_all
  | @secret t₁ t₂ before after needed credentials e hsuits hagreed hd ho hn =>
    have hall : (Credential.obtainAll env (d.secrets inv) t₁).1 = .error e :=
      Credential.obtainAll_eq_error_iff.mpr ⟨before, needed, after, credentials, t₂, hd, ho, hn⟩
    refine ⟨.failed (.question e), ?_, rfl⟩
    rw [clear_of_suits hsuits, clearQuestion_eq_ok_iff.mpr hagreed]
    exact clearSecrets_eq_error_iff.mpr ⟨e, rfl, hall⟩

/-- The result of a command that is stopped is the one of the gate that stopped it. -/
theorem stops_iff {stop : EarlyEnd} {result : CommandResult}
    (h : (d.clear inv caps env t).1 = .error stop) :
    d.Stops inv caps env t result ↔ result = stop.result := by
  constructor
  · intro hstops
    obtain ⟨stop', hstop', rfl⟩ := clear_eq_error_of_stops hstops
    rw [h, Except.error.injEq] at hstop'
    rw [hstop']
  · rintro rfl
    exact stops_of_clear_eq_error h

/-- Where the gates stop, they do not admit. -/
theorem not_admits {stop : EarlyEnd} (h : (d.clear inv caps env t).1 = .error stop) :
    ¬∃ credentials t', d.Admits inv caps env t credentials t' := by
  rintro ⟨credentials, t', hadmits⟩
  rw [clear_eq_ok_iff.mpr hadmits] at h
  cases h

/-- The gates admit with one list of credentials only. -/
theorem Admits.unique {credentials credentials' : Credentials} {t'' : Terminal}
    (h : d.Admits inv caps env t credentials t') (h' : d.Admits inv caps env t credentials' t'') :
    credentials = credentials' := by
  have hsame := clear_eq_ok_iff.mpr h
  rw [clear_eq_ok_iff.mpr h', Prod.mk.injEq, Except.ok.injEq] at hsame
  exact hsame.1.symm

end Declaration

/-! ## Execution through the gates -/

namespace Command

variable {σ : Type} (cmd : Command σ) (g : Gateway σ) {inv : Invocation} {caps : Capabilities}
  {env : Environment} {t t' : Terminal} (remote : σ)

/-- A command that is stopped leaves the gateway alone. -/
theorem execute_of_clear_eq_error {stop : EarlyEnd}
    (h : cmd.clear inv caps env t = (.error stop, t')) :
    cmd.execute g inv caps env t remote =
      (stop.result, { terminal := (t'.conclude (.error stop)).2, remote }) := by
  simp only [execute, attempt, h, PendingWarnings.flush, Terminal.warnAll, List.foldl_nil]
  cases stop <;> rfl

/-- The end of an execution whose body came to this outcome in this state. -/
def concluded (outcome : Except Failure (Option String)) (s : RunState σ) :
    CommandResult × RunState σ :=
  let outcome := outcome.mapError EarlyEnd.failed
  let terminal := (s.terminal.warnAll s.warnings.texts).conclude outcome
  (terminal.1, { s with warnings := {}, terminal := terminal.2 })

/-- A command that is admitted runs its body once, on a state without warnings or calls. -/
theorem execute_of_clear_eq_ok {credentials : Credentials}
    (h : cmd.clear inv caps env t = (.ok credentials, t')) :
    cmd.execute g inv caps env t remote =
      concluded (cmd.run g inv credentials { terminal := t', remote }).1
        (cmd.run g inv credentials { terminal := t', remote }).2 := by
  simp only [execute, attempt, h]
  cases cmd.run g inv credentials { terminal := t', remote } with
  | mk outcome s => cases outcome <;> rfl

/-- Only a command that is admitted makes calls, and they are those of its body. -/
theorem exists_run_of_mem_calls {c : Call}
    (h : c ∈ (cmd.execute g inv caps env t remote).2.calls) :
    ∃ credentials t', cmd.clear inv caps env t = (.ok credentials, t') ∧
      (cmd.execute g inv caps env t remote).2.calls =
        (cmd.run g inv credentials { terminal := t', remote }).2.calls := by
  cases hclear : cmd.clear inv caps env t with
  | mk answer t' =>
    cases answer with
    | error stop =>
      rw [cmd.execute_of_clear_eq_error g remote hclear] at h
      cases h
    | ok credentials =>
      refine ⟨credentials, t', rfl, ?_⟩
      rw [cmd.execute_of_clear_eq_ok g remote hclear]
      rfl

end Command

/-! ## Watching a command -/

/-- An entry into the body of a command: what the body is given. -/
structure Entry where
  invocation : Invocation
  credentials : Credentials
  deriving DecidableEq, Repr

variable {σ : Type}

/-- The state of a run with another state in place of its gateway's. -/
def RunState.withRemote {τ : Type} (s : RunState σ) (remote : τ) : RunState τ :=
  { terminal := s.terminal, remote, warnings := s.warnings, calls := s.calls }

/-- The command on a gateway, with a log of the entries into its body beside the state of that
gateway. -/
def Command.watched (cmd : Command σ) (g : Gateway σ) : Command (σ × List Entry) :=
  { cmd.toDeclaration with
    run := fun _ inv credentials s =>
      let ending := cmd.run g inv credentials (s.withRemote s.remote.1)
      (ending.1,
        ending.2.withRemote (ending.2.remote, s.remote.2 ++ [⟨inv, credentials⟩])) }

/-- The body of a command is entered at most once, and exactly when the command is admitted.
Otherwise no call is made, the gateway is as it was, and the first gate that fails decides the
result.  To watch a command changes nothing else about its execution. -/
theorem execute_gated (cmd : Command σ) (g : Gateway σ) (g' : Gateway (σ × List Entry))
    (inv : Invocation) (caps : Capabilities) (env : Environment) (t : Terminal) (remote : σ) :
    let ending := (cmd.watched g).execute g' inv caps env t (remote, [])
    cmd.execute g inv caps env t remote = (ending.1, ending.2.withRemote ending.2.remote.1) ∧
      ending.2.remote.2.length ≤ 1 ∧
      (∀ entry, entry ∈ ending.2.remote.2 ↔
        entry.invocation = inv ∧ ∃ t', cmd.Admits inv caps env t entry.credentials t') ∧
      ((¬∃ credentials t', cmd.Admits inv caps env t credentials t') →
        ending.2.calls = [] ∧ ending.2.remote.1 = remote ∧
          ∀ result, cmd.Stops inv caps env t result ↔ result = ending.1) := by
  intro ending
  cases hclear : cmd.clear inv caps env t with
  | mk answer t' =>
    cases answer with
    | error stop =>
      have hstop : (cmd.clear inv caps env t).1 = .error stop := by rw [hclear]
      have hnone := Declaration.not_admits hstop
      have hplain := cmd.execute_of_clear_eq_error g remote hclear
      have hending : ending = _ :=
        (cmd.watched g).execute_of_clear_eq_error g' (remote, []) hclear
      rw [hplain, hending]
      refine ⟨rfl, Nat.zero_le 1, fun entry => ?_, fun _ => ⟨rfl, rfl, fun result => ?_⟩⟩
      · constructor
        · intro h
          cases h
        · rintro ⟨-, t'', hadmits⟩
          exact absurd ⟨_, t'', hadmits⟩ hnone
      · exact Declaration.stops_iff hstop
    | ok credentials =>
      have hadmits : cmd.Admits inv caps env t credentials t' :=
        Declaration.clear_eq_ok_iff.mp hclear
      have hplain := cmd.execute_of_clear_eq_ok g remote hclear
      have hending : ending = _ := (cmd.watched g).execute_of_clear_eq_ok g' (remote, []) hclear
      -- the body was entered once, and only it writes to the log
      have hlog : ending.2.remote.2 = [⟨inv, credentials⟩] := by rw [hending]; rfl
      refine ⟨?_, ?_, fun entry => ?_, fun hnone => absurd ⟨credentials, t', hadmits⟩ hnone⟩
      · rw [hplain, hending]
        rfl
      · rw [hlog]
        exact Nat.le_refl 1
      · rw [hlog, List.mem_singleton]
        constructor
        · rintro rfl
          exact ⟨rfl, t', hadmits⟩
        · rintro ⟨hinv, t'', hadmits'⟩
          obtain ⟨inv', credentials'⟩ := entry
          rw [Entry.mk.injEq]
          exact ⟨hinv, hadmits'.unique hadmits⟩

end PlatformAdmin
