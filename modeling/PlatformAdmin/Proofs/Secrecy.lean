import PlatformAdmin.Proofs.TwoRuns

/-!
# The password of a service broker stays a secret

Two updates of a service broker are compared that are the same but for the password:
`SameButPassword` has a case for each of the three places where it may stand.  Neither the gates
nor the body look at it, so the two executions show the same to everybody but the platform, and
all that differs is the password field of the update.
-/

set_option autoImplicit false

namespace PlatformAdmin

variable {σ : Type}

/-- Characters make up no text exactly if one of them is none. -/
theorem Text.Utf8.text?_eq_none_iff {chars : List (Option Char)} :
    text? chars = none ↔ none ∈ chars := by
  induction chars with
  | nil => simp [text?]
  | cons c chars ih =>
    simp only [text?, Option.map_eq_none_iff] at ih
    cases c with
    | none => simp [text?, List.mapM_cons]
    | some c => cases hm : chars.mapM id <;> simp_all [text?, List.mapM_cons]

/-! ## Input that is not read yet -/

/-- The same terminal twice, with different input. -/
def Terminal.SameButInput (input input' : List (Option Char)) (t t' : Terminal) : Prop :=
  ∃ u : Terminal, t = { u with input } ∧ t' = { u with input := input' }

namespace Terminal

variable {input input' : List (Option Char)}

/-- To say something does not depend on the input. -/
theorem say_withInput (u : Terminal) (input : List (Option Char)) (message : String) :
    ({ u with input } : Terminal).say message = { u.say message with input } := by
  simp only [say, write]
  split
  · rfl
  · split <;> rfl

/-- To warn does not depend on the input. -/
theorem warn_withInput (u : Terminal) (input : List (Option Char)) (message : String) :
    ({ u with input } : Terminal).warn message = { u.warn message with input } := by
  simp only [warn]
  split <;> rfl

/-- A line without line feeds ends where the input ends, or at the first line feed behind it. -/
theorem splitLine_append {line rest : List (Option Char)} (whole : some '\n' ∉ line)
    (ended : rest = [] ∨ ∃ more, rest = some '\n' :: more) :
    splitLine (line ++ rest) = (line, rest.tail) := by
  obtain rfl | ⟨more, rfl⟩ := ended
  · rw [List.append_nil, splitLine_of_not_mem whole]
    rfl
  · exact splitLine_append_cons whole

/-- Whatever a command writes, two terminals differ in their inputs only. -/
theorem SameButInput.keptByOutput : KeptByOutput (SameButInput input input') where
  say := by
    rintro _ _ ⟨u, rfl, rfl⟩ message
    exact ⟨u.say message, u.say_withInput input message, u.say_withInput input' message⟩
  warn := by
    rintro _ _ ⟨u, rfl, rfl⟩ message
    exact ⟨u.warn message, u.warn_withInput input message, u.warn_withInput input' message⟩

end Terminal

/-! ## What differs, and what may differ afterwards -/

/-- Two calls that are the same, or updates that differ in the password at most. -/
inductive Call.SameButPassword : Call → Call → Prop
  | same (c : Call) : SameButPassword c c
  | update (guid username url : String) (password password' : Secret) :
      SameButPassword (.updateBroker guid ⟨username, password, url⟩)
        (.updateBroker guid ⟨username, password', url⟩)

/-- The response to an update does not depend on the password. -/
def Gateway.IgnoresPassword (g : Gateway σ) : Prop :=
  ∀ guid username url password password' remote,
    (g.answer (.updateBroker guid ⟨username, password, url⟩) remote).1 =
      (g.answer (.updateBroker guid ⟨username, password', url⟩) remote).1

namespace UpdateServiceBroker

/-- The same arguments, environment and input twice, but for the value of the password in one of
the places where it may stand: the third of four arguments, the environment, and the first line
of the input.  A line that is no text holds no password, so both lines are text or neither is. -/
inductive SameButPassword : Invocation → Environment → List (Option Char) →
    Invocation → Environment → List (Option Char) → Prop
  | argument {name username password password' url : String} {flags : Flags}
      {env : Environment} {input : List (Option Char)} (given : password ≠ "")
      (given' : password' ≠ "") (hurl : url ≠ "") :
      SameButPassword { args := [name, username, password, url], flags } env input
        { args := [name, username, password', url], flags } env input
  | setting {inv : Invocation} {env env' : Environment} {input : List (Option Char)}
      {password password' : String} (agree : ∀ v, v ≠ neededPassword.envVar → env v = env' v)
      (set : env neededPassword.envVar = some password)
      (set' : env' neededPassword.envVar = some password') :
      SameButPassword inv env input inv env' input
  | line {inv : Invocation} {env : Environment} {line line' rest : List (Option Char)}
      (whole : some '\n' ∉ line) (whole' : some '\n' ∉ line')
      (readable : none ∈ line ↔ none ∈ line')
      (ended : rest = [] ∨ ∃ more, rest = some '\n' :: more) :
      SameButPassword inv env (line ++ rest) inv env (line' ++ rest)

variable {inv inv' : Invocation} {env env' : Environment} {input input' : List (Option Char)}

namespace SameButPassword

/-- Either nothing of both inputs was read, or the first line of both. -/
def Reads (input input' rest rest' : List (Option Char)) : Prop :=
  rest = input ∧ rest' = input' ∨
    rest = (Terminal.splitLine input).2 ∧ rest' = (Terminal.splitLine input').2

/-- Two invocations that differ in the password only have as many arguments. -/
theorem size_eq (h : SameButPassword inv env input inv' env' input') : inv.size = inv'.size := by
  cases h <;> rfl

/-- Four arguments are read as they are given, if the last is not empty. -/
theorem arguments_of_four {name username password url : String} (flags : Flags) (hurl : url ≠ "") :
    Arguments.ofInvocation { args := [name, username, password, url], flags } =
      ⟨name, username, some password, url⟩ := by
  simp [Arguments.ofInvocation, Invocation.size, Invocation.arg, Invocation.arg?, hurl]

/-- Two invocations that differ in the password only have all other arguments in common. -/
theorem arguments_eq (h : SameButPassword inv env input inv' env' input') :
    Arguments.ofInvocation inv' =
      { Arguments.ofInvocation inv with password := (Arguments.ofInvocation inv').password } := by
  cases h with
  | argument _ _ hurl => rw [arguments_of_four _ hurl, arguments_of_four _ hurl]
  | setting _ _ _ => rfl
  | line _ _ _ _ => rfl

end SameButPassword

/-- The password as it is needed for these arguments. -/
def neededFor (inv : Invocation) : NeededSecret :=
  { neededPassword with argument := (Arguments.ofInvocation inv).password }

/-- Two lines in the place of a secret lead to the same end, with either secret. -/
theorem askSecret_sameEnd {line line' rest : List (Option Char)} (t : Terminal) (label : String)
    (whole : some '\n' ∉ line) (whole' : some '\n' ∉ line') (readable : none ∈ line ↔ none ∈ line')
    (ended : rest = [] ∨ ∃ more, rest = some '\n' :: more) :
    ∃ x x', SameButPassword.Reads (line ++ rest) (line' ++ rest) x x' ∧
      SameEnd (fun _ _ => True) (({ t with input := line ++ rest } : Terminal).askSecret label).1
        (({ t with input := line' ++ rest } : Terminal).askSecret label).1 ∧
      Terminal.SameButInput x x' (({ t with input := line ++ rest } : Terminal).askSecret label).2
        (({ t with input := line' ++ rest } : Terminal).askSecret label).2 := by
  obtain ⟨e, t', h⟩ | h := t.askSecret_of_input label
  · refine ⟨_, _, .inl ⟨rfl, rfl⟩, ?_⟩
    rw [h, h]
    exact ⟨.error e, t', rfl, rfl⟩
  · refine ⟨_, _, .inr ⟨rfl, rfl⟩, ?_⟩
    -- each run takes its own line, and what is left is the same
    have hsplit := Terminal.splitLine_append whole ended
    have hsplit' := Terminal.splitLine_append whole' ended
    rw [h, h, hsplit, hsplit']
    cases hl : Text.Utf8.text? line with
    | none =>
      have hl' : Text.Utf8.text? line' = none := by
        rw [Text.Utf8.text?_eq_none_iff] at hl ⊢
        exact readable.mp hl
      simp only [Terminal.answerOf, hl, hl']
      exact ⟨.error _, t.afterAnswer (label ++ ": "), by simp [Terminal.afterAnswer, hsplit],
        by simp [Terminal.afterAnswer, hsplit']⟩
    | some text =>
      cases hl' : Text.Utf8.text? line' with
      | none =>
        rw [Text.Utf8.text?_eq_none_iff, ← readable, ← Text.Utf8.text?_eq_none_iff, hl] at hl'
        cases hl'
      | some text' =>
        simp only [Terminal.answerOf, hl, hl']
        exact ⟨.ok trivial, t.afterAnswer (label ++ ": " ++ "\n"),
          by simp [Terminal.afterAnswer, hsplit], by simp [Terminal.afterAnswer, hsplit']⟩

/-- Wherever the password comes from, it is obtained on both sides or on neither. -/
theorem obtain_sameEnd (h : SameButPassword inv env input inv' env' input') (t : Terminal) :
    ∃ x x', SameButPassword.Reads input input' x x' ∧
      SameEnd (fun c c' => c.name = c'.name)
        (Credential.obtain (neededFor inv) env { t with input }).1
        (Credential.obtain (neededFor inv') env' { t with input := input' }).1 ∧
      Terminal.SameButInput x x' (Credential.obtain (neededFor inv) env { t with input }).2
        (Credential.obtain (neededFor inv') env' { t with input := input' }).2 := by
  have hname : (neededFor inv').name = (neededFor inv).name := rfl
  cases h with
  | @argument name username password password' url flags env input given given' hurl =>
    have hneeded : ∀ value, neededFor { args := [name, username, value, url], flags } =
        { neededPassword with argument := some value } := by
      intro value
      rw [neededFor, SameButPassword.arguments_of_four _ hurl]
    refine ⟨_, _, .inl ⟨rfl, rfl⟩, ?_⟩
    simp only [Credential.obtain, hneeded, Option.filter_some, bne_iff_ne, ne_eq, given, given',
      not_false_eq_true, if_true]
    exact ⟨.ok rfl, t, rfl, rfl⟩
  | @setting inv env env' input password password' _ hset hset' =>
    refine ⟨_, _, .inl ⟨rfl, rfl⟩, ?_⟩
    have hvar : (neededFor inv).envVar = neededPassword.envVar := rfl
    cases ha : (neededFor inv).argument.filter (· != "") with
    | some value =>
      simp only [Credential.obtain, ha]
      exact ⟨.ok rfl, t, rfl, rfl⟩
    | none =>
      simp only [Credential.obtain, ha, hvar, hset, hset']
      exact ⟨.ok rfl, t, rfl, rfl⟩
  | @line inv env line line' rest whole whole' readable ended =>
    cases ha : (neededFor inv).argument.filter (· != "") with
    | some value =>
      refine ⟨_, _, .inl ⟨rfl, rfl⟩, ?_⟩
      simp only [Credential.obtain, ha]
      exact ⟨.ok rfl, t, rfl, rfl⟩
    | none =>
      cases hv : env (neededFor inv).envVar with
      | some value =>
        refine ⟨_, _, .inl ⟨rfl, rfl⟩, ?_⟩
        simp only [Credential.obtain, ha, hv]
        exact ⟨.ok rfl, t, rfl, rfl⟩
      | none =>
        obtain ⟨x, x', hreads, hend, hterminal⟩ :=
          askSecret_sameEnd t (neededFor inv).label whole whole' readable ended
        refine ⟨x, x', hreads, ?_⟩
        simp only [Credential.obtain, ha, hv]
        cases ho : ({ t with input := line ++ rest } : Terminal).askSecret (neededFor inv).label
        cases ho' : ({ t with input := line' ++ rest } : Terminal).askSecret (neededFor inv).label
        rw [ho, ho'] at hend hterminal
        cases hend with
        | ok _ => exact ⟨.ok rfl, hterminal⟩
        | error e => exact ⟨.error e, hterminal⟩

/-! ## The whole command -/

/-- Both hold a password, or neither does. -/
def SamePossession (credentials credentials' : Credentials) : Prop :=
  (credentials.take neededPassword.name).1.isSome =
    (credentials'.take neededPassword.name).1.isSome

/-- The gates of an update check the count of arguments, then the session, then the password. -/
theorem clear_eq (inv : Invocation) (caps : Capabilities) (env : Environment) (t : Terminal) :
    declaration.clear inv caps env t =
      match inv.checkCount "update-service-broker" [3, 4], declaration.clearSession caps with
      | .error e, _ => (.error (.usageShown (.usage e)), t.showUsage usage)
      | .ok (), .error c => (.error (.failed (.lacking c)), t)
      | .ok (), .ok () => declaration.clearSecrets inv env t := by
  have hcheck : declaration.checkArguments inv = inv.checkCount "update-service-broker" [3, 4] :=
    rfl
  simp only [Declaration.clear, Declaration.clearArguments, hcheck]
  cases inv.checkCount "update-service-broker" [3, 4] with
  | error e => rfl
  | ok _ => cases declaration.clearSession caps <;> rfl

/-- The only secret of an update is the password. -/
theorem clearSecrets_eq (inv : Invocation) (env : Environment) (t : Terminal) :
    declaration.clearSecrets inv env t =
      match Credential.obtain (neededFor inv) env t with
      | (.ok c, t) => (.ok ⟨[c]⟩, t)
      | (.error e, t) => (.error (.failed (.question e)), t) := by
  have hsecrets : declaration.secrets inv = [neededFor inv] := rfl
  simp only [Declaration.clearSecrets, hsecrets, Credential.obtainAll]
  cases Credential.obtain (neededFor inv) env t with
  | mk answer t' => cases answer <;> rfl

/-- The gates come to the same end on both sides. -/
theorem clear_sameEnd (h : SameButPassword inv env input inv' env' input')
    (caps : Capabilities) (t : Terminal) :
    ∃ x x', SameButPassword.Reads input input' x x' ∧
      SameEnd SamePossession (declaration.clear inv caps env { t with input }).1
        (declaration.clear inv' caps env' { t with input := input' }).1 ∧
      Terminal.SameButInput x x' (declaration.clear inv caps env { t with input }).2
        (declaration.clear inv' caps env' { t with input := input' }).2 := by
  have hcheck : inv'.checkCount "update-service-broker" [3, 4] =
      inv.checkCount "update-service-broker" [3, 4] := by
    simp only [Invocation.checkCount, h.size_eq]
  rw [clear_eq, clear_eq, hcheck]
  cases inv.checkCount "update-service-broker" [3, 4] with
  | error e =>
    refine ⟨_, _, .inl ⟨rfl, rfl⟩, .error _, ?_⟩
    have hkept : Terminal.KeptByOutput (Terminal.SameButInput input input') :=
      Terminal.SameButInput.keptByOutput
    exact hkept.warn (hkept.warn ⟨t, rfl, rfl⟩ _) _
  | ok _ =>
    cases declaration.clearSession caps with
    | error c => exact ⟨_, _, .inl ⟨rfl, rfl⟩, .error _, t, rfl, rfl⟩
    | ok _ =>
      obtain ⟨x, x', hreads, hend, hterminal⟩ := obtain_sameEnd h t
      refine ⟨x, x', hreads, ?_⟩
      dsimp only
      rw [clearSecrets_eq, clearSecrets_eq]
      cases ho : Credential.obtain (neededFor inv) env { t with input }
      cases ho' : Credential.obtain (neededFor inv') env' { t with input := input' }
      rw [ho, ho'] at hend hterminal
      cases hend with
      | error e => exact ⟨.error _, hterminal⟩
      | @ok c c' hname =>
        refine ⟨.ok ?_, hterminal⟩
        simp only [SamePossession, Credentials.take, List.find?_cons, List.find?_nil, hname]
        cases c'.name == neededPassword.name <;> rfl

/-- The password is taken on both sides or on neither. -/
theorem takePassword_parallel {P : RunState σ → RunState σ → Prop}
    {credentials credentials' : Credentials} (h : SamePossession credentials credentials') :
    Run.Parallel P P (fun _ _ => True) (takePassword credentials) (takePassword credentials') := by
  unfold SamePossession at h
  unfold takePassword
  cases ht : (credentials.take neededPassword.name).1 <;>
    cases ht' : (credentials'.take neededPassword.name).1 <;> rw [ht, ht'] at h
  · exact .fail _
  · cases h
  · cases h
  · exact .pure trivial

/-- The password makes no difference to what the update comes to, whatever it does to the state
of the gateway. -/
theorem update_parallel {T : Terminal → Terminal → Prop} {g : Gateway σ} (hg : g.IgnoresPassword)
    (guid username url entity : String) (password password' : Secret) :
    Run.Parallel (RunState.Beside T Eq Call.SameButPassword)
      (RunState.Beside T (fun _ _ => True) Call.SameButPassword) Eq
      (Run.demand g (.updateBroker guid ⟨username, password, url⟩) entity)
      (Run.demand g (.updateBroker guid ⟨username, password', url⟩) entity) := by
  intro s s' h
  have hresponse : s.response g (.updateBroker guid ⟨username, password, url⟩) =
      s'.response g (.updateBroker guid ⟨username, password', url⟩) := by
    rw [RunState.response, RunState.response, ← h.remote]
    exact hg guid username url password password' s.remote
  rw [Run.demand_apply, Run.demand_apply]
  constructor
  · rw [hresponse]
    exact .refl _
  · exact h.afterCall (.update guid username url password password') trivial
      (congrArg Response.warnings hresponse)

/-- Two runs of an update that differ in the password only go side by side. -/
theorem run_parallel {T : Terminal → Terminal → Prop} (hT : Terminal.KeptByOutput T)
    {g : Gateway σ} (hg : g.IgnoresPassword) (h : SameButPassword inv env input inv' env' input')
    {credentials credentials' : Credentials} (hp : SamePossession credentials credentials') :
    Run.Parallel (RunState.Beside T Eq Call.SameButPassword)
      (RunState.Beside T (fun _ _ => True) Call.SameButPassword) Eq
      (command.run g inv credentials) (command.run g inv' credentials') := by
  refine body_parallel hT .same g.answersAlike_eq (fun _ _ _ => trivial) h.arguments_eq
    (takePassword_parallel hp) ?_
  intro guid username url entity password password' _
  exact update_parallel hg guid username url entity password password'

/-- Executions that are the same but for the password show the same to everybody but the
platform: the result, both streams and the number of lines read are the same, and so are the
calls but for the password in the update. -/
theorem execute_hides_password {g : Gateway σ} (hg : g.IgnoresPassword)
    (h : SameButPassword inv env input inv' env' input') (caps : Capabilities) (t : Terminal)
    (remote : σ) :
    let ending := command.execute g inv caps env { t with input } remote
    let ending' := command.execute g inv' caps env' { t with input := input' } remote
    ending.1 = ending'.1 ∧
      ending.2.terminal.out = ending'.2.terminal.out ∧
      ending.2.terminal.err = ending'.2.terminal.err ∧
      SameButPassword.Reads input input' ending.2.terminal.input ending'.2.terminal.input ∧
      List.Forall₂ Call.SameButPassword ending.2.calls ending'.2.calls := by
  intro ending ending'
  obtain ⟨x, x', hreads, hgates, hterminals⟩ := clear_sameEnd h caps t
  have hT : Terminal.KeptByOutput (Terminal.SameButInput x x') :=
    Terminal.SameButInput.keptByOutput
  have hexecuted : ending.1 = ending'.1 ∧ ending.2.Beside (Terminal.SameButInput x x')
      (fun _ _ => True) Call.SameButPassword ending'.2 :=
    Command.execute_parallel hT hgates hterminals (rfl : remote = remote) (fun _ _ _ => trivial)
      fun _ _ hp => run_parallel hT hg h hp
  obtain ⟨hresult, hstate⟩ := hexecuted
  obtain ⟨u, hu, hu'⟩ := hstate.terminal
  refine ⟨hresult, ?_, ?_, ?_, hstate.calls⟩
  · rw [hu, hu']
  · rw [hu, hu']
  · rw [hu, hu']
    exact hreads

/-- Two answers to the prompt, of which the platform accepts neither. -/
theorem execute_hides_password_prompted :
    let g : Gateway Unit := .programmed { onUpdateBroker := some ⟨.error .invalidToken, ["old"]⟩ }
    let inv : Invocation := { args := ["broker", "admin", "https://broker.example.com"] }
    let input := "s3cret".toList.map some ++ [some '\n', some 'x']
    let input' := "hunter2".toList.map some ++ [some '\n', some 'x']
    let ending := command.execute g inv { loggedIn := true } (fun _ => none) { input } ()
    let ending' := command.execute g inv { loggedIn := true } (fun _ => none)
      { input := input' } ()
    g.IgnoresPassword ∧ SameButPassword inv (fun _ => none) input inv (fun _ => none) input' ∧
      ending.2.calls ≠ ending'.2.calls ∧
      ending.2.terminal.out = ending'.2.terminal.out ∧
      ending.2.terminal.err = ending'.2.terminal.err ∧
      List.Forall₂ Call.SameButPassword ending.2.calls ending'.2.calls := by
  intro g inv input input' ending ending'
  have hg : g.IgnoresPassword := fun _ _ _ _ _ _ => rfl
  have h : SameButPassword inv (fun _ => none) input inv (fun _ => none) input' :=
    .line (by decide) (by decide) (by decide) (.inr ⟨_, rfl⟩)
  obtain ⟨-, hout, herr, -, hcalls⟩ := execute_hides_password hg h { loggedIn := true } {} ()
  exact ⟨hg, h, by decide, hout, herr, hcalls⟩

end UpdateServiceBroker

end PlatformAdmin
