import PlatformAdmin.Proofs.Reports

/-!
# A command line in its surroundings

A command line is executed in three steps.  The number of arguments is looked at first, and a
wrong one ends the run: what is found outside plays no part in it then, neither the environment
nor the configuration nor the platform.  The configuration is loaded next, and one that cannot be
loaded ends the run as well.  What is left is the execution of the command on the gateway and with
the capabilities of that configuration.

`CommandLine.executeIn_refines_execute` puts this together: in each of the three cases it says what
the run comes to, to the last detail of its final state.  The number of arguments is looked at
again by the gates of the command, but a wrong one is never reported twice.
-/

set_option autoImplicit false

namespace PlatformAdmin

variable {σ τ : Type}

/-! ## Runs that only report -/

/-- The run made no call, left the platform as it was, read nothing and wrote nothing but this
text, to the secondary stream if that works. -/
structure RunState.OnlyReports (s : RunState σ) (t : Terminal) (remote : σ) (text : String) :
    Prop where
  calls : s.calls = []
  remote : s.remote = remote
  input : s.terminal.input = t.input
  out : s.terminal.out = t.out
  err : s.terminal.err = if t.faults.writeErr = none then t.err ++ text else t.err

/-- A warning leaves the input alone. -/
theorem Terminal.warn_input (t : Terminal) (message : String) :
    (t.warn message).input = t.input := by
  unfold warn
  split <;> rfl

/-- A warning on a broken stream leaves the terminal as it is. -/
theorem Terminal.warn_of_broken {t : Terminal} {fault : String}
    (h : t.faults.writeErr = some fault) (message : String) : t.warn message = t := by
  simp only [warn, h]

/-- All reports are made of two lines. -/
theorem RunState.onlyReports_warn (t : Terminal) (first second : String) (remote : σ) :
    RunState.OnlyReports { terminal := (t.warn first).warn second, remote } t remote
      (first ++ "\n" ++ (second ++ "\n")) := by
  refine ⟨rfl, rfl, ?_, ?_, ?_⟩
  · exact (Terminal.warn_input _ _).trans (Terminal.warn_input _ _)
  · exact (Terminal.warn_out _ _).trans (Terminal.warn_out _ _)
  · show ((t.warn first).warn second).err = _
    cases h : t.faults.writeErr with
    | none =>
      have hfaults : (t.warn first).faults.writeErr = none := by
        rw [Terminal.warn_faults]
        exact h
      rw [Terminal.warn_err hfaults, Terminal.warn_err h, String.append_assoc]
      rfl
    | some fault =>
      rw [Terminal.warn_of_broken h, Terminal.warn_of_broken h]
      rfl

/-! ## The number of arguments -/

namespace CommandName

/-- The numbers of arguments that a command allows. -/
def argumentCounts : CommandName → List Nat
  | .deleteUser => [1]
  | .updateServiceBroker => [3, 4]

/-- What a command needs. -/
def declaration : CommandName → Declaration
  | .deleteUser => DeleteUser.declaration
  | .updateServiceBroker => UpdateServiceBroker.declaration

/-- The declaration of a command is that of its name. -/
@[simp] theorem command_toDeclaration (name : CommandName) :
    (name.command : Command σ).toDeclaration = name.declaration := by
  cases name <;> rfl

/-- The count of arguments is checked against what the command takes. -/
theorem checkArguments_eq (name : CommandName) (inv : Invocation) :
    name.declaration.checkArguments inv = inv.checkCount name.word name.argumentCounts := by
  cases name <;> rfl

section Executions

variable (name : CommandName) (g : Gateway σ) {inv : Invocation} {caps : Capabilities}
  {env : Environment} {t t' : Terminal} (remote : σ)

/-- The gates of a command are those of its declaration. -/
theorem clear_eq (inv : Invocation) (caps : Capabilities) (env : Environment) (t : Terminal) :
    (name.command : Command σ).clear inv caps env t = name.declaration.clear inv caps env t := by
  rw [command_toDeclaration]

/-- Where the gates stop an execution, it ends with what they say. -/
theorem execute_of_clear_eq_error {stop : EarlyEnd}
    (h : name.declaration.clear inv caps env t = (.error stop, t')) :
    name.command.execute g inv caps env t remote =
      (stop.result, { terminal := (t'.conclude (.error stop)).2, remote }) :=
  Command.execute_of_clear_eq_error _ g remote ((name.clear_eq inv caps env t).trans h)

/-- Where the gates admit an execution, it ends with what the run concludes. -/
theorem execute_of_admits {credentials : Credentials}
    (h : name.declaration.Admits inv caps env t credentials t') :
    name.command.execute g inv caps env t remote =
      Command.concluded (name.command.run g inv credentials { terminal := t', remote }).1
        (name.command.run g inv credentials { terminal := t', remote }).2 :=
  Command.execute_of_clear_eq_ok _ g remote
    ((name.clear_eq inv caps env t).trans (Declaration.clear_eq_ok_iff.mpr h))

end Executions

end CommandName

namespace CommandLine

/-- The terminal on which a command line is executed. -/
def terminal (line : CommandLine) (faults : StreamFaults) (input : List (Option Char)) :
    Terminal :=
  { toManner := line.manner, input, faults }

/-- What is wrong with a wrong number of arguments. -/
def countError (line : CommandLine) : ArgumentCountError :=
  ⟨line.command.word, Invocation.countsInWords line.command.argumentCounts, line.args.length⟩

/-- The arguments of an invocation are those of the command line. -/
theorem invocation_size (line : CommandLine) : line.invocation.size = line.args.length := by
  unfold invocation
  cases line.command <;> rfl

/-- A count of arguments that the command takes passes. -/
theorem checkArguments_of_mem {line : CommandLine}
    (h : line.args.length ∈ line.command.argumentCounts) :
    line.command.declaration.checkArguments line.invocation = .ok () := by
  rw [CommandName.checkArguments_eq, Invocation.checkCount, invocation_size]
  exact if_pos h

/-- A count of arguments that the command does not take is reported. -/
theorem checkArguments_of_not_mem {line : CommandLine}
    (h : line.args.length ∉ line.command.argumentCounts) :
    line.command.declaration.checkArguments line.invocation = .error line.countError := by
  rw [CommandName.checkArguments_eq, Invocation.checkCount, invocation_size]
  exact if_neg h

/-! ## The three cases -/

variable {line : CommandLine} {w : Surroundings} (net : Http.Network σ)
  (input : List (Option Char)) (remote : σ)

/-- A wrong number of arguments is reported before anything else is looked at. -/
theorem executeIn_of_not_mem (h : line.args.length ∉ line.command.argumentCounts) :
    line.executeIn w net input remote =
      (.failed (.usage line.countError),
        { terminal := (line.terminal w.faults input).showUsage line.command.declaration.usage,
          remote }) := by
  simp only [executeIn, Command.executeIn, Declaration.clearArguments,
    CommandName.command_toDeclaration, checkArguments_of_not_mem h]
  rfl

/-- The gates of the command report it in the same way. -/
theorem execute_of_not_mem (h : line.args.length ∉ line.command.argumentCounts)
    (g : Gateway σ) (caps : Capabilities) (env : Environment) (t : Terminal) :
    line.command.command.execute g line.invocation caps env t remote =
      (.failed (.usage line.countError),
        { terminal := t.showUsage line.command.declaration.usage, remote }) := by
  have hclear : line.command.declaration.clear line.invocation caps env t =
      (.error (.usageShown (.usage line.countError)),
        t.showUsage line.command.declaration.usage) := by
    simp only [Declaration.clear, Declaration.clearArguments, checkArguments_of_not_mem h]
  exact line.command.execute_of_clear_eq_error g remote hclear

/-- With the right count of arguments, a configuration that cannot be loaded is reported. -/
theorem executeIn_of_config_eq_error {e : ConfigError}
    (h : line.args.length ∈ line.command.argumentCounts) (hconfig : w.config = .error e) :
    line.executeIn w net input remote =
      (.failed (.configuration e),
        { terminal := (line.terminal w.faults input).failed e.message, remote }) := by
  simp only [executeIn, Command.executeIn, Declaration.clearArguments,
    CommandName.command_toDeclaration, checkArguments_of_mem h, hconfig]
  rfl

/-- Otherwise the command is executed, on the gateway and with the capabilities of the
configuration. -/
theorem executeIn_of_config_eq_ok {config : Config}
    (h : line.args.length ∈ line.command.argumentCounts) (hconfig : w.config = .ok config) :
    line.executeIn w net input remote =
      line.command.command.execute (Gateway.ofConfig net config) line.invocation
        config.capabilities w.env (line.terminal w.faults input) remote := by
  simp only [executeIn, Command.executeIn, Declaration.clearArguments,
    CommandName.command_toDeclaration, checkArguments_of_mem h, hconfig]
  rfl

end CommandLine

/-- A wrong number of arguments is reported, once and with nothing else, wherever the command line
is executed; and an execution on any gateway reports it in the same way.  With a right number and
a configuration, the command line does what the execution of its command does; without a
configuration, it reports that. -/
theorem CommandLine.executeIn_refines_execute (line : CommandLine) (w : Surroundings)
    (net : Http.Network σ) (input : List (Option Char)) (remote : σ) :
    let t := line.terminal w.faults input
    let cmd : Command σ := line.command.command
    let ending := line.executeIn w net input remote
    (line.args.length ∉ line.command.argumentCounts →
      ending.1 = .failed (.usage line.countError) ∧
      ending.2.OnlyReports t remote ("Incorrect Usage.\n" ++ "\n" ++ (cmd.usage ++ "\n")) ∧
      (∀ g caps env, cmd.execute g line.invocation caps env t remote = ending) ∧
      ∀ {τ : Type} (w' : Surroundings) (net' : Http.Network τ) (remote' : τ),
        w'.faults = w.faults →
          let other := line.executeIn w' net' input remote'
          other.1 = ending.1 ∧ other.2.terminal = ending.2.terminal ∧ other.2.calls = [] ∧
            other.2.remote = remote') ∧
    (line.args.length ∈ line.command.argumentCounts →
      (∀ config, w.config = .ok config →
        ending = cmd.execute (Gateway.ofConfig net config) line.invocation config.capabilities
          w.env t remote) ∧
      ∀ e, w.config = .error e →
        ending.1 = .failed (.configuration e) ∧
        ending.2.OnlyReports t remote ("FAILED" ++ "\n" ++ (e.message ++ "\n"))) := by
  intro t cmd ending
  refine ⟨fun hwrong => ?_, fun hright => ⟨fun config hconfig => ?_, fun e hconfig => ?_⟩⟩
  · have hending : ending = _ := executeIn_of_not_mem net input remote hwrong
    have husage : cmd.usage = line.command.declaration.usage :=
      congrArg Declaration.usage line.command.command_toDeclaration
    refine ⟨?_, ?_, fun g caps env => ?_, fun w' net' remote' hfaults => ?_⟩
    · rw [hending]
    · rw [hending, husage]
      exact RunState.onlyReports_warn t _ _ remote
    · rw [hending]
      exact execute_of_not_mem remote hwrong g caps env t
    · -- the other run ends in the same way, and its final state names no surroundings
      intro other
      have hother : other = _ := executeIn_of_not_mem net' input remote' hwrong
      rw [hending, hother, hfaults]
      exact ⟨rfl, rfl, rfl, rfl⟩
  · exact executeIn_of_config_eq_ok net input remote hright hconfig
  · have hending : ending = _ := executeIn_of_config_eq_error net input remote hright hconfig
    rw [hending]
    exact ⟨rfl, RunState.onlyReports_warn t _ _ remote⟩

/-- Two names are one too many, with a home directory or without one.  One name is right: without a
home directory there is no configuration, and with one it is the default configuration. -/
theorem CommandLine.executeIn_refines_execute_deleteUser :
    let line : List String → CommandLine := fun args => { command := .deleteUser, args }
    let homeless : Surroundings := { env := fun _ => none }
    let housed : Surroundings := { env := fun _ => some "/home/ann" }
    let ending := fun args w => (line args).executeIn w (.down : Http.Network Unit) [] ()
    (["ann", "bob"].length ∉ CommandName.deleteUser.argumentCounts ∧
      (ending ["ann", "bob"] homeless).1 = .failed (.usage ⟨"delete-user", "1", 2⟩) ∧
      housed.faults = homeless.faults ∧
      (ending ["ann", "bob"] housed).1 = (ending ["ann", "bob"] homeless).1) ∧
    ["ann"].length ∈ CommandName.deleteUser.argumentCounts ∧
      (homeless.config = .error .noHomeDirectory ∧
        (ending ["ann"] homeless).1 = .failed (.configuration .noHomeDirectory)) ∧
      housed.config = .ok {} ∧
      ending ["ann"] housed =
        DeleteUser.command.execute (Gateway.ofConfig .down {}) (line ["ann"]).invocation
          (Config.capabilities {}) housed.env ((line ["ann"]).terminal {} []) () := by
  intro line homeless housed ending
  have hwrong : ["ann", "bob"].length ∉ CommandName.deleteUser.argumentCounts := by decide
  have hright : ["ann"].length ∈ CommandName.deleteUser.argumentCounts := by decide
  have hhomeless : homeless.config = .error .noHomeDirectory := rfl
  have hhoused : housed.config = .ok {} := rfl
  obtain ⟨husage, -⟩ :=
    executeIn_refines_execute (line ["ann", "bob"]) homeless (.down : Http.Network Unit) [] ()
  obtain ⟨hresult, -, -, hother⟩ := husage hwrong
  obtain ⟨-, hone⟩ :=
    executeIn_refines_execute (line ["ann"]) homeless (.down : Http.Network Unit) [] ()
  obtain ⟨-, hloaded⟩ :=
    executeIn_refines_execute (line ["ann"]) housed (.down : Http.Network Unit) [] ()
  refine ⟨⟨hwrong, hresult, rfl, ?_⟩, hright, ⟨hhomeless, ?_⟩, hhoused, ?_⟩
  · exact (hother housed (.down : Http.Network Unit) () rfl).1
  · exact ((hone hright).2 _ hhomeless).1
  · exact (hloaded hright).1 _ hhoused

end PlatformAdmin
