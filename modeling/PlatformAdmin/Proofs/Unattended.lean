import PlatformAdmin.Proofs.Progress

/-!
# Runs that may not ask

Nobody may be there to answer, and then a command line says so.  Its runs are compared here with
those of the same command line that may ask: `CommandLine.AsksIf` states how both depend on
whether an answer is needed.  If one is needed, a run that may not ask fails before anything is
called.  If none is needed, both runs come to the same.  In either case a run that may not ask has
read nothing and has written no prompt, so that its input makes no difference.

The reason lies in the gates alone.  They get to a prompt in the same cases, whether they may show
it or not, and where they do not, they end in the same way on every terminal; what comes after them
writes, but asks nothing.
-/

set_option autoImplicit false

namespace PlatformAdmin

variable {σ : Type}

/-! ## What is compared -/

/-- Two ends of runs that nobody can tell apart: neither by the result and the output, nor by the
calls and what has become of the platform. -/
structure SameFromOutside (ending ending' : CommandResult × RunState σ) : Prop where
  result : ending.1 = ending'.1
  out : ending.2.terminal.out = ending'.2.terminal.out
  err : ending.2.terminal.err = ending'.2.terminal.err
  calls : ending.2.calls = ending'.2.calls
  remote : ending.2.remote = ending'.2.remote

namespace CommandLine

/-- The same command line, with or without leave to ask. -/
def withLeave (line : CommandLine) (mayAsk : Bool) : CommandLine :=
  { line with noInteractive := !mayAsk }

/-- Runs of a command line, given by whether they may ask and by their input, ask for answers
exactly if some are needed. -/
structure AsksIf (line : CommandLine) (env : Environment) (faults : StreamFaults) (remote : σ)
    (needed : Prop) (run : Bool → List (Option Char) → CommandResult × RunState σ) : Prop where
  /-- Prompts are written if an answer is needed and the run can ask for it.  All else on the
  primary stream are lines of progress. -/
  prompts : ∀ mayAsk input, ∃ shown replies,
    shown <+: line.command.declaration.prompts line.invocation env ∧
      (shown ≠ [] ↔ needed ∧ mayAsk = true ∧ faults.write = none) ∧
      (run mayAsk input).2.terminal.out = String.join shown ++
        if line.quiet = false ∧ faults.write = none then
          Text.inLines (line.command.lines line.invocation (run mayAsk input).1 replies)
        else ""
  /-- A run that may not ask reads nothing. -/
  unread : ∀ input, (run false input).2.terminal.input = input
  /-- Its input makes no difference. -/
  blind : ∀ input input', SameFromOutside (run false input) (run false input')
  /-- It fails if an answer is needed, and calls nobody. -/
  refused : needed → ∀ input, (run false input).1 = .failed (.question .notAllowed) ∧
    (run false input).2.calls = [] ∧ (run false input).2.remote = remote
  /-- If none is needed, it makes no difference whether the run may ask. -/
  unasked : ¬needed → ∀ input, SameFromOutside (run true input) (run false input)

end CommandLine

/-! ## Terminals that differ in their answers -/

/-- The same terminal twice, with different leave to ask and different input. -/
def Terminal.SameButAnswers (mayAsk mayAsk' : Bool) (input input' : List (Option Char))
    (t t' : Terminal) : Prop :=
  ∃ u : Terminal, t = { u with interactive := mayAsk, input } ∧
    t' = { u with interactive := mayAsk', input := input' }

namespace Terminal.SameButAnswers

variable {mayAsk mayAsk' : Bool} {input input' : List (Option Char)} {t t' : Terminal}

/-- The first terminal has its own input. -/
theorem input_eq (h : SameButAnswers mayAsk mayAsk' input input' t t') : t.input = input := by
  obtain ⟨u, rfl, rfl⟩ := h
  rfl

/-- What was written to the primary stream is the same. -/
theorem out_eq (h : SameButAnswers mayAsk mayAsk' input input' t t') : t.out = t'.out := by
  obtain ⟨u, rfl, rfl⟩ := h
  rfl

/-- What was written to the secondary stream is the same. -/
theorem err_eq (h : SameButAnswers mayAsk mayAsk' input input' t t') : t.err = t'.err := by
  obtain ⟨u, rfl, rfl⟩ := h
  rfl

/-- Whatever a command writes, two terminals differ in leave and input only. -/
theorem keptByOutput : KeptByOutput (SameButAnswers mayAsk mayAsk' input input') where
  say := by
    rintro _ _ ⟨u, rfl, rfl⟩ message
    have hspeaks : ∀ mayAsk input,
        ({ u with interactive := mayAsk, input } : Terminal).Speaks ↔ u.Speaks :=
      fun _ _ => Iff.rfl
    by_cases h : u.Speaks
    · exact ⟨{ u with out := u.out ++ (message ++ "\n") },
        say_of_speaks ((hspeaks _ _).mpr h) message, say_of_speaks ((hspeaks _ _).mpr h) message⟩
    · exact ⟨u, say_of_not_speaks (mt (hspeaks _ _).mp h) message,
        say_of_not_speaks (mt (hspeaks _ _).mp h) message⟩
  warn := by
    rintro _ _ ⟨u, rfl, rfl⟩ message
    unfold warn
    cases u.faults.writeErr with
    | some fault => exact ⟨u, rfl, rfl⟩
    | none => exact ⟨{ u with err := u.err ++ message ++ "\n" }, rfl, rfl⟩

end Terminal.SameButAnswers

/-! ## Executions -/

namespace CommandName

variable {name : CommandName} {g : Gateway σ} {inv : Invocation} {caps : Capabilities}
  {env : Environment} {t t' : Terminal} {remote : σ}

/-- Executions whose gates end alike come to the same, and their terminals stay related as they
are after the gates, if output keeps the relation. -/
theorem execute_beside (g : Gateway σ) (remote : σ) {T : Terminal → Terminal → Prop}
    (hT : Terminal.KeptByOutput T)
    (hgates : (name.declaration.clear inv caps env t).1 =
      (name.declaration.clear inv caps env t').1)
    (hterminals : T (name.declaration.clear inv caps env t).2
      (name.declaration.clear inv caps env t').2) :
    (name.command.execute g inv caps env t remote).1 =
        (name.command.execute g inv caps env t' remote).1 ∧
      RunState.Beside T Eq Eq (name.command.execute g inv caps env t remote).2
        (name.command.execute g inv caps env t' remote).2 := by
  refine Command.execute_parallel (K := Eq) hT ?_ ?_ rfl (fun _ _ h => h) ?_
  · rw [name.clear_eq, name.clear_eq, hgates]
    exact .refl _
  · rw [name.clear_eq, name.clear_eq]
    exact hterminals
  · rintro credentials _ rfl
    exact name.run_parallel hT (fun _ => rfl) g.answersAlike_eq inv credentials

/-- Where the gates get to no prompt that may be shown, their terminals need only be related. -/
theorem execute_beside_of_unasked (g : Gateway σ) (remote : σ)
    {T : Terminal → Terminal → Prop} (hT : Terminal.KeptByOutput T) (hsame : T t t')
    (h : name.declaration.NeedsAnswer inv caps env →
      t.interactive = false ∧ t'.interactive = false) :
    (name.command.execute g inv caps env t remote).1 =
        (name.command.execute g inv caps env t' remote).1 ∧
      RunState.Beside T Eq Eq (name.command.execute g inv caps env t remote).2
        (name.command.execute g inv caps env t' remote).2 := by
  by_cases hneeds : name.declaration.NeedsAnswer inv caps env
  · have hclear := Declaration.clear_of_needsAnswer hneeds (h hneeds).1
    have hclear' := Declaration.clear_of_needsAnswer hneeds (h hneeds).2
    apply execute_beside g remote hT <;> rw [hclear, hclear']
    exact hsame
  · obtain ⟨answer, hclear⟩ := Declaration.exists_clear_of_not_needsAnswer hneeds
    apply execute_beside g remote hT <;> rw [hclear, hclear]
    exact hT.clearArguments hsame name.declaration inv

/-- Where the gates get to no prompt, executions on two such terminals stay side by side. -/
theorem execute_of_not_needsAnswer {mayAsk mayAsk' : Bool} {input input' : List (Option Char)}
    (h : ¬name.declaration.NeedsAnswer inv caps env)
    (hsame : Terminal.SameButAnswers mayAsk mayAsk' input input' t t') :
    SameFromOutside (name.command.execute g inv caps env t remote)
        (name.command.execute g inv caps env t' remote) ∧
      (name.command.execute g inv caps env t remote).2.terminal.input = input := by
  obtain ⟨hresult, hbeside⟩ := execute_beside_of_unasked g remote
    Terminal.SameButAnswers.keptByOutput hsame fun hneeds => absurd hneeds h
  exact ⟨⟨hresult, hbeside.terminal.out_eq, hbeside.terminal.err_eq, hbeside.calls_eq,
    hbeside.remote⟩, hbeside.terminal.input_eq⟩

/-- Where they get to one that may not be shown, the refusal is all that is reported. -/
theorem execute_of_needsAnswer (h : name.declaration.NeedsAnswer inv caps env)
    (ht : t.interactive = false) :
    (name.command.execute g inv caps env t remote).1 = .failed (.question .notAllowed) ∧
      (name.command.execute g inv caps env t remote).2.OnlyReports t remote
        ("FAILED" ++ "\n" ++ (QuestionError.notAllowed.message ++ "\n")) := by
  rw [name.execute_of_clear_eq_error g remote (Declaration.clear_of_needsAnswer h ht)]
  exact ⟨rfl, RunState.onlyReports_warn t _ _ remote⟩

end CommandName

/-- Runs that report the same, and nothing else, look the same. -/
theorem SameFromOutside.of_onlyReports {ending ending' : CommandResult × RunState σ}
    {t t' : Terminal} {remote : σ} {text : String} (hresult : ending.1 = ending'.1)
    (h : ending.2.OnlyReports t remote text) (h' : ending'.2.OnlyReports t' remote text)
    (hout : t.out = t'.out) (herr : t.err = t'.err) (hfaults : t.faults = t'.faults) :
    SameFromOutside ending ending' := by
  refine ⟨hresult, ?_, ?_, h.calls.trans h'.calls.symm, h.remote.trans h'.remote.symm⟩
  · exact (h.out.trans hout).trans h'.out.symm
  · rw [h.err, h'.err, herr, hfaults]

namespace CommandLine

variable {line : CommandLine} {env : Environment} {faults : StreamFaults} {remote : σ}

/-- Two terminals of one command line differ in leave and input only. -/
theorem terminal_sameButAnswers (line : CommandLine) (faults : StreamFaults)
    (mayAsk mayAsk' : Bool) (input input' : List (Option Char)) :
    Terminal.SameButAnswers mayAsk mayAsk' input input'
      ((line.withLeave mayAsk).terminal faults input)
      ((line.withLeave mayAsk').terminal faults input') := by
  refine ⟨line.terminal faults [], ?_, ?_⟩
  · cases mayAsk <;> rfl
  · cases mayAsk' <;> rfl

/-- A command line that comes to the same report in any case asks nothing. -/
theorem AsksIf.of_onlyReports {needed : Prop} (hneeded : ¬needed) {e : Failure} {text : String}
    {run : Bool → List (Option Char) → CommandResult × RunState σ}
    (hresult : ∀ mayAsk input, (run mayAsk input).1 = .failed e)
    (hreports : ∀ mayAsk input, (run mayAsk input).2.OnlyReports
      ((line.withLeave mayAsk).terminal faults input) remote text) :
    line.AsksIf env faults remote needed run := by
  have hsame : ∀ mayAsk mayAsk' input input',
      SameFromOutside (run mayAsk input) (run mayAsk' input') := by
    intro mayAsk mayAsk' input input'
    apply SameFromOutside.of_onlyReports _ (hreports mayAsk input) (hreports mayAsk' input')
      rfl rfl rfl
    rw [hresult, hresult]
  refine ⟨fun mayAsk input => ⟨[], [], List.nil_prefix, ?_, ?_⟩, ?_, ?_, ?_, ?_⟩
  · simp [hneeded]
  · have hlines : line.command.lines line.invocation (.failed e) [] = [] :=
      line.command.lines_nil line.invocation rfl
    rw [(hreports mayAsk input).out, hresult, hlines, Text.inLines, ite_self]
    rfl
  · exact fun input => (hreports false input).input
  · exact fun input input' => hsame false false input input'
  · exact fun h => absurd h hneeded
  · exact fun _ input => hsame true false input input

/-- A terminal is interactive if it has leave to ask. -/
theorem withLeave_interactive (line : CommandLine) (faults : StreamFaults) (mayAsk : Bool)
    (input : List (Option Char)) :
    ((line.withLeave mayAsk).terminal faults input).interactive = mayAsk :=
  Bool.not_not mayAsk

/-- Executions ask exactly if their gates get to a prompt. -/
theorem asksIf_execute (line : CommandLine) (g : Gateway σ) (caps : Capabilities)
    (env : Environment) (faults : StreamFaults) (remote : σ) :
    line.AsksIf env faults remote
      (line.command.declaration.NeedsAnswer line.invocation caps env) fun mayAsk input =>
        line.command.command.execute g line.invocation caps env
          ((line.withLeave mayAsk).terminal faults input) remote := by
  let run : Bool → List (Option Char) → CommandResult × RunState σ := fun mayAsk input =>
    line.command.command.execute g line.invocation caps env
      ((line.withLeave mayAsk).terminal faults input) remote
  have hrefused : line.command.declaration.NeedsAnswer line.invocation caps env → ∀ input,
      (run false input).1 = .failed (.question .notAllowed) ∧ (run false input).2.OnlyReports
        ((line.withLeave false).terminal faults input) remote _ :=
    fun h input => CommandName.execute_of_needsAnswer h
      (line.withLeave_interactive faults false input)
  have hunasked : ¬line.command.declaration.NeedsAnswer line.invocation caps env →
      ∀ mayAsk mayAsk' input input', SameFromOutside (run mayAsk input) (run mayAsk' input') ∧
        (run mayAsk input).2.terminal.input = input :=
    fun h mayAsk mayAsk' input input' => CommandName.execute_of_not_needsAnswer h
      (line.terminal_sameButAnswers faults mayAsk mayAsk' input input')
  show line.AsksIf env faults remote _ run
  refine ⟨fun mayAsk input => ?_, fun input => ?_, fun input input' => ?_, fun h input => ?_,
    fun h input => ?_⟩
  · obtain ⟨shown, hshown, hclear⟩ := line.command.declaration.exists_shows line.invocation caps
      env ((line.withLeave mayAsk).terminal faults input)
    have hany := hshown.any_iff
    have hout := line.command.execute_out g line.invocation caps env
      ((line.withLeave mayAsk).terminal faults input) remote
    rw [line.withLeave_interactive] at hany
    rw [hclear] at hout
    exact ⟨shown, g.responses (run mayAsk input).2.calls remote, hshown.in_order, hany, hout⟩
  · by_cases h : line.command.declaration.NeedsAnswer line.invocation caps env
    · exact (hrefused h input).2.input
    · exact (hunasked h false false input input).2
  · by_cases h : line.command.declaration.NeedsAnswer line.invocation caps env
    · obtain ⟨hresult, hreports⟩ := hrefused h input
      obtain ⟨hresult', hreports'⟩ := hrefused h input'
      exact .of_onlyReports (hresult.trans hresult'.symm) hreports hreports' rfl rfl rfl
    · exact (hunasked h false false input input').1
  · obtain ⟨hresult, hreports⟩ := hrefused h input
    exact ⟨hresult, hreports.calls, hreports.remote⟩
  · exact (hunasked h true false input input).1

/-- So do runs in their surroundings, if these hold a configuration for the gates to look at. -/
theorem asksIf_executeIn (line : CommandLine) (w : Surroundings) (net : Http.Network σ)
    (remote : σ) :
    line.AsksIf w.env w.faults remote
      (∃ config, w.config = .ok config ∧
        line.command.declaration.NeedsAnswer line.invocation config.capabilities w.env)
      fun mayAsk input => (line.withLeave mayAsk).executeIn w net input remote := by
  by_cases hcount : line.args.length ∈ line.command.argumentCounts
  · have hcount' : ∀ mayAsk, (line.withLeave mayAsk).args.length ∈
        (line.withLeave mayAsk).command.argumentCounts := fun _ => hcount
    cases hconfig : w.config with
    | error e =>
      have hending := fun mayAsk input =>
        executeIn_of_config_eq_error net input remote (hcount' mayAsk) hconfig
      have hreports : ∀ mayAsk input,
          ((line.withLeave mayAsk).executeIn w net input remote).2.OnlyReports
            ((line.withLeave mayAsk).terminal w.faults input) remote
            ("FAILED" ++ "\n" ++ (e.message ++ "\n")) := by
        intro mayAsk input
        rw [hending]
        exact RunState.onlyReports_warn _ _ _ remote
      exact .of_onlyReports nofun (fun mayAsk input => by rw [hending]) hreports
    | ok config =>
      have hending := fun mayAsk input =>
        executeIn_of_config_eq_ok net input remote (hcount' mayAsk) hconfig
      simp only [hending, Except.ok.injEq, exists_eq_left']
      exact line.asksIf_execute (Gateway.ofConfig net config) config.capabilities w.env w.faults
        remote
  · have hending := fun mayAsk input =>
      executeIn_of_not_mem (w := w) net input remote
        (show (line.withLeave mayAsk).args.length ∉ _ from hcount)
    have hreports : ∀ mayAsk input,
        ((line.withLeave mayAsk).executeIn w net input remote).2.OnlyReports
          ((line.withLeave mayAsk).terminal w.faults input) remote
          ("Incorrect Usage.\n" ++ "\n" ++ (line.command.declaration.usage ++ "\n")) := by
      intro mayAsk input
      rw [hending]
      exact RunState.onlyReports_warn _ _ _ remote
    refine .of_onlyReports (e := .usage line.countError) ?_ (fun mayAsk input => ?_) hreports
    · -- with a wrong number of arguments the gates get to no prompt
      rintro ⟨config, -, hsuits, -⟩
      have harguments := hsuits.arguments
      rw [checkArguments_of_not_mem hcount] at harguments
      cases harguments
    · rw [hending]
      rfl

end CommandLine

/-- Whether questions may be asked matters only where an answer is needed, both for the execution
of a command on any gateway and for a command line in any surroundings. -/
theorem CommandLine.asks_only_if_needed (line : CommandLine) (remote : σ) :
    (∀ (g : Gateway σ) (caps : Capabilities) (env : Environment) (faults : StreamFaults),
      line.AsksIf env faults remote
        (line.command.declaration.NeedsAnswer line.invocation caps env) fun mayAsk input =>
          line.command.command.execute g line.invocation caps env
            ((line.withLeave mayAsk).terminal faults input) remote) ∧
    ∀ (w : Surroundings) (net : Http.Network σ),
      line.AsksIf w.env w.faults remote
        (∃ config, w.config = .ok config ∧
          line.command.declaration.NeedsAnswer line.invocation config.capabilities w.env)
        fun mayAsk input => (line.withLeave mayAsk).executeIn w net input remote := by
  constructor
  · intro g caps env faults
    exact line.asksIf_execute g caps env faults remote
  · intro w net
    exact line.asksIf_executeIn w net remote

/-- A deletion needs an answer unless it is forced. -/
theorem CommandLine.asks_only_if_needed_deletion :
    let line := fun force => ({ command := .deleteUser, args := ["ann"], force } : CommandLine)
    let caps : Capabilities := { loggedIn := true }
    let env : Environment := fun _ => none
    let yes := "y".toList.map some
    let run := fun force mayAsk =>
      DeleteUser.command.execute (.programmed {} : Gateway Unit) (line force).invocation caps env
        (((line force).withLeave mayAsk).terminal {} yes) ()
    (DeleteUser.declaration.NeedsAnswer (line false).invocation caps env ∧
      (run false true).1 = .ok none ∧
      (run false false).1 = .failed (.question .notAllowed)) ∧
    ¬DeleteUser.declaration.NeedsAnswer (line true).invocation caps env ∧
      (run true true).1 = .ok none ∧ SameFromOutside (run true true) (run true false) := by
  intro line caps env yes run
  have hsuits : DeleteUser.declaration.Suits (line false).invocation caps := by
    refine ⟨rfl, fun c hc => ?_, fun c hc => ?_⟩
    · cases c <;> first | rfl | cases hc
    · obtain rfl := List.mem_singleton.mp hc
      rfl
  have hneeds : DeleteUser.declaration.NeedsAnswer (line false).invocation caps env :=
    ⟨hsuits, by decide⟩
  have hnot : ¬DeleteUser.declaration.NeedsAnswer (line true).invocation caps env := by
    rintro ⟨-, hsome⟩
    exact hsome (by decide)
  obtain ⟨hunforced, -⟩ := asks_only_if_needed (line false) ()
  obtain ⟨hforced, -⟩ := asks_only_if_needed (line true) ()
  refine ⟨⟨hneeds, by decide, ?_⟩, hnot, by decide, ?_⟩
  · exact ((hunforced (.programmed {}) caps env {}).refused hneeds yes).1
  · exact (hforced (.programmed {}) caps env {}).unasked hnot yes

end PlatformAdmin
