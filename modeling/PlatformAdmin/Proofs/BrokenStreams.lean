import PlatformAdmin.Proofs.Unattended

/-!
# Broken output streams

A write that fails is nobody's business but the user's: apart from prompts, no step of a command
looks whether its text was written.  Executions on a working and on a broken stream are compared
here side by side.  They do the same (`SameDeeds`), and the stream that works in both holds the same
text in the end.

For the secondary stream that is so in all cases (`CommandName.execute_on_broken_err`), since
prompts do not go there.  For the primary stream it is so where no prompt is shown
(`CommandName.execute_on_broken_out`).
-/

set_option autoImplicit false

namespace PlatformAdmin

variable {σ : Type}

/-! ## What is compared -/

/-- Two ends of runs that did the same: they have the same result, made the same calls, left the
same platform and read the same input. -/
structure SameDeeds (ending ending' : CommandResult × RunState σ) : Prop where
  result : ending.1 = ending'.1
  calls : ending.2.calls = ending'.2.calls
  remote : ending.2.remote = ending'.2.remote
  input : ending.2.terminal.input = ending'.2.terminal.input

namespace Terminal

/-- The same terminal, where each write to the primary stream fails with this text, or none. -/
def withOutFault (t : Terminal) (fault : Option String) : Terminal :=
  { t with faults := { t.faults with write := fault } }

/-- The same terminal, where each write to the secondary stream fails with this text, or none. -/
def withErrFault (t : Terminal) (fault : Option String) : Terminal :=
  { t with faults := { t.faults with writeErr := fault } }

/-- The same terminal twice, with a primary stream that works and with one that is broken and holds
what it held before. -/
def SameButOut (fault kept : String) (working broken : Terminal) : Prop :=
  ∃ t : Terminal, working = t.withOutFault none ∧
    broken = { t with out := kept }.withOutFault (some fault)

/-- The same for the secondary stream. -/
def SameButErr (fault kept : String) (working broken : Terminal) : Prop :=
  ∃ t : Terminal, working = t.withErrFault none ∧
    broken = { t with err := kept }.withErrFault (some fault)

/-! ## Output on a broken stream -/

variable {fault kept : String} {t t' : Terminal}

namespace SameButOut

/-- What is still to be read is the same. -/
theorem input_eq (h : SameButOut fault kept t t') : t.input = t'.input := by
  obtain ⟨u, rfl, rfl⟩ := h
  rfl

/-- What was written to the secondary stream is the same. -/
theorem err_eq (h : SameButOut fault kept t t') : t.err = t'.err := by
  obtain ⟨u, rfl, rfl⟩ := h
  rfl

/-- On the broken side nothing more was written to the primary stream. -/
theorem out_eq (h : SameButOut fault kept t t') : t'.out = kept := by
  obtain ⟨u, rfl, rfl⟩ := h
  rfl

/-- Whatever a command writes, two terminals differ in their primary streams only. -/
theorem keptByOutput : KeptByOutput (SameButOut fault kept) where
  say := by
    rintro _ _ ⟨u, rfl, rfl⟩ message
    have hbroken : ¬({ u with out := kept }.withOutFault (some fault)).Speaks := by
      rintro ⟨-, hwrite⟩
      cases hwrite
    rw [say_of_not_speaks hbroken]
    by_cases hspeaks : (u.withOutFault none).Speaks
    · exact ⟨{ u with out := u.out ++ (message ++ "\n") }, say_of_speaks hspeaks message, rfl⟩
    · exact ⟨u, say_of_not_speaks hspeaks message, rfl⟩
  warn := by
    rintro _ _ ⟨u, rfl, rfl⟩ message
    cases h : u.faults.writeErr with
    | some e => exact ⟨u, warn_of_broken (t := u.withOutFault none) h message,
        warn_of_broken (t := { u with out := kept }.withOutFault (some fault)) h message⟩
    | none =>
      exact ⟨{ u with err := u.err ++ (message ++ "\n") },
        warn_eq (t := u.withOutFault none) h message,
        warn_eq (t := { u with out := kept }.withOutFault (some fault)) h message⟩

end SameButOut

namespace SameButErr

/-- What is still to be read is the same. -/
theorem input_eq (h : SameButErr fault kept t t') : t.input = t'.input := by
  obtain ⟨u, rfl, rfl⟩ := h
  rfl

/-- What was written to the primary stream is the same. -/
theorem out_eq (h : SameButErr fault kept t t') : t.out = t'.out := by
  obtain ⟨u, rfl, rfl⟩ := h
  rfl

/-- On the broken side nothing more was written to the secondary stream. -/
theorem err_eq (h : SameButErr fault kept t t') : t'.err = kept := by
  obtain ⟨u, rfl, rfl⟩ := h
  rfl

/-- Whatever a command writes, two terminals differ in their secondary streams only. -/
theorem keptByOutput : KeptByOutput (SameButErr fault kept) where
  say := by
    rintro _ _ ⟨u, rfl, rfl⟩ message
    by_cases h : u.Speaks
    · exact ⟨{ u with out := u.out ++ (message ++ "\n") },
        say_of_speaks (t := u.withErrFault none) h message,
        say_of_speaks (t := { u with err := kept }.withErrFault (some fault)) h message⟩
    · exact ⟨u, say_of_not_speaks (t := u.withErrFault none) h message,
        say_of_not_speaks (t := { u with err := kept }.withErrFault (some fault)) h message⟩
  warn := by
    rintro _ _ ⟨u, rfl, rfl⟩ message
    exact ⟨{ u with err := u.err ++ (message ++ "\n") }, warn_eq rfl message,
      warn_of_broken rfl message⟩

end SameButErr

/-- No question notices that the secondary stream is broken. -/
theorem unnoticed_withErrFault (fault : Option String) : Unnoticed (·.withErrFault fault) :=
  ⟨fun _ => rfl, fun _ => rfl, fun _ => rfl, fun _ => rfl, fun _ => rfl, fun _ => rfl,
    fun _ _ => rfl, fun _ _ => rfl⟩

end Terminal

/-! ## Executions -/

section Executions

variable (name : CommandName) (g : Gateway σ) (inv : Invocation) (caps : Capabilities)
  (env : Environment) (t : Terminal) (remote : σ) (fault : String)

/-- The gates end alike whether the secondary stream works or is broken.  Prompts do not notice, and
the usage text is lost without notice. -/
theorem Declaration.clear_withErrFault (d : Declaration) :
    (d.clear inv caps env (t.withErrFault none)).1 =
        (d.clear inv caps env (t.withErrFault (some fault))).1 ∧
      Terminal.SameButErr fault t.err (d.clear inv caps env (t.withErrFault none)).2
        (d.clear inv caps env (t.withErrFault (some fault))).2 := by
  by_cases hsuits : d.Suits inv caps
  · have hclear : ∀ fault, d.clear inv caps env (t.withErrFault fault) =
        ((d.clear inv caps env t).1, (d.clear inv caps env t).2.withErrFault fault) :=
      fun fault => (Terminal.unnoticed_withErrFault fault).clear hsuits env t
    have hkept := (unmarked_clear caps env t hsuits.arguments).err
    rw [hclear, hclear]
    exact ⟨rfl, _, rfl, by rw [← hkept]⟩
  · obtain ⟨answer, hclear⟩ := exists_clear_of_not_suits hsuits env
    rw [hclear, hclear]
    exact ⟨rfl, Terminal.SameButErr.keptByOutput.clearArguments ⟨t, rfl, rfl⟩ d inv⟩

/-- With a broken secondary stream a command does what it does with a working one, and writes the
same to the primary stream. -/
theorem CommandName.execute_on_broken_err :
    let working := name.command.execute g inv caps env (t.withErrFault none) remote
    let broken := name.command.execute g inv caps env (t.withErrFault (some fault)) remote
    SameDeeds working broken ∧ working.2.terminal.out = broken.2.terminal.out ∧
      broken.2.terminal.err = t.err := by
  intro working broken
  obtain ⟨hgates, hterminals⟩ := name.declaration.clear_withErrFault inv caps env t fault
  obtain ⟨hresult, hbeside⟩ : working.1 = broken.1 ∧
      RunState.Beside (Terminal.SameButErr fault t.err) Eq Eq working.2 broken.2 :=
    execute_beside g remote Terminal.SameButErr.keptByOutput hgates hterminals
  exact ⟨⟨hresult, hbeside.calls_eq, hbeside.remote, hbeside.terminal.input_eq⟩,
    hbeside.terminal.out_eq, hbeside.terminal.err_eq⟩

variable {name inv caps env t} in
/-- With a broken primary stream a command that shows no prompt does what it does with a working
one, and writes the same to the secondary stream. -/
theorem CommandName.execute_on_broken_out
    (h : name.declaration.NeedsAnswer inv caps env → t.interactive = false) :
    let working := name.command.execute g inv caps env (t.withOutFault none) remote
    let broken := name.command.execute g inv caps env (t.withOutFault (some fault)) remote
    SameDeeds working broken ∧ working.2.terminal.err = broken.2.terminal.err ∧
      broken.2.terminal.out = t.out := by
  intro working broken
  have hsame : Terminal.SameButOut fault t.out (t.withOutFault none)
      (t.withOutFault (some fault)) := ⟨t, rfl, rfl⟩
  obtain ⟨hresult, hbeside⟩ : working.1 = broken.1 ∧
      RunState.Beside (Terminal.SameButOut fault t.out) Eq Eq working.2 broken.2 :=
    execute_beside_of_unasked g remote Terminal.SameButOut.keptByOutput hsame
      fun hneeds => ⟨h hneeds, h hneeds⟩
  exact ⟨⟨hresult, hbeside.calls_eq, hbeside.remote, hbeside.terminal.input_eq⟩,
    hbeside.terminal.err_eq, hbeside.terminal.out_eq⟩

end Executions

/-- A broken output stream never changes what a command does, nor what the other stream gets.  For
the primary stream that holds of every run that shows no prompt, because its gates get to none or
because it may not ask. -/
theorem CommandName.broken_stream_unnoticed (name : CommandName) (g : Gateway σ)
    (inv : Invocation) (caps : Capabilities) (env : Environment) (t : Terminal) (remote : σ)
    (fault : String) :
    (let working := name.command.execute g inv caps env (t.withErrFault none) remote
     let broken := name.command.execute g inv caps env (t.withErrFault (some fault)) remote
     SameDeeds working broken ∧ working.2.terminal.out = broken.2.terminal.out ∧
       broken.2.terminal.err = t.err) ∧
    ((name.declaration.NeedsAnswer inv caps env → t.interactive = false) →
      let working := name.command.execute g inv caps env (t.withOutFault none) remote
      let broken := name.command.execute g inv caps env (t.withOutFault (some fault)) remote
      SameDeeds working broken ∧ working.2.terminal.err = broken.2.terminal.err ∧
        broken.2.terminal.out = t.out) := by
  constructor
  · exact name.execute_on_broken_err g inv caps env t remote fault
  · exact fun h => execute_on_broken_out g remote fault h

/-- A forced deletion gets as far, and its failure is reported, when nothing can be written to the
primary stream. -/
theorem CommandName.broken_stream_unnoticed_deletion :
    let g : Gateway Unit := .programmed
      { onFindUser := some ⟨.success ⟨"guid", "ann"⟩, ["slow"]⟩
        onDeleteUser := some ⟨.error (.refused 403 "no permission"), []⟩ }
    let line : CommandLine := { command := .deleteUser, args := ["ann"], force := true }
    let caps : Capabilities := { loggedIn := true }
    let env : Environment := fun _ => none
    let t : Terminal := {}
    let broken := DeleteUser.command.execute g line.invocation caps env
      (t.withOutFault (some "broken pipe")) ()
    (DeleteUser.declaration.NeedsAnswer line.invocation caps env → t.interactive = false) ∧
      broken.1 = .failed (.platform (.refused 403 "no permission")) ∧
      broken.2.calls = [.findUser "ann", .deleteUser ⟨"guid", "ann"⟩] ∧
      broken.2.terminal.err = "slow\nFAILED\nno permission\n" ∧ broken.2.terminal.out = "" := by
  intro g line caps env t broken
  have hnot : DeleteUser.declaration.NeedsAnswer line.invocation caps env →
      t.interactive = false := by
    rintro ⟨-, hsome⟩
    exact absurd (by decide) hsome
  obtain ⟨-, hbroken⟩ :=
    broken_stream_unnoticed .deleteUser g line.invocation caps env t () "broken pipe"
  obtain ⟨hdeeds, herr, hout⟩ := hbroken hnot
  exact ⟨hnot, hdeeds.result.symm.trans (by decide), hdeeds.calls.symm.trans (by decide),
    herr.symm.trans (by decide), hout⟩

end PlatformAdmin
