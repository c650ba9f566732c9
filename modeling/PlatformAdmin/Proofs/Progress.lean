import PlatformAdmin.Proofs.Agreement
import PlatformAdmin.Proofs.Prompts
import PlatformAdmin.Proofs.Surroundings
import PlatformAdmin.Proofs.TwoRuns
import PlatformAdmin.Proofs.Unnoticed

/-!
# Progress

After the prompts of its gates a command writes at most two lines to the primary stream: one that
announces what it is about to do, and the mark of success.  `CommandName.lines` says which of them
belong to a result and the replies that led to it, and `CommandName.execute_out` that they are all
that is written there, on a terminal that is not quiet and whose stream works.

Nothing else depends on whether the terminal is quiet.  The gates never look at it, and the bodies
only hand their lines over, so that two executions can be followed side by side which differ in it:
`CommandName.execute_quietly`.
-/

set_option autoImplicit false

namespace PlatformAdmin

variable {σ : Type}

/-! ## Lines on the primary stream -/

namespace Terminal

/-- Writes lines of progress, one after the other. -/
def sayAll (t : Terminal) (lines : List String) : Terminal :=
  lines.foldl say t

variable {t : Terminal}

/-- A terminal that does not speak writes no lines. -/
theorem sayAll_of_not_speaks (h : ¬t.Speaks) (lines : List String) : t.sayAll lines = t := by
  induction lines with
  | nil => rfl
  | cons line lines ih =>
    show (t.say line).sayAll lines = t
    rw [say_of_not_speaks h, ih]

/-- A terminal that speaks writes the lines one by one. -/
theorem sayAll_of_speaks (h : t.Speaks) (lines : List String) :
    t.sayAll lines = { t with out := t.out ++ Text.inLines lines } := by
  induction lines generalizing t with
  | nil => simp [sayAll, Text.inLines]
  | cons line lines ih =>
    show (t.say line).sayAll lines = _
    have hrest : (t.say line).sayAll lines =
        { t.say line with out := (t.say line).out ++ Text.inLines lines } :=
      ih (by rw [say_of_speaks h]; exact h)
    rw [hrest, say_of_speaks h, Text.inLines, String.append_assoc]

/-- Lines may be written in two parts. -/
theorem sayAll_append (t : Terminal) (lines more : List String) :
    t.sayAll (lines ++ more) = (t.sayAll lines).sayAll more :=
  List.foldl_append

/-- Lines reach the primary stream all together or not at all. -/
theorem sayAll_out (t : Terminal) (lines : List String) :
    (t.sayAll lines).out = t.out ++ if t.Speaks then Text.inLines lines else "" := by
  split
  · rename_i h
    rw [sayAll_of_speaks h]
  · rename_i h
    rw [sayAll_of_not_speaks h, String.append_empty]

end Terminal

/-! ## What a command announces -/

/-- The current user, if the reply tells who that is. -/
def Reply.currentUser? : Reply → Option User
  | ⟨.currentUser, ⟨.success user, _⟩⟩ => some user
  | _ => none

/-- The line that announces what the command is about to do.  A deletion announces itself before
its first call, an update once the first reply tells who the current user is. -/
def CommandName.announcement (name : CommandName) (inv : Invocation) (replies : List Reply) :
    Option String :=
  match name with
  | .deleteUser => replies.head?.map fun _ => DeleteUser.progress inv
  | .updateServiceBroker =>
    (replies.head?.bind Reply.currentUser?).map (UpdateServiceBroker.progress inv)

/-- The lines of progress that belong to a result and the replies that led to it. -/
def CommandName.lines (name : CommandName) (inv : Invocation) (result : CommandResult)
    (replies : List Reply) : List String :=
  (name.announcement inv replies).toList ++ if result.isOk then [Terminal.okMark] else []

/-- The current user of a reply is the one that is demanded. -/
theorem Reply.currentUser?_eq (response : Response User) :
    currentUser? ⟨.currentUser, response⟩ = (response.outcome.asDemand "user").toOption := by
  obtain ⟨outcome, warnings⟩ := response
  cases outcome <;> rfl

/-- Without replies there are no lines, unless the result is a success. -/
theorem CommandName.lines_nil (name : CommandName) (inv : Invocation) {result : CommandResult}
    (h : result.isOk = false) : name.lines inv result [] = [] := by
  cases name <;> simp [lines, announcement, h]

section Announcements

variable {g : Gateway σ} {inv : Invocation} {credentials : Credentials} {s s' : RunState σ}
  {outcome : Except Failure (Option String)}

/-- The first reply answers the first call. -/
theorem Gateway.head?_responses (g : Gateway σ) (c : Call) (calls : List Call) (remote : σ) :
    (g.responses (c :: calls) remote).head? = some ⟨c, (g.answer c remote).1⟩ :=
  rfl

/-- A deletion says what it announces, and no more. -/
theorem DeleteUser.Course.terminal_eq (hstart : s.calls = []) (h : Course g inv s outcome s') :
    s'.terminal = s.terminal.sayAll
      (CommandName.deleteUser.announcement inv (g.responses s'.calls s.remote)).toList := by
  have hcalls : ∃ calls, s'.calls = .findUser (username inv) :: calls := by
    cases h <;> simp [lookedUp, RunState.afterCall, RunState.afterSaying, hstart]
  have hsaid : s'.terminal = s.terminal.say (progress inv) := by
    cases h <;> rfl
  obtain ⟨calls, hcalls⟩ := hcalls
  rw [hcalls, CommandName.announcement, Gateway.head?_responses]
  exact hsaid

/-- With a password an update calls for the current user first, and announces itself to them. -/
theorem UpdateServiceBroker.Course.terminal_eq (hstart : s.calls = [])
    (hpassword : ∃ password, (credentials.take neededPassword.name).1 = some password)
    (h : Course g inv credentials s outcome s') :
    s'.terminal = s.terminal.sayAll
      (CommandName.updateServiceBroker.announcement inv
        (g.responses s'.calls s.remote)).toList := by
  obtain ⟨password, hpassword⟩ := hpassword
  have hcalls : ∃ calls, s'.calls = .currentUser :: calls := by
    cases h with
    | noPassword hnone =>
      rw [hpassword] at hnone
      cases hnone
    | _ => simp [lookedUp, identified, RunState.afterCall, RunState.afterSaying, hstart]
  have hannounced : CommandName.updateServiceBroker.announcement inv
        (g.responses s'.calls s.remote) =
      ((s.response g .currentUser).outcome.asDemand "user").toOption.map (progress inv) := by
    obtain ⟨calls, hcalls⟩ := hcalls
    rw [hcalls, CommandName.announcement, Gateway.head?_responses, Option.bind_some,
      Reply.currentUser?_eq, RunState.response]
  rw [hannounced]
  cases h with
  | noPassword hnone =>
    rw [hpassword] at hnone
    cases hnone
  | userFailed _ hcurrent =>
    rw [hcurrent]
    rfl
  | lookupFailed _ hcurrent _ =>
    rw [hcurrent]
    rfl
  | absent _ hcurrent _ =>
    rw [hcurrent]
    rfl
  | attempted _ hcurrent _ _ =>
    rw [hcurrent]
    rfl

end Announcements

/-- A body that the gates let through says what it announces, and nothing else. -/
theorem CommandName.run_terminal {name : CommandName} {inv : Invocation} {caps : Capabilities}
    {env : Environment} {t t' : Terminal} {credentials : Credentials}
    (h : name.declaration.Admits inv caps env t credentials t') (g : Gateway σ) (remote : σ) :
    let run := name.command.run g inv credentials { terminal := t', remote }
    run.2.terminal = t'.sayAll (name.announcement inv (g.responses run.2.calls remote)).toList := by
  intro run
  cases name with
  | deleteUser => exact (DeleteUser.body_course g inv _).terminal_eq rfl
  | updateServiceBroker =>
    have hpassword := UpdateServiceBroker.exists_password_of_admits h
    exact (UpdateServiceBroker.body_course g inv credentials _).terminal_eq rfl hpassword

/-- At the end the mark of success is written, if there was any. -/
theorem Command.concluded_out (outcome : Except Failure (Option String)) (s : RunState σ) :
    (concluded outcome s).2.terminal.out =
      (s.terminal.sayAll
        (if (concluded outcome s).1.isOk then [Terminal.okMark] else [])).out := by
  have hout := s.terminal.conclude_out (outcome.mapError EarlyEnd.failed) s.warnings.texts
  rw [concluded_fst]
  cases outcome with
  | error e => exact hout
  | ok notice => exact hout

section Executions

variable (name : CommandName) (g : Gateway σ) (inv : Invocation) (caps : Capabilities)
  (env : Environment) (t : Terminal) (remote : σ)

/-- Behind what its gates write, an execution writes its lines of progress. -/
theorem CommandName.execute_out :
    let ending := name.command.execute g inv caps env t remote
    ending.2.terminal.out = (name.declaration.clear inv caps env t).2.out ++
      if t.Speaks then
        Text.inLines (name.lines inv ending.1 (g.responses ending.2.calls remote))
      else "" := by
  intro ending
  cases hclear : name.declaration.clear inv caps env t with
  | mk answer t' =>
    cases answer with
    | error stop =>
      have hending : ending = _ := name.execute_of_clear_eq_error g remote hclear
      have hlines : name.lines inv stop.result (g.responses [] remote) = [] :=
        name.lines_nil inv (by cases stop <;> rfl)
      have hout : (t'.conclude (.error stop)).2.out = t'.out := t'.conclude_out (.error stop) []
      rw [hending]
      show (t'.conclude (.error stop)).2.out = _
      rw [hlines, hout, Text.inLines, ite_self, String.append_empty]
    | ok credentials =>
      have hadmits := Declaration.clear_eq_ok_iff.mp hclear
      have hending : ending = _ := name.execute_of_admits g remote hadmits
      have hrun := CommandName.run_terminal hadmits g remote
      have hgates : t.Unmarked t' := by
        have hkept := Declaration.unmarked_clear caps env t hadmits.suits.arguments
        rwa [hclear] at hkept
      have hspeaks : t'.Speaks ↔ t.Speaks := by
        rw [Terminal.Speaks, Terminal.Speaks, hgates.manner, hgates.faults]
      rw [hending, Command.concluded_out, hrun, ← Terminal.sayAll_append, Terminal.sayAll_out]
      simp only [hspeaks]
      rfl

end Executions

/-! ## Whether the terminal is quiet -/

namespace Terminal

/-- The same terminal, quiet or not. -/
def withQuiet (t : Terminal) (quiet : Bool) : Terminal :=
  { t with quiet }

/-- A step of the conversation does not look whether the terminal is quiet. -/
def IgnoresQuiet {α : Type} (step : Terminal → α × Terminal) : Prop :=
  ∀ (t : Terminal) (quiet : Bool),
    step (t.withQuiet quiet) = ((step t).1, (step t).2.withQuiet quiet)

/-- Whether a terminal is quiet makes no difference to its warnings. -/
theorem warn_withQuiet (t : Terminal) (quiet : Bool) (message : String) :
    (t.withQuiet quiet).warn message = (t.warn message).withQuiet quiet := by
  unfold warn
  cases h : t.faults.writeErr <;> simp only [withQuiet, h]

/-- No question notices whether the terminal is quiet. -/
theorem unnoticed_withQuiet (quiet : Bool) : Unnoticed (·.withQuiet quiet) :=
  ⟨fun _ => rfl, fun _ => rfl, fun _ => rfl, fun _ => rfl, fun _ => rfl, fun _ => rfl,
    fun _ _ => rfl, fun _ _ => rfl⟩

end Terminal

open Terminal (IgnoresQuiet)

namespace Declaration

variable (d : Declaration) (inv : Invocation)

/-- The count of arguments is checked alike on a quiet terminal. -/
theorem clearArguments_ignoresQuiet : IgnoresQuiet (d.clearArguments inv) := by
  intro t quiet
  unfold clearArguments
  cases d.checkArguments inv with
  | ok _ => rfl
  | error e => simp only [Terminal.showUsage, Terminal.warn_withQuiet]

/-- The gates do not look whether the terminal is quiet. -/
theorem clear_ignoresQuiet (caps : Capabilities) (env : Environment) :
    IgnoresQuiet (d.clear inv caps env) := by
  intro t quiet
  by_cases hsuits : d.Suits inv caps
  · exact (Terminal.unnoticed_withQuiet quiet).clear hsuits env t
  · obtain ⟨answer, hclear⟩ := exists_clear_of_not_suits hsuits env
    rw [hclear, hclear, d.clearArguments_ignoresQuiet inv t quiet]

end Declaration

/-- The same terminal twice, quiet and loud, but for what was written to the primary stream. -/
def Terminal.SameButQuiet (quiet loud : Terminal) : Prop :=
  ∃ (t : Terminal) (out out' : String),
    quiet = { t with quiet := true, out := out } ∧ loud = { t with quiet := false, out := out' }

namespace Terminal.SameButQuiet

variable {t t' : Terminal}

/-- What is still to be read is the same. -/
theorem input_eq (h : t.SameButQuiet t') : t.input = t'.input := by
  obtain ⟨u, out, out', rfl, rfl⟩ := h
  rfl

/-- What was written to the secondary stream is the same. -/
theorem err_eq (h : t.SameButQuiet t') : t.err = t'.err := by
  obtain ⟨u, out, out', rfl, rfl⟩ := h
  rfl

/-- Whatever a command writes, two terminals differ in their manner and their primary streams
only. -/
theorem keptByOutput : KeptByOutput SameButQuiet where
  say := by
    rintro _ _ ⟨u, out, out', rfl, rfl⟩ message
    have hsilent : ¬({ u with quiet := true, out := out } : Terminal).Speaks := by
      rintro ⟨hloud, -⟩
      cases hloud
    refine ⟨u, out, ?_⟩
    by_cases hwrite : u.faults.write = none
    · have hspeaks : ({ u with quiet := false, out := out' } : Terminal).Speaks := ⟨rfl, hwrite⟩
      exact ⟨out' ++ (message ++ "\n"), say_of_not_speaks hsilent message,
        say_of_speaks hspeaks message⟩
    · have hspeaks : ¬({ u with quiet := false, out := out' } : Terminal).Speaks :=
        fun h => hwrite h.2
      exact ⟨out', say_of_not_speaks hsilent message, say_of_not_speaks hspeaks message⟩
  warn := by
    rintro _ _ ⟨u, out, out', rfl, rfl⟩ message
    unfold warn
    cases u.faults.writeErr with
    | some fault => exact ⟨u, out, out', rfl, rfl⟩
    | none => exact ⟨{ u with err := u.err ++ message ++ "\n" }, out, out', rfl, rfl⟩

end Terminal.SameButQuiet

/-- To be quiet changes nothing but the primary stream, and there it takes the lines of progress
away: what is left are the prompts that were shown, in order. -/
theorem CommandName.execute_quietly (name : CommandName) (g : Gateway σ) (inv : Invocation)
    (caps : Capabilities) (env : Environment) (t : Terminal) (remote : σ) :
    let quiet := name.command.execute g inv caps env (t.withQuiet true) remote
    let loud := name.command.execute g inv caps env (t.withQuiet false) remote
    quiet.1 = loud.1 ∧ quiet.2.calls = loud.2.calls ∧ quiet.2.remote = loud.2.remote ∧
      quiet.2.terminal.input = loud.2.terminal.input ∧
      quiet.2.terminal.err = loud.2.terminal.err ∧
      ∃ shown, name.declaration.Shows inv caps env t shown ∧
        quiet.2.terminal.out = t.out ++ String.join shown ∧
        loud.2.terminal.out = t.out ++ String.join shown ++
          if t.faults.write = none then
            Text.inLines (name.lines inv loud.1 (g.responses loud.2.calls remote))
          else "" := by
  intro quiet loud
  have hgates := name.declaration.clear_ignoresQuiet inv caps env t
  -- the gates end alike, and the bodies only hand over what they say
  obtain ⟨hresult, hbeside⟩ :
      quiet.1 = loud.1 ∧ RunState.Beside Terminal.SameButQuiet Eq Eq quiet.2 loud.2 := by
    refine Command.execute_parallel (K := Eq) Terminal.SameButQuiet.keptByOutput ?_ ?_ rfl
      (fun _ _ h => h) ?_
    · rw [name.clear_eq, name.clear_eq, hgates, hgates]
      exact .refl _
    · rw [name.clear_eq, name.clear_eq, hgates, hgates]
      exact ⟨_, _, _, rfl, rfl⟩
    · rintro credentials _ rfl
      exact name.run_parallel Terminal.SameButQuiet.keptByOutput (fun _ => rfl) g.answersAlike_eq
        inv credentials
  obtain ⟨shown, hshown, hout⟩ := name.declaration.exists_shows inv caps env t
  refine ⟨hresult, hbeside.calls_eq, hbeside.remote, hbeside.terminal.input_eq,
    hbeside.terminal.err_eq, shown, hshown, ?_, ?_⟩
  · have hsilent : ¬(t.withQuiet true).Speaks := by
      rintro ⟨hloud, -⟩
      cases hloud
    have hquiet := name.execute_out g inv caps env (t.withQuiet true) remote
    simp only [hgates, hsilent, if_false, String.append_empty] at hquiet
    exact hquiet.trans hout
  · have hspeaks : (t.withQuiet false).Speaks ↔ t.faults.write = none := ⟨And.right, .intro rfl⟩
    have hloud := name.execute_out g inv caps env (t.withQuiet false) remote
    simp only [hgates, hspeaks] at hloud
    rw [← hout]
    exact hloud

end PlatformAdmin
