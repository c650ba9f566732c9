import PlatformAdmin.Program
import PlatformAdmin.Proofs.Marks
import PlatformAdmin.Proofs.Records

/-!
# What the user is told

`CommandResult.report` is what belongs on the secondary stream for a result and the warnings of
its run.  A body is `Candid` if it keeps the warnings of each response, writes nothing but lines
of progress, and ends well only after one of them.  Both commands have candid bodies, and for
them `execute_reports` states that the secondary stream gains exactly the report, and that what
the primary stream gains ends with the mark of success exactly when the command ended well and
the terminal is not quiet.
-/

set_option autoImplicit false

namespace PlatformAdmin

variable {σ : Type}

/-! ## The report -/

/-- Texts as lines. -/
def Text.inLines : List String → String
  | [] => ""
  | text :: texts => text ++ "\n" ++ inLines texts

/-- What belongs on the secondary stream for a result and the warnings of its run. -/
def CommandResult.report (usage : String) (warnings : List String) : CommandResult → String
  | .ok none => Text.inLines warnings
  | .ok (some notice) => Text.inLines warnings ++ (notice ++ "\n")
  | .declined => Text.inLines warnings
  | .failed (.usage _) => "Incorrect Usage.\n" ++ "\n" ++ (usage ++ "\n")
  | .failed e => Text.inLines warnings ++ ("FAILED\n" ++ (e.message ++ "\n"))

namespace Terminal

variable {t t' t'' : Terminal}

/-- A warning adds its line to the secondary stream. -/
theorem warn_eq (h : t.faults.writeErr = none) (message : String) :
    t.warn message = { t with err := t.err ++ (message ++ "\n") } := by
  simp only [warn, h, String.append_assoc]

/-- Warnings add their lines to the secondary stream one by one. -/
theorem warnAll_eq (h : t.faults.writeErr = none) (warnings : List String) :
    t.warnAll warnings = { t with err := t.err ++ Text.inLines warnings } := by
  induction warnings generalizing t with
  | nil => simp [warnAll, Text.inLines]
  | cons message warnings ih =>
    have htail : (t.warn message).warnAll warnings =
        { t.warn message with err := (t.warn message).err ++ Text.inLines warnings } :=
      ih (by rw [warn_eq h]; exact h)
    have hcons : t.warnAll (message :: warnings) = (t.warn message).warnAll warnings := rfl
    rw [hcons, htail, warn_eq h, Text.inLines, String.append_assoc]

end Terminal

/-! ## Candid bodies -/

/-- From one state to another a body kept the warnings of each response and wrote nothing but
lines of progress; it ended well only after one of them, and left wrong usage to the gates. -/
structure RunState.Candid (s : RunState σ) (g : Gateway σ)
    (outcome : Except Failure (Option String)) (s' : RunState σ) : Prop where
  records : ∀ remote, s.Records g remote → s'.Records g remote
  unmarked : s.terminal.Unmarked s'.terminal
  progress : ∀ notice, outcome = .ok notice →
    ∃ text, s'.terminal = s.terminal.say (text ++ "...")
  noUsage : ∀ e, outcome ≠ .error (.usage e)

/-- A command whose body is candid from every state. -/
def Command.Candid (cmd : Command σ) : Prop :=
  ∀ (g : Gateway σ) inv credentials (s : RunState σ),
    s.Candid g (cmd.run g inv credentials s).1 (cmd.run g inv credentials s).2

/-- A demand that is not met is no wrong usage. -/
theorem Outcome.ne_usage_of_asDemand_eq_error {α : Type} {o : Outcome α} {entity : String}
    {e : Failure} (h : o.asDemand entity = .error e) (e' : ArgumentCountError) :
    e ≠ .usage e' := by
  rintro rfl
  cases o <;> simp [asDemand] at h

/-- A demand leads to no wrong usage, whatever it brings. -/
theorem Outcome.map_asDemand_ne_usage {α : Type} {o : Outcome α} {entity : String}
    {answer : Except Failure α} (h : o.asDemand entity = answer) (e : ArgumentCountError) :
    (answer.map fun _ => (none : Option String)) ≠ .error (.usage e) := by
  cases answer with
  | ok _ => simp [Except.map]
  | error e' => simpa [Except.map] using ne_usage_of_asDemand_eq_error h e

/-- A deletion reports what it did. -/
theorem DeleteUser.Course.candid {g : Gateway σ} {inv : Invocation} {s s' : RunState σ}
    {outcome : Except Failure (Option String)} (h : Course g inv s outcome s') :
    s.Candid g outcome s' := by
  have hsaid : (lookedUp g inv s).terminal = s.terminal.say (progress inv) := rfl
  have hunmarked : s.terminal.Unmarked (lookedUp g inv s).terminal :=
    hsaid ▸ s.terminal.unmarked_say _
  have hlooked : ∀ remote, s.Records g remote → (lookedUp g inv s).Records g remote :=
    fun _ hs => (hs.afterSaying _).afterCall _
  cases h with
  | lookupFailed _ => exact ⟨hlooked, hunmarked, nofun, nofun⟩
  | absent _ => exact ⟨hlooked, hunmarked, fun _ _ => ⟨_, hsaid⟩, nofun⟩
  | attempted _ hdeletion =>
    exact ⟨fun remote hs => (hlooked remote hs).afterCall _, hunmarked, fun _ _ => ⟨_, hsaid⟩,
      Outcome.map_asDemand_ne_usage hdeletion⟩

/-- An update reports what it did. -/
theorem UpdateServiceBroker.Course.candid {g : Gateway σ} {inv : Invocation}
    {credentials : Credentials} {s s' : RunState σ} {outcome : Except Failure (Option String)}
    (h : Course g inv credentials s outcome s') : s.Candid g outcome s' := by
  have hidentified : ∀ remote, s.Records g remote → (identified g s).Records g remote :=
    fun _ hs => hs.afterCall _
  have hsaid : ∀ user, (lookedUp g inv s user).terminal = s.terminal.say (progress inv user) :=
    fun _ => rfl
  have hunmarked : ∀ user, s.terminal.Unmarked (lookedUp g inv s user).terminal :=
    fun user => hsaid user ▸ s.terminal.unmarked_say _
  have hlooked : ∀ user remote, s.Records g remote → (lookedUp g inv s user).Records g remote :=
    fun _ remote hs => ((hidentified remote hs).afterSaying _).afterCall _
  cases h with
  | noPassword _ => exact ⟨fun _ hs => hs, .refl _, nofun, nofun⟩
  | userFailed _ hcurrent =>
    refine ⟨hidentified, .refl _, nofun, fun e h => ?_⟩
    exact Outcome.ne_usage_of_asDemand_eq_error hcurrent e (Except.error.inj h)
  | lookupFailed _ _ _ =>
    exact ⟨hlooked _, hunmarked _, nofun, nofun⟩
  | absent _ _ _ =>
    exact ⟨hlooked _, hunmarked _, fun _ _ => ⟨_, hsaid _⟩, nofun⟩
  | attempted _ _ _ hupdate =>
    exact ⟨fun remote hs => (hlooked _ remote hs).afterCall _, hunmarked _,
      fun _ _ => ⟨_, hsaid _⟩, Outcome.map_asDemand_ne_usage hupdate⟩

/-- The bodies of both commands are candid. -/
theorem CommandName.candid (name : CommandName) : (name.command : Command σ).Candid := by
  intro g inv credentials s
  cases name with
  | deleteUser => exact (DeleteUser.body_course g inv s).candid
  | updateServiceBroker =>
    exact (UpdateServiceBroker.body_course g inv credentials s).candid

/-! ## The end of an execution -/

namespace Terminal

variable {t : Terminal}

/-- Progress leaves the secondary stream alone. -/
theorem say_err (t : Terminal) (message : String) : (t.say message).err = t.err := by
  by_cases h : t.Speaks
  · rw [say_of_speaks h]
  · rw [say_of_not_speaks h]

/-- Progress breaks no stream. -/
theorem say_faults (t : Terminal) (message : String) : (t.say message).faults = t.faults := by
  by_cases h : t.Speaks
  · rw [say_of_speaks h]
  · rw [say_of_not_speaks h]

/-- Progress does not depend on the secondary stream. -/
theorem say_out_with_err (t : Terminal) (err message : String) :
    ({ t with err := err }.say message).out = (t.say message).out := by
  simp only [say, write]
  split
  · rfl
  · split <;> rfl

/-- A warning adds its line to the secondary stream. -/
theorem warn_err (h : t.faults.writeErr = none) (message : String) :
    (t.warn message).err = t.err ++ (message ++ "\n") := by
  rw [warn_eq h]

/-- A warning leaves the primary stream alone. -/
theorem warn_out (t : Terminal) (message : String) : (t.warn message).out = t.out := by
  unfold warn
  split <;> rfl

/-- A warning breaks no stream. -/
theorem warn_faults (t : Terminal) (message : String) : (t.warn message).faults = t.faults := by
  unfold warn
  split <;> rfl

/-- The secondary stream gains the report, unless wrong usage was shown there already. -/
theorem conclude_err {outcome : Except EarlyEnd (Option String)} (warnings : List String)
    (usage : String) (h : t.faults.writeErr = none)
    (hshown : ∀ e, outcome ≠ .error (.usageShown e))
    (husage : ∀ e, outcome ≠ .error (.failed (.usage e))) :
    ((t.warnAll warnings).conclude outcome).2.err =
      t.err ++ ((t.warnAll warnings).conclude outcome).1.report usage warnings := by
  have hall := warnAll_eq h warnings
  have hfaults : (t.warnAll warnings).faults.writeErr = none := by rw [hall]; exact h
  have herr : (t.warnAll warnings).err = t.err ++ Text.inLines warnings := by rw [hall]
  cases outcome with
  | ok notice =>
    have hok : (t.warnAll warnings).ok.err = t.err ++ Text.inLines warnings := by
      rw [ok, say_err, herr]
    cases notice with
    | none => exact hok
    | some notice =>
      have hwrite : (t.warnAll warnings).ok.faults.writeErr = none := by
        rw [ok, say_faults]; exact hfaults
      change ((t.warnAll warnings).ok.warn notice).err =
        t.err ++ (Text.inLines warnings ++ (notice ++ "\n"))
      rw [warn_err hwrite, hok, String.append_assoc]
  | error stop =>
    cases stop with
    | declined => exact herr
    | usageShown e => exact absurd rfl (hshown e)
    | failed e =>
      have hfailed : ((t.warnAll warnings).failed e.message).err =
          t.err ++ (Text.inLines warnings ++ ("FAILED\n" ++ (e.message ++ "\n"))) := by
        have hmark : "FAILED\n" = failedMark ++ "\n" := rfl
        rw [failed, warn_err (by rw [warn_faults]; exact hfaults), warn_err hfaults, herr, hmark]
        simp only [String.append_assoc]
      cases e with
      | usage e => exact absurd rfl (husage e)
      | lacking c => exact hfailed
      | platform e => exact hfailed
      | question e => exact hfailed
      | configuration e => exact hfailed
      | missingCredential name => exact hfailed

/-- Warnings leave the primary stream alone. -/
theorem warnAll_out (t : Terminal) (warnings : List String) :
    (t.warnAll warnings).out = t.out := by
  induction warnings generalizing t with
  | nil => rfl
  | cons message warnings ih => exact (ih _).trans (warn_out _ _)

/-- Progress does not depend on a warning before it. -/
theorem say_warn_out (t : Terminal) (warning message : String) :
    ((t.warn warning).say message).out = (t.say message).out := by
  unfold warn
  split
  · rfl
  · exact say_out_with_err t _ _

/-- Progress does not depend on warnings before it. -/
theorem say_warnAll_out (t : Terminal) (warnings : List String) (message : String) :
    ((t.warnAll warnings).say message).out = (t.say message).out := by
  induction warnings generalizing t with
  | nil => rfl
  | cons warning warnings ih => exact (ih _).trans (say_warn_out _ _ _)

/-- The primary stream gains the mark at most, and only if the command ended well. -/
theorem conclude_out (t : Terminal) (outcome : Except EarlyEnd (Option String))
    (warnings : List String) :
    ((t.warnAll warnings).conclude outcome).2.out =
      match outcome with
      | .ok _ => (t.say okMark).out
      | .error _ => t.out := by
  have hkept := warnAll_out t warnings
  have hmarked := say_warnAll_out t warnings okMark
  cases outcome with
  | ok notice =>
    cases notice with
    | none => exact hmarked
    | some notice => exact (warn_out _ _).trans hmarked
  | error stop =>
    cases stop with
    | declined => exact hkept
    | usageShown e => exact hkept
    | failed e => exact (warn_out _ _).trans ((warn_out _ _).trans hkept)

end Terminal

namespace Declaration

variable {d : Declaration} {inv : Invocation} {caps : Capabilities} {env : Environment}
  {t : Terminal} {stop : EarlyEnd}

/-- With right arguments, what stops a command is neither wrong usage nor shown yet. -/
theorem stop_of_clear_eq_error (ha : d.checkArguments inv = .ok ())
    (h : (d.clear inv caps env t).1 = .error stop) :
    stop = .declined ∨ (∃ c, stop = .failed (.lacking c)) ∨ ∃ e, stop = .failed (.question e) := by
  unfold clear clearArguments at h
  simp only [ha] at h
  cases hs : d.clearSession caps with
  | error c =>
    simp only [hs, Except.error.injEq] at h
    exact .inr (.inl ⟨c, h.symm⟩)
  | ok _ =>
    simp only [hs] at h
    split at h
    · rename_i stop' t₁ hq
      have hfst : (d.clearQuestion inv t).1 = .error stop := by rw [hq]; simpa using h
      obtain ⟨question, -, -, ⟨rfl, -⟩ | ⟨e, rfl, -⟩⟩ := clearQuestion_eq_error_iff.mp hfst
      · exact .inl rfl
      · exact .inr (.inr ⟨e, rfl⟩)
    · obtain ⟨e, rfl, -⟩ := clearSecrets_eq_error_iff.mp h
      exact .inr (.inr ⟨e, rfl⟩)

end Declaration

/-- The calls of an execution account for the state of the gateway. -/
theorem Command.execute_remote {cmd : Command σ} (hc : cmd.Candid) (g : Gateway σ)
    (inv : Invocation) (caps : Capabilities) (env : Environment) (t : Terminal) (remote : σ) :
    (cmd.execute g inv caps env t remote).2.remote =
      g.after (cmd.execute g inv caps env t remote).2.calls remote := by
  cases hclear : cmd.clear inv caps env t with
  | mk answer t' =>
    cases answer with
    | error stop =>
      rw [cmd.execute_of_clear_eq_error g remote hclear]
      rfl
    | ok credentials =>
      rw [cmd.execute_of_clear_eq_ok g remote hclear]
      exact ((hc g inv credentials _).records remote (.start t')).remote_eq

namespace Command

/-- What an execution owes its user: its calls account for the gateway, only wrong arguments
count as wrong usage, the secondary stream gains the report for the result and the warnings of
the calls, and what the primary stream gains ends with the mark exactly if the command ended
well and the terminal is not quiet. -/
structure Reported (cmd : Command σ) (g : Gateway σ) (inv : Invocation) (t : Terminal)
    (remote : σ) (ending : CommandResult × RunState σ) : Prop where
  remote_eq : ending.2.remote = g.after ending.2.calls remote
  usage_iff : ∀ e, ending.1 = .failed (.usage e) ↔ cmd.checkArguments inv = .error e
  err_eq : ending.2.terminal.err =
    t.err ++ ending.1.report cmd.usage (g.warnings ending.2.calls remote)
  mark_iff : t.faults.write = none →
    ∃ written, ending.2.terminal.out = t.out ++ written ∧
      (Text.EndsWithLine "OK" written ↔ ending.1.isOk = true ∧ t.quiet = false)

variable {cmd : Command σ} {g : Gateway σ} {inv : Invocation} {caps : Capabilities}
  {env : Environment} {t t' : Terminal} {remote : σ}

/-- Wrong usage is reported. -/
theorem reported_of_arguments {e : ArgumentCountError} (h : t.faults.writeErr = none)
    (ha : cmd.checkArguments inv = .error e) :
    cmd.Reported g inv t remote (cmd.execute g inv caps env t remote) := by
  have hclear : cmd.clear inv caps env t =
      (.error (.usageShown (.usage e)), t.showUsage cmd.usage) := by
    simp only [Declaration.clear, Declaration.clearArguments, ha]
  rw [cmd.execute_of_clear_eq_error g remote hclear]
  refine ⟨rfl, fun e' => ?_, ?_, fun _ => ⟨"", ?_, ?_⟩⟩
  · rw [ha]
    simp [EarlyEnd.result]
  · change ((t.warn "Incorrect Usage.\n").warn cmd.usage).err =
      t.err ++ ("Incorrect Usage.\n" ++ "\n" ++ (cmd.usage ++ "\n"))
    rw [Terminal.warn_err (by rw [Terminal.warn_faults]; exact h), Terminal.warn_err h,
      String.append_assoc]
  · rw [String.append_empty]
    exact (Terminal.warn_out _ _).trans (Terminal.warn_out _ _)
  · constructor
    · exact fun hline => absurd hline Text.Unmarked.empty.not_endsWithLine
    · rintro ⟨hok, -⟩
      cases hok

/-- What a gate stops is reported. -/
theorem reported_of_stop {stop : EarlyEnd} (h : t.faults.writeErr = none)
    (ha : cmd.checkArguments inv = .ok ())
    (hclear : cmd.clear inv caps env t = (.error stop, t')) :
    cmd.Reported g inv t remote (cmd.execute g inv caps env t remote) := by
  have hunmarked : t.Unmarked t' := by
    have hgates := Declaration.unmarked_clear caps env t ha
    rwa [hclear] at hgates
  have h' : t'.faults.writeErr = none := by rw [hunmarked.faults]; exact h
  have hfst : (cmd.clear inv caps env t).1 = .error stop := by rw [hclear]
  have hstop := Declaration.stop_of_clear_eq_error ha hfst
  have hshown : ∀ e, (.error stop : Except EarlyEnd (Option String)) ≠ .error (.usageShown e) := by
    obtain rfl | ⟨c, rfl⟩ | ⟨e, rfl⟩ := hstop <;> simp
  have husage : ∀ e, (.error stop : Except EarlyEnd (Option String)) ≠
      .error (.failed (.usage e)) := by
    obtain rfl | ⟨c, rfl⟩ | ⟨e, rfl⟩ := hstop <;> simp
  have hresult : (t'.conclude (.error stop)).1 = stop.result := by cases stop <;> rfl
  have herr := Terminal.conclude_err [] cmd.usage h' hshown husage
  have hout := t'.conclude_out (.error stop) []
  obtain ⟨written, hw, hmark⟩ := hunmarked.out
  rw [cmd.execute_of_clear_eq_error g remote hclear]
  refine ⟨rfl, fun e => ?_, ?_, fun _ => ⟨written, hout.trans hw, ?_⟩⟩
  · rw [ha]
    obtain rfl | ⟨c, rfl⟩ | ⟨e, rfl⟩ := hstop <;> simp [EarlyEnd.result]
  · rw [← hresult, ← hunmarked.err]
    exact herr
  · constructor
    · exact fun hline => absurd hline hmark.not_endsWithLine
    · rintro ⟨hok, -⟩
      cases stop <;> cases hok

/-- What a run concludes is no wrong usage if the run says none. -/
theorem concluded_ne_usage {outcome : Except Failure (Option String)} {s : RunState σ}
    (h : ∀ e, outcome ≠ .error (.usage e)) (e : ArgumentCountError) :
    (concluded outcome s).1 ≠ .failed (.usage e) := by
  cases outcome with
  | ok notice => cases notice <;> exact nofun
  | error e' =>
    intro hresult
    have hfailed : CommandResult.failed e' = .failed (.usage e) := hresult
    rw [CommandResult.failed.injEq] at hfailed
    exact h e (congrArg _ hfailed)

/-- Once a body came to its end without the mark, the mark is written exactly for a good end on
a terminal that is not quiet. -/
theorem concluded_mark_iff {outcome : Except Failure (Option String)} {s : RunState σ}
    {t t' : Terminal} (hgates : t.Unmarked t') (hbody : t'.Unmarked s.terminal)
    (hprogress : ∀ notice, outcome = .ok notice →
      ∃ text, s.terminal = t'.say (text ++ "..."))
    (hwrite : t.faults.write = none) :
    ∃ written, (concluded outcome s).2.terminal.out = t.out ++ written ∧
      (Text.EndsWithLine Terminal.okMark written ↔
        (concluded outcome s).1.isOk = true ∧ t.quiet = false) := by
  have hunmarked : t.Unmarked s.terminal := hgates.trans hbody
  have hout := s.terminal.conclude_out (outcome.mapError EarlyEnd.failed) s.warnings.texts
  obtain ⟨written, hw, hmark⟩ := hunmarked.out
  cases outcome with
  | error e =>
    refine ⟨written, hout.trans hw, ?_⟩
    constructor
    · exact fun hline => absurd hline hmark.not_endsWithLine
    · rintro ⟨hok, -⟩
      cases hok
  | ok notice =>
    have hok : (concluded (.ok notice) s).1.isOk = true := by cases notice <;> rfl
    have hmanner : s.terminal.quiet = t.quiet := congrArg Manner.quiet hunmarked.manner
    cases hq : t.quiet with
    | true =>
      have hsilent : ¬s.terminal.Speaks := by
        rintro ⟨hloud, -⟩
        rw [hmanner, hq] at hloud
        cases hloud
      have hsay := Terminal.say_of_not_speaks hsilent Terminal.okMark
      refine ⟨written, ?_, ?_⟩
      · exact hout.trans ((congrArg Terminal.out hsay).trans hw)
      · constructor
        · exact fun hline => absurd hline hmark.not_endsWithLine
        · rintro ⟨-, hquiet⟩
          cases hquiet
    | false =>
      -- the line of progress ends right before the mark, so that the mark is a line of its own
      obtain ⟨text, hsaid⟩ := hprogress notice rfl
      obtain ⟨before, hbefore, -⟩ := hgates.out
      have hspeaks : t'.Speaks :=
        ⟨(congrArg Manner.quiet hgates.manner).trans hq, by rw [hgates.faults]; exact hwrite⟩
      have hspeaks' : s.terminal.Speaks :=
        ⟨hmanner.trans hq, by rw [hunmarked.faults]; exact hwrite⟩
      have hprogressed : s.terminal.out = t'.out ++ (text ++ "..." ++ "\n") := by
        rw [hsaid, Terminal.say_of_speaks hspeaks]
      have hmarked : (s.terminal.say Terminal.okMark).out =
          s.terminal.out ++ (Terminal.okMark ++ "\n") := by
        rw [Terminal.say_of_speaks hspeaks']
      refine ⟨before ++ (text ++ "...") ++ "\n" ++ (Terminal.okMark ++ "\n"), ?_, ?_⟩
      · refine (hout.trans hmarked).trans ?_
        rw [hprogressed, hbefore]
        simp only [String.append_assoc]
      · exact ⟨fun _ => ⟨hok, rfl⟩, fun _ => ⟨_, .inr ⟨_, rfl⟩, rfl⟩⟩

/-- What a run concludes is reported. -/
theorem reported_of_run {credentials : Credentials} (hc : cmd.Candid)
    (h : t.faults.writeErr = none) (ha : cmd.checkArguments inv = .ok ())
    (hclear : cmd.clear inv caps env t = (.ok credentials, t')) :
    cmd.Reported g inv t remote (cmd.execute g inv caps env t remote) := by
  have hgates : t.Unmarked t' := by
    have hgates := Declaration.unmarked_clear caps env t ha
    rwa [hclear] at hgates
  have hbody := hc g inv credentials { terminal := t', remote }
  rw [cmd.execute_of_clear_eq_ok g remote hclear]
  generalize (cmd.run g inv credentials { terminal := t', remote }).1 = outcome at hbody ⊢
  generalize (cmd.run g inv credentials { terminal := t', remote }).2 = s at hbody ⊢
  have hrecords := hbody.records remote (.start t')
  have hunmarked : t.Unmarked s.terminal := hgates.trans hbody.unmarked
  have hshown : ∀ e, outcome.mapError EarlyEnd.failed ≠ .error (.usageShown e) := by
    intro e h
    cases outcome <;> cases h
  have husage : ∀ e, outcome.mapError EarlyEnd.failed ≠ .error (.failed (.usage e)) := by
    intro e h
    cases outcome with
    | ok notice => cases h
    | error e' =>
      have hfailed : EarlyEnd.failed e' = .failed (.usage e) := Except.error.inj h
      exact hbody.noUsage e (congrArg _ (EarlyEnd.failed.inj hfailed))
  have herr := Terminal.conclude_err s.warnings.texts cmd.usage
    (by rw [hunmarked.faults]; exact h) hshown husage
  refine ⟨hrecords.remote_eq, fun e => ?_, ?_, fun hwrite => ?_⟩
  · rw [ha]
    exact ⟨fun hresult => absurd hresult (concluded_ne_usage hbody.noUsage e), nofun⟩
  · rw [concluded, ← hunmarked.err, ← hrecords.warnings_eq]
    exact herr
  · exact concluded_mark_iff hgates hbody.unmarked hbody.progress hwrite

end Command

/-- Both commands report to their user whatever happens, as long as the secondary stream
works. -/
theorem execute_reports (name : CommandName) (g : Gateway σ) (inv : Invocation)
    (caps : Capabilities) (env : Environment) (t : Terminal) (remote : σ)
    (h : t.faults.writeErr = none) :
    (name.command : Command σ).Reported g inv t remote
      (name.command.execute g inv caps env t remote) := by
  cases ha : (name.command : Command σ).checkArguments inv with
  | error e => exact Command.reported_of_arguments h ha
  | ok _ =>
    cases hclear : (name.command : Command σ).clear inv caps env t with
    | mk answer t' =>
      cases answer with
      | error stop => exact Command.reported_of_stop h ha hclear
      | ok credentials => exact Command.reported_of_run name.candid h ha hclear

/-- A deletion that finds its user, with two warnings, and then fails with another. -/
theorem execute_reports_failed_deletion :
    let g : Gateway Unit := .programmed
      { onFindUser := some ⟨.success ⟨"guid", "ann"⟩, ["slow", "OK"]⟩
        onDeleteUser := some ⟨.error (.refused 403 "no permission"), ["late"]⟩ }
    let t : Terminal := .ofInput "yes\n"
    let ending := DeleteUser.command.execute g { args := ["ann"] } { loggedIn := true }
      (fun _ => none) t ()
    t.faults.writeErr = none ∧
      ending.2.terminal.err = "slow\nOK\nlate\nFAILED\nno permission\n" ∧
      DeleteUser.command.Reported g { args := ["ann"] } t () ending := by
  intro g t ending
  have hreported := execute_reports .deleteUser g { args := ["ann"] } { loggedIn := true }
    (fun _ => none) t () rfl
  exact ⟨rfl, hreported.err_eq.trans (by decide), hreported⟩

end PlatformAdmin
