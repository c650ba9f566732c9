import PlatformAdmin.Proofs.SecretOrder
import PlatformAdmin.Proofs.Surroundings

/-!
# Prompts that get no answer

A `Prompt` is what the gates may put to the user: a question, or the entry of a secret.  It may fail
before anything is read, because prompts are not allowed or because its text cannot be written or
flushed; `Terminal.BarsPrompts` has a case for each, with the error.  Such a failure leaves the line
that would have been the answer for the next prompt.  Or it may fail when the line is read.

`Declaration.Reaches` says which prompt the gates of a command get to, and on which terminal.  The
main statement, `unanswered_prompts_stop`, is that a command whose gates get to a prompt that fails,
for whatever reason, fails with the error of that prompt and calls nobody.
-/

set_option autoImplicit false

namespace PlatformAdmin

variable {σ : Type}

/-- What the user may be asked for. -/
inductive Prompt
  /-- A yes or no. -/
  | question (text : String)
  | secret (label : String)
  deriving DecidableEq, Repr

namespace Prompt

/-- What is shown before the answer is read. -/
def text : Prompt → String
  | question text => text ++ " "
  | secret label => label ++ ": "

/-- What an answer is taken for. -/
abbrev Answer : Prompt → Type
  | question _ => Bool
  | secret _ => String

/-- The meaning of a line as an answer. -/
def meaning : (p : Prompt) → String → p.Answer
  | question _, line => Terminal.meansYes line
  | secret _, line => Text.trim line

end Prompt

namespace Terminal

/-- Puts a prompt to the user. -/
def put (t : Terminal) : (p : Prompt) → Except QuestionError p.Answer × Terminal
  | .question text => t.confirm text
  | .secret label => t.askSecret label

/-- Prompts fail on this terminal before anything is read, with this error. -/
inductive BarsPrompts (t : Terminal) : QuestionError → Prop
  | notAllowed (allowed : t.interactive = false) : BarsPrompts t .notAllowed
  | unwritable {fault : String} (allowed : t.interactive = true)
      (writable : t.faults.write = some fault) : BarsPrompts t (.io fault)
  | unflushable {fault : String} (allowed : t.interactive = true)
      (writable : t.faults.write = none) (flushable : t.faults.flush = some fault) :
      BarsPrompts t (.io fault)

variable {t : Terminal} {p : Prompt} {e : QuestionError}

/-! ## Prompts that fail -/

/-- A prompt gets no answer exactly if it is refused. -/
theorem put_eq_error_iff : (t.put p).1 = .error e ↔ t.Refuses e := by
  cases p with
  | question text => exact confirm_eq_error_iff
  | secret label => exact askSecret_eq_error_iff

/-- A refused prompt leaves the terminal as asking does. -/
theorem put_snd (h : t.Refuses e) (p : Prompt) : (t.put p).2 = (t.ask p.text).2 := by
  cases p with
  | question text => exact t.confirm_snd text
  | secret label => exact askSecret_snd h label

/-- A terminal that bars prompts refuses them. -/
theorem BarsPrompts.refuses (h : t.BarsPrompts e) : t.Refuses e := by
  cases h with
  | notAllowed hi => exact .notAllowed hi
  | unwritable hi hw => exact .unwritable hi hw
  | unflushable hi hw hf => exact .unflushable hi hw hf

/-- Where prompts fail before anything is read, their text is all that may be left behind. -/
theorem BarsPrompts.put (h : t.BarsPrompts e) (p : Prompt) :
    t.put p = (.error e, { t with
      out := t.out ++ if t.interactive = true ∧ t.faults.write = none then p.text else "" }) := by
  refine Prod.ext (put_eq_error_iff.mpr h.refuses) ((put_snd h.refuses p).trans ?_)
  cases h with
  | notAllowed hi => simp [ask, hi]
  | unwritable hi hw => simp [ask, hi, write, hw]
  | unflushable hi hw hf => simp [ask, hi, write, hw, Terminal.flush, hf]

/-! ## Prompts that get to read -/

/-- A terminal that can ask shows the text and takes the next line. -/
theorem CanAsk.ask (h : t.CanAsk) (text : String) :
    t.ask text = (answerOf (splitLine t.input).1, t.afterAnswer text) := by
  simp only [Terminal.ask, h.allowed, if_true, write, h.writable, Terminal.flush, h.flushable,
    readLine, h.readable, answerOf, afterAnswer]
  cases Text.Utf8.text? (splitLine t.input).1 <;> rfl

/-- A terminal that can ask can ask again. -/
theorem CanAsk.afterAnswer (h : t.CanAsk) (shown : String) : (t.afterAnswer shown).CanAsk :=
  ⟨h.allowed, h.writable, h.flushable, h.readable⟩

/-- Where prompts reach the user, the next line is the answer, and it is used up. -/
theorem CanAsk.exists_put (h : t.CanAsk) (p : Prompt) :
    ∃ shown, t.put p = ((answerOf (splitLine t.input).1).map p.meaning, t.afterAnswer shown) := by
  cases p with
  | question text =>
    refine ⟨text ++ " ", ?_⟩
    simp only [Terminal.put, confirm, h.ask]
    cases answerOf (splitLine t.input).1 <;> rfl
  | secret label =>
    simp only [Terminal.put, askSecret, h.ask]
    cases answerOf (splitLine t.input).1 with
    | error e => exact ⟨label ++ ": ", rfl⟩
    | ok answer =>
      refine ⟨label ++ ": " ++ "\n", ?_⟩
      simp only [write, (h.afterAnswer (label ++ ": ")).writable]
      simp only [Terminal.afterAnswer, String.append_assoc]
      rfl

end Terminal

/-! ## Gates that get to a prompt -/

namespace Declaration

/-- The gates of a command get to a prompt: all before it is passed, and the terminal is like this
when the prompt is put. -/
inductive Reaches (d : Declaration) (inv : Invocation) (caps : Capabilities) (env : Environment)
    (t : Terminal) : Prompt → Terminal → Prop
  | question {question : String} (suits : d.Suits inv caps) (asked : d.question inv = some question)
      (unforced : inv.flags.get "f" = false) : Reaches d inv caps env t (.question question) t
  | secret {t₁ t₂ : Terminal} {before after : List NeededSecret} {needed : NeededSecret}
      {credentials : List Credential} (suits : d.Suits inv caps) (agreed : d.Agrees inv t t₁)
      (declared : d.secrets inv = before ++ needed :: after)
      (obtained : Credential.Obtained env t₁ before credentials t₂)
      (asked : needed.IsAskedFor env) : Reaches d inv caps env t (.secret needed.label) t₂

variable {d : Declaration} {inv : Invocation} {caps : Capabilities} {env : Environment}
  {t t' : Terminal} {p : Prompt} {e : QuestionError}

/-- A prompt that fails is the end of the gates. -/
theorem Reaches.clear (h : d.Reaches inv caps env t p t') (hfails : (t'.put p).1 = .error e) :
    d.clear inv caps env t = (.error (.failed (.question e)), (t'.put p).2) := by
  cases h with
  | @question question hsuits hasked hunforced =>
    have hconfirm : t.confirm question = (.error e, (t.confirm question).2) :=
      Prod.ext hfails rfl
    rw [clear_of_suits hsuits, clearQuestion_of_put hasked hunforced, hconfirm]
    rfl
  | @secret t₁ _ before after needed credentials hsuits hagreed hdeclared hobtained hasked =>
    have hneeded : needed.Fails env t' e :=
      ⟨NeededSecret.hasNoArgument_iff.mpr hasked.1, hasked.2, Terminal.put_eq_error_iff.mp hfails⟩
    have hall : Credential.obtainAll env (d.secrets inv) t₁ =
        (.error e, (t'.askSecret needed.label).2) := by
      rw [hdeclared]
      exact Credential.obtainAll_of_fails hobtained hneeded after
    simp only [clear_of_suits hsuits, clearQuestion_eq_ok_iff.mpr hagreed, clearSecrets, hall]
    rfl

/-- Gates that end with the error of a prompt got to one that fails. -/
theorem exists_reaches_of_clear
    (h : (d.clear inv caps env t).1 = .error (.failed (.question e))) :
    ∃ p t', d.Reaches inv caps env t p t' ∧ (t'.put p).1 = .error e := by
  have hstops : d.Stops inv caps env t (.failed (.question e)) := stops_of_clear_eq_error h
  cases hstops with
  | question hsuits hasked hunforced hrefuses =>
    exact ⟨_, t, .question hsuits hasked hunforced, Terminal.put_eq_error_iff.mpr hrefuses⟩
  | @secret t₁ t₂ _ _ needed _ _ hsuits hagreed hdeclared hobtained hfails =>
    have hasked : needed.IsAskedFor env :=
      ⟨NeededSecret.hasNoArgument_iff.mp hfails.argument, hfails.setting⟩
    exact ⟨_, t₂, .secret hsuits hagreed hdeclared hobtained hasked,
      Terminal.put_eq_error_iff.mpr hfails.refused⟩

end Declaration

/-- To report a failure leaves the input alone. -/
theorem Terminal.failed_input (t : Terminal) (message : String) :
    (t.failed message).input = t.input :=
  (warn_input _ _).trans (warn_input _ _)

/-- A prompt that fails before anything is read leaves the terminal as it was, but for its text if
that could be written, so that the next prompt that works reads the same line.  A command whose
gates get to a prompt that fails, then or when the line is read, fails with the error of that
prompt and makes no call.  The error of a prompt comes out of the gates in no other way. -/
theorem unanswered_prompts_stop (cmd : Command σ) (g : Gateway σ) (inv : Invocation)
    (caps : Capabilities) (env : Environment) (t : Terminal) (remote : σ) :
    (∀ p e, t.BarsPrompts e →
      t.put p = (.error e, { t with
        out := t.out ++ if t.interactive = true ∧ t.faults.write = none then p.text else "" }) ∧
      ∀ (u : Terminal) (p' : Prompt), u.CanAsk → u.input = (t.put p).2.input →
        (u.put p').1 = (Terminal.answerOf (Terminal.splitLine t.input).1).map p'.meaning ∧
          (u.put p').2.input = (Terminal.splitLine t.input).2) ∧
    (∀ p t' e, cmd.Reaches inv caps env t p t' → (t'.put p).1 = .error e →
      let ending := cmd.execute g inv caps env t remote
      ending.1 = .failed (.question e) ∧ ending.2.calls = [] ∧ ending.2.remote = remote ∧
        ending.2.terminal = (t'.put p).2.failed e.message ∧
        ending.2.terminal.input = (t'.put p).2.input) ∧
    ∀ e, (cmd.clear inv caps env t).1 = .error (.failed (.question e)) →
      ∃ p t', cmd.Reaches inv caps env t p t' ∧ (t'.put p).1 = .error e := by
  refine ⟨fun p e hbars => ⟨hbars.put p, fun u p' hcan hinput => ?_⟩,
    fun p t' e hreaches hfails => ?_, fun e hclear => Declaration.exists_reaches_of_clear hclear⟩
  · have hkept : u.input = t.input := by rw [hinput, hbars.put p]
    obtain ⟨shown, hput⟩ := hcan.exists_put p'
    rw [hput, hkept]
    exact ⟨rfl, congrArg (fun input => (Terminal.splitLine input).2) hkept⟩
  · rw [cmd.execute_of_clear_eq_error g remote (hreaches.clear hfails)]
    exact ⟨rfl, rfl, rfl, rfl, Terminal.failed_input _ _⟩

/-- The first of two secrets is entered, and the line of the second is no text.  On the same
terminal with a primary stream that cannot be flushed, the first line stays where it is. -/
theorem unanswered_prompts_stop_second :
    let secrets : List NeededSecret :=
      [⟨"a", "A", "First", none⟩, ⟨"b", "B", "Second", some ""⟩]
    let cmd : Command Unit :=
      { name := "c", usage := "c", checkArguments := fun _ => .ok (), secrets := fun _ => secrets
        run := fun _ _ _ => pure none }
    let caps : Capabilities := { loggedIn := true }
    let env : Environment := fun _ => none
    let input := "one\n".toList.map some ++ [none, some '\n']
    let t : Terminal := { input }
    let barred : Terminal := { input, faults := { flush := some "broken pipe" } }
    let first : Prompt := .secret "First"
    let second : Prompt := .secret "Second"
    let unreadable : QuestionError := .io "stream did not contain valid UTF-8"
    (∃ t', cmd.Reaches {} caps env t second t' ∧ (t'.put second).1 = .error unreadable ∧
      (cmd.execute (.programmed {}) {} caps env t ()).1 = .failed (.question unreadable) ∧
      (cmd.execute (.programmed {}) {} caps env t ()).2.calls = []) ∧
    barred.BarsPrompts (.io "broken pipe") ∧
      barred.put first = (.error (.io "broken pipe"), { barred with out := "First: " }) ∧
      t.CanAsk ∧ t.input = (barred.put first).2.input ∧ (t.put first).1 = .ok "one" := by
  intro secrets cmd caps env input t barred first second unreadable
  let g : Gateway Unit := .programmed {}
  have hsuits : cmd.Suits {} caps := by
    refine ⟨rfl, fun c hc => ?_, fun c hc => by cases hc⟩
    cases c <;> first | rfl | cases hc
  have hheard : t.Hears "one" := ⟨rfl, rfl, rfl, rfl, "one", by decide, by decide⟩
  have hdeclared : cmd.secrets {} =
      [⟨"a", "A", "First", none⟩] ++ ⟨"b", "B", "Second", some ""⟩ :: [] := rfl
  have hreaches : cmd.Reaches {} caps env t second (t.afterAnswer ("First: " ++ "\n")) :=
    .secret hsuits (.unasked rfl) hdeclared (.cons (.fromPrompt (.inl rfl) rfl hheard) .nil)
      ⟨rfl, rfl⟩
  have hfails : ((t.afterAnswer ("First: " ++ "\n")).put second).1 = .error unreadable := by
    decide
  have hbars : barred.BarsPrompts (.io "broken pipe") := .unflushable rfl rfl rfl
  have hcan : t.CanAsk := ⟨rfl, rfl, rfl, rfl⟩
  obtain ⟨-, hstops, -⟩ := unanswered_prompts_stop cmd g {} caps env t ()
  obtain ⟨hleaves, -, -⟩ := unanswered_prompts_stop cmd g {} caps env barred ()
  obtain ⟨hresult, hcalls, -⟩ := hstops second _ unreadable hreaches hfails
  obtain ⟨hput, hnext⟩ := hleaves first _ hbars
  have hinput : t.input = (barred.put first).2.input := by rw [hput]
  refine ⟨⟨_, hreaches, hfails, hresult, hcalls⟩, hbars, ?_, hcan, hinput, ?_⟩
  · rw [hput]
    rfl
  · rw [(hnext t first hcan hinput).1]
    decide

end PlatformAdmin
