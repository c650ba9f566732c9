import PlatformAdmin.Proofs.Reports

/-!
# The prompts of a command

The gates write to the primary stream for one reason only: to ask the user something.
`Declaration.prompts` lists the texts that come up when everything asked is answered, in order:
the question, unless the invocation forces the command, and a label for each secret that neither
an argument nor the environment provides.  `Declaration.NeedsAnswer` says that the gates get to
the first of them.

`Declaration.exists_shows` states what the gates write: a beginning of that list, which is empty
unless an answer is needed, questions are allowed and the stream works, and which is the whole list
when the command is admitted.  Where no answer is needed the gates do not look at the terminal at
all, and where one is needed but questions are not allowed they stop before anything is written
(`exists_clear_of_not_needsAnswer`, `clear_of_needsAnswer`).
-/

set_option autoImplicit false

namespace PlatformAdmin

/-! ## Texts that are shown -/

/-- A secret has to be asked for: there is no argument for it, or an empty one, and the variable
that may hold it is not set. -/
def NeededSecret.IsAskedFor (needed : NeededSecret) (env : Environment) : Prop :=
  needed.argument.getD "" = "" ∧ env needed.envVar = none

instance (needed : NeededSecret) (env : Environment) : Decidable (needed.IsAskedFor env) :=
  inferInstanceAs (Decidable (_ ∧ _))

/-- The texts that ask for those of the secrets that have to be asked for; each entry ends its
line. -/
def Credential.prompts (env : Environment) (secrets : List NeededSecret) : List String :=
  secrets.flatMap fun needed =>
    if needed.IsAskedFor env then [needed.label ++ ": ", "\n"] else []

/-- The text of the question, unless none is declared or the invocation forces the command. -/
def Declaration.questionPrompt (d : Declaration) (inv : Invocation) : List String :=
  if inv.flags.get "f" = true then [] else (d.question inv).toList.map (· ++ " ")

/-- All texts that ask the user something, in order. -/
def Declaration.prompts (d : Declaration) (inv : Invocation) (env : Environment) : List String :=
  d.questionPrompt inv ++ Credential.prompts env (d.secrets inv)

/-- The gates get to a prompt: nothing before the prompts stops the command, and there is one. -/
def Declaration.NeedsAnswer (d : Declaration) (inv : Invocation) (caps : Capabilities)
    (env : Environment) : Prop :=
  d.Suits inv caps ∧ d.prompts inv env ≠ []

/-- What the gates show of the prompts. -/
structure Declaration.Shows (d : Declaration) (inv : Invocation) (caps : Capabilities)
    (env : Environment) (t : Terminal) (shown : List String) : Prop where
  in_order : shown <+: d.prompts inv env
  any_iff : shown ≠ [] ↔
    d.NeedsAnswer inv caps env ∧ t.interactive = true ∧ t.faults.write = none
  all_of_admits : ∀ credentials t', d.Admits inv caps env t credentials t' →
    shown = d.prompts inv env

/-- From one terminal to another these texts were shown, of those that were to be shown. -/
structure Terminal.Prompted (t t' : Terminal) (texts shown : List String) : Prop where
  manner : t'.toManner = t.toManner
  faults : t'.faults = t.faults
  out : t'.out = t.out ++ String.join shown
  in_order : shown <+: texts
  any_iff : shown ≠ [] ↔ texts ≠ [] ∧ t.interactive = true ∧ t.faults.write = none

namespace Terminal.Prompted

variable {t t' t'' : Terminal} {texts shown more : List String}

/-- Where nothing is due, nothing is shown. -/
theorem refl (t : Terminal) : t.Prompted t [] [] := by
  refine ⟨rfl, rfl, ?_, List.prefix_refl _, ?_⟩
  · simp
  · simp

/-- Once all texts were shown, further ones may be. -/
theorem trans (h : t.Prompted t' texts texts) (h' : t'.Prompted t'' more shown) :
    t.Prompted t'' (texts ++ more) (texts ++ shown) := by
  refine ⟨h'.manner.trans h.manner, h'.faults.trans h.faults, ?_, ?_, ?_⟩
  · rw [h'.out, h.out, String.join_append, String.append_assoc]
  · exact (List.prefix_append_right_inj texts).mpr h'.in_order
  · by_cases hnil : texts = []
    · subst hnil
      have hinteractive : t'.interactive = t.interactive := congrArg Manner.interactive h.manner
      have hany := h'.any_iff
      rw [hinteractive, h.faults] at hany
      simpa using hany
    · have hany := h.any_iff.mp hnil
      simp [hnil, hany.2.1, hany.2.2]

/-- What stopped at one of the texts does not show those after them. -/
theorem stopped (h : t.Prompted t' texts shown) (hsome : texts ≠ []) (more : List String) :
    t.Prompted t' (texts ++ more) shown := by
  refine ⟨h.manner, h.faults, h.out, ?_, ?_⟩
  · exact h.in_order.trans (List.prefix_append texts more)
  · rw [h.any_iff]
    simp [hsome]

/-- A question that hears an answer shows all its texts. -/
theorem afterAnswer {answer : String} (h : t.Hears answer) (texts : List String) :
    t.Prompted (t.afterAnswer (String.join texts)) texts texts := by
  refine ⟨rfl, rfl, rfl, List.prefix_refl _, ?_⟩
  simp [h.allowed, h.writable]

/-- A text that can be shown is shown. -/
theorem of_shown (hallowed : t.interactive = true) (hwrite : t.faults.write = none)
    (text : String) (input : List (Option Char)) :
    t.Prompted { t with out := t.out ++ text, input } [text] [text] := by
  refine ⟨rfl, rfl, ?_, List.prefix_refl _, ?_⟩
  · simp
  · simp [hallowed, hwrite]

/-- A text that cannot be shown is not. -/
theorem of_kept (h : t.interactive = false ∨ t.faults.write ≠ none) (text : String) :
    t.Prompted t [text] [] := by
  refine ⟨rfl, rfl, by simp, List.nil_prefix, ?_⟩
  obtain h | h := h <;> simp [h]

/-- A question that is refused shows its text if questions are allowed and the stream works. -/
theorem exists_of_refuses {e : QuestionError} (h : t.Refuses e) (text : String) :
    ∃ shown, t.Prompted (t.ask text).2 [text] shown := by
  cases h with
  | notAllowed hi =>
    have hask : (t.ask text).2 = t := by simp [ask, hi]
    rw [hask]
    exact ⟨[], of_kept (.inl hi) text⟩
  | unwritable hi hw =>
    have hask : (t.ask text).2 = t := by simp [ask, hi, write, hw]
    rw [hask]
    exact ⟨[], of_kept (.inr (by simp [hw])) text⟩
  | unflushable hi hw hf =>
    have hask : (t.ask text).2 = { t with out := t.out ++ text } := by
      simp [ask, hi, write, hw, Terminal.flush, hf]
    rw [hask]
    exact ⟨[text], of_shown hi hw text t.input⟩
  | unreadable hi hw hf hr =>
    have hask : (t.ask text).2 = { t with out := t.out ++ text } := by
      simp [ask, hi, write, hw, Terminal.flush, hf, readLine, hr]
    rw [hask]
    exact ⟨[text], of_shown hi hw text t.input⟩
  | noText hi hw hf hr hl =>
    have hask : (t.ask text).2 = t.afterAnswer text := by
      simp [ask, hi, write, hw, Terminal.flush, hf, readLine, hr, hl, Terminal.afterAnswer]
    rw [hask]
    exact ⟨[text], of_shown hi hw text _⟩

end Terminal.Prompted

/-! ## What asking for secrets shows -/

/-- A secret has no argument exactly if its argument is left out or empty. -/
theorem NeededSecret.hasNoArgument_iff {needed : NeededSecret} :
    needed.HasNoArgument ↔ needed.argument.getD "" = "" := by
  unfold HasNoArgument
  cases needed.argument <;> simp

namespace Credential

variable {needed : NeededSecret} {env : Environment} {t t' : Terminal}

/-- A secret that is asked for shows its label, and ends the line. -/
theorem prompts_cons_of_asked (h : needed.IsAskedFor env) (rest : List NeededSecret) :
    prompts env (needed :: rest) = [needed.label ++ ": ", "\n"] ++ prompts env rest := by
  simp [prompts, h]

/-- A secret that is not asked for shows nothing. -/
theorem prompts_cons_of_not_asked (h : ¬needed.IsAskedFor env) (rest : List NeededSecret) :
    prompts env (needed :: rest) = prompts env rest := by
  simp [prompts, h]

/-- A secret that need not be asked for is obtained without a look at the terminal. -/
theorem exists_obtain_of_not_asked (h : ¬needed.IsAskedFor env) :
    ∃ c, ∀ t, obtain needed env t = (.ok c, t) := by
  by_cases hargument : needed.argument.getD "" = ""
  · cases hset : env needed.envVar with
    | none => exact absurd ⟨hargument, hset⟩ h
    | some value =>
      refine ⟨⟨needed.name, ⟨value⟩, .environment⟩, fun t => obtain_eq_ok_iff.mpr ?_⟩
      exact .fromEnvironment (NeededSecret.hasNoArgument_iff.mpr hargument) hset
  · cases hvalue : needed.argument with
    | none => simp [hvalue] at hargument
    | some value =>
      refine ⟨⟨needed.name, ⟨value⟩, .argument⟩, fun t => obtain_eq_ok_iff.mpr ?_⟩
      exact .fromArgument hvalue (by simpa [hvalue] using hargument)

/-- Otherwise it is asked for. -/
theorem obtain_of_asked (h : needed.IsAskedFor env) (t : Terminal) :
    obtain needed env t = match t.askSecret needed.label with
      | (.ok value, t) => (.ok ⟨needed.name, ⟨value⟩, .prompt⟩, t)
      | (.error e, t) => (.error e, t) := by
  have hnone : needed.argument.filter (· != "") = none :=
    NeededSecret.filter_argument_eq_none_iff.mpr (NeededSecret.hasNoArgument_iff.mpr h.1)
  cases hask : t.askSecret needed.label with
  | mk answer t' => cases answer <;> simp only [obtain, hnone, h.2, hask]

/-- The entry of a secret shows its label, and once it is read the end of the line. -/
theorem exists_prompted_obtain (h : needed.IsAskedFor env) (t : Terminal) :
    ∃ shown, t.Prompted (obtain needed env t).2 [needed.label ++ ": ", "\n"] shown ∧
      ∀ c, (obtain needed env t).1 = .ok c → shown = [needed.label ++ ": ", "\n"] := by
  obtain ⟨answer, hhears⟩ | ⟨e, hrefuses⟩ := t.hears_or_refuses
  · have hask : t.askSecret needed.label = (.ok (Text.trim answer),
        t.afterAnswer (String.join [needed.label ++ ": ", "\n"])) := by
      rw [Terminal.askSecret_eq_ok_iff]
      exact ⟨answer, hhears, rfl, by simp⟩
    refine ⟨_, ?_, fun _ _ => rfl⟩
    rw [obtain_of_asked h, hask]
    exact .afterAnswer hhears _
  · obtain ⟨shown, hshown⟩ := Terminal.Prompted.exists_of_refuses hrefuses (needed.label ++ ": ")
    have herror : (t.askSecret needed.label).1 = .error e :=
      Terminal.askSecret_eq_error_iff.mpr hrefuses
    have hsnd : (obtain needed env t).2 = (t.ask (needed.label ++ ": ")).2 := by
      rw [← Terminal.askSecret_snd hrefuses, obtain_of_asked h]
      split <;> rename_i hask <;> rw [hask]
    refine ⟨shown, ?_, fun c hc => ?_⟩
    · rw [hsnd]
      exact hshown.stopped (by simp) ["\n"]
    · rw [obtain_of_asked h] at hc
      split at hc <;> simp_all

/-- The rest of the secrets is obtained from where the first left the terminal. -/
theorem obtainAll_snd_of_ok {c : Credential} (h : obtain needed env t = (.ok c, t'))
    (rest : List NeededSecret) :
    (obtainAll env (needed :: rest) t).2 = (obtainAll env rest t').2 := by
  simp only [obtainAll, h]
  split <;> rename_i hrest <;> rw [hrest]

/-- If all secrets are obtained, those behind the first are. -/
theorem exists_obtainAll_of_ok {c : Credential} {credentials : List Credential}
    {rest : List NeededSecret} (h : obtain needed env t = (.ok c, t'))
    (hall : (obtainAll env (needed :: rest) t).1 = .ok credentials) :
    ∃ others, (obtainAll env rest t').1 = .ok others := by
  simp only [obtainAll, h] at hall
  split at hall
  · cases hall
  · rename_i others t'' hrest
    exact ⟨others, by rw [hrest]⟩

/-- Of the texts for secrets a first part is shown, and all of them if all secrets are obtained. -/
theorem exists_prompted_obtainAll (env : Environment) (secrets : List NeededSecret)
    (t : Terminal) :
    ∃ shown, t.Prompted (obtainAll env secrets t).2 (prompts env secrets) shown ∧
      ∀ credentials, (obtainAll env secrets t).1 = .ok credentials →
        shown = prompts env secrets := by
  -- each secret shows its prompt whole before the next is asked for
  induction secrets generalizing t with
  | nil => exact ⟨[], .refl t, fun _ _ => rfl⟩
  | cons needed rest ih =>
    by_cases hasked : needed.IsAskedFor env
    · rw [prompts_cons_of_asked hasked]
      obtain ⟨first, hfirst, hwhole⟩ := exists_prompted_obtain hasked t
      cases ho : obtain needed env t with
      | mk answer t₁ =>
        rw [ho] at hfirst hwhole
        cases answer with
        | error e =>
          refine ⟨first, ?_, fun credentials hall => ?_⟩
          · simp only [obtainAll, ho]
            exact hfirst.stopped (by simp) _
          · simp [obtainAll, ho] at hall
        | ok c =>
          rw [hwhole c rfl] at hfirst
          obtain ⟨shown, hshown, hall⟩ := ih t₁
          refine ⟨[needed.label ++ ": ", "\n"] ++ shown, ?_, fun credentials h => ?_⟩
          · rw [obtainAll_snd_of_ok ho]
            exact hfirst.trans hshown
          · obtain ⟨others, hothers⟩ := exists_obtainAll_of_ok ho h
            rw [hall others hothers]
    · rw [prompts_cons_of_not_asked hasked]
      obtain ⟨c, hc⟩ := exists_obtain_of_not_asked hasked
      obtain ⟨shown, hshown, hall⟩ := ih t
      refine ⟨shown, ?_, fun credentials h => ?_⟩
      · rw [obtainAll_snd_of_ok (hc t)]
        exact hshown
      · obtain ⟨others, hothers⟩ := exists_obtainAll_of_ok (hc t) h
        exact hall others hothers

/-- Secrets that need not be asked for are obtained without a look at the terminal. -/
theorem exists_obtainAll_of_prompts_eq_nil {secrets : List NeededSecret}
    (h : prompts env secrets = []) :
    ∃ credentials, ∀ t, obtainAll env secrets t = (.ok credentials, t) := by
  induction secrets with
  | nil => exact ⟨[], fun t => rfl⟩
  | cons needed rest ih =>
    by_cases hasked : needed.IsAskedFor env
    · simp [prompts_cons_of_asked hasked] at h
    · rw [prompts_cons_of_not_asked hasked] at h
      obtain ⟨c, hc⟩ := exists_obtain_of_not_asked hasked
      obtain ⟨credentials, hall⟩ := ih h
      exact ⟨c :: credentials, fun t => by simp only [obtainAll, hc, hall]⟩

/-- Where questions are not allowed, secrets that have to be asked for are not obtained, and the
terminal stays as it is. -/
theorem obtainAll_of_prompts_ne_nil {secrets : List NeededSecret} (h : prompts env secrets ≠ [])
    (ht : t.interactive = false) : obtainAll env secrets t = (.error .notAllowed, t) := by
  induction secrets with
  | nil => simp [prompts] at h
  | cons needed rest ih =>
    by_cases hasked : needed.IsAskedFor env
    · have hask : t.askSecret needed.label = (.error .notAllowed, t) := by
        simp [Terminal.askSecret, Terminal.ask, ht]
      simp only [obtainAll, obtain_of_asked hasked, hask]
    · rw [prompts_cons_of_not_asked hasked] at h
      obtain ⟨c, hc⟩ := exists_obtain_of_not_asked hasked
      simp only [obtainAll, hc, ih h]

end Credential

/-! ## What the gates show -/

namespace Declaration

variable {d : Declaration} {inv : Invocation} {caps : Capabilities} {env : Environment}
  {t : Terminal}

/-- There is a text of the question exactly if the question is put. -/
theorem questionPrompt_ne_nil_iff :
    d.questionPrompt inv ≠ [] ↔
      ∃ question, d.question inv = some question ∧ inv.flags.get "f" = false := by
  unfold questionPrompt
  cases hforced : inv.flags.get "f" <;> cases d.question inv <;> simp

/-- A question that is put is the prompt of its gate. -/
theorem questionPrompt_of_put {question : String} (hquestion : d.question inv = some question)
    (hforced : inv.flags.get "f" = false) : d.questionPrompt inv = [question ++ " "] := by
  simp [questionPrompt, hquestion, hforced]

/-- Where no question is put, its gate changes nothing. -/
theorem clearQuestion_of_questionPrompt_eq_nil (h : d.questionPrompt inv = []) (t : Terminal) :
    d.clearQuestion inv t = (.ok (), t) := by
  rw [clearQuestion_eq_ok_iff]
  by_cases hforced : inv.flags.get "f" = true
  · exact .forced hforced
  · apply Agrees.unasked
    simpa [questionPrompt, hforced] using h

/-- A question that is put decides by its answer. -/
theorem clearQuestion_of_put {question : String} (hquestion : d.question inv = some question)
    (hforced : inv.flags.get "f" = false) (t : Terminal) :
    d.clearQuestion inv t = match t.confirm question with
      | (.ok true, t) => (.ok (), t)
      | (.ok false, t) => (.error .declined, t)
      | (.error e, t) => (.error (.failed (.question e)), t) := by
  have hunforced : inv.isForced = false := hforced
  rcases hconfirm : t.confirm question with ⟨_ | (_ | _), t'⟩ <;>
    simp only [clearQuestion, hquestion, hunforced, Bool.false_eq_true, if_false, hconfirm]

/-- Who agrees was shown the question whole, if it was put. -/
theorem exists_prompted_clearQuestion (d : Declaration) (inv : Invocation) (t : Terminal) :
    ∃ shown, t.Prompted (d.clearQuestion inv t).2 (d.questionPrompt inv) shown ∧
      ((d.clearQuestion inv t).1 = .ok () → shown = d.questionPrompt inv) := by
  by_cases hput : d.questionPrompt inv = []
  · rw [clearQuestion_of_questionPrompt_eq_nil hput, hput]
    exact ⟨[], .refl t, fun _ => rfl⟩
  · obtain ⟨question, hquestion, hforced⟩ := questionPrompt_ne_nil_iff.mp hput
    have htext := questionPrompt_of_put hquestion hforced
    have hsnd : (d.clearQuestion inv t).2 = (t.ask (question ++ " ")).2 := by
      rw [← Terminal.confirm_snd, clearQuestion_of_put hquestion hforced]
      split <;> rename_i hconfirm <;> rw [hconfirm]
    rw [htext, hsnd]
    obtain ⟨answer, hhears⟩ | ⟨e, hrefuses⟩ := t.hears_or_refuses
    · refine ⟨[question ++ " "], ?_, fun _ => rfl⟩
      rw [hhears.ask]
      simpa using Terminal.Prompted.afterAnswer hhears [question ++ " "]
    · obtain ⟨shown, hshown⟩ := Terminal.Prompted.exists_of_refuses hrefuses (question ++ " ")
      refine ⟨shown, hshown, fun hok => ?_⟩
      have herror : (d.clearQuestion inv t).1 = .error (.failed (.question e)) :=
        clearQuestion_eq_error_iff.mpr ⟨question, hquestion, hforced, .inr ⟨e, rfl, hrefuses⟩⟩
      rw [herror] at hok
      cases hok

/-- Of the texts of the gate for secrets a first part is shown, and all of them if it is passed. -/
theorem exists_prompted_clearSecrets (d : Declaration) (inv : Invocation) (env : Environment)
    (t : Terminal) :
    ∃ shown,
      t.Prompted (d.clearSecrets inv env t).2 (Credential.prompts env (d.secrets inv)) shown ∧
        ∀ credentials, (d.clearSecrets inv env t).1 = .ok credentials →
          shown = Credential.prompts env (d.secrets inv) := by
  obtain ⟨shown, hshown, hall⟩ := Credential.exists_prompted_obtainAll env (d.secrets inv) t
  refine ⟨shown, ?_, ?_⟩
  · unfold clearSecrets
    split <;> rename_i hobtained <;> rwa [hobtained] at hshown
  · unfold clearSecrets
    split
    · rename_i credentials t' hobtained
      exact fun _ _ => hall credentials (by rw [hobtained])
    · exact fun _ hok => by cases hok

/-- Of the texts of all gates a first part is shown, and all of them if they are passed. -/
theorem exists_prompted_clear (h : d.Suits inv caps) (env : Environment) (t : Terminal) :
    ∃ shown, t.Prompted (d.clear inv caps env t).2 (d.prompts inv env) shown ∧
      ∀ credentials, (d.clear inv caps env t).1 = .ok credentials →
        shown = d.prompts inv env := by
  obtain ⟨asked, hasked, hagreed⟩ := d.exists_prompted_clearQuestion inv t
  rw [clear_of_suits h]
  cases hq : d.clearQuestion inv t with
  | mk answer t₁ =>
    rw [hq] at hasked hagreed
    cases answer with
    | error stop =>
      obtain ⟨question, hquestion, hforced, -⟩ := clearQuestion_eq_error_iff.mp
        (show (d.clearQuestion inv t).1 = .error stop by rw [hq])
      have hput := questionPrompt_ne_nil_iff.mpr ⟨question, hquestion, hforced⟩
      exact ⟨asked, hasked.stopped hput _, fun _ hall => by cases hall⟩
    | ok _ =>
      rw [hagreed rfl] at hasked
      obtain ⟨shown, hshown, hall⟩ := d.exists_prompted_clearSecrets inv env t₁
      refine ⟨d.questionPrompt inv ++ shown, hasked.trans hshown, fun credentials hok => ?_⟩
      rw [hall credentials hok, prompts]

/-- Unless the arguments and the session suit the command, the gates do not look at the terminal,
and write nothing but the usage text. -/
theorem exists_clear_of_not_suits (h : ¬d.Suits inv caps) (env : Environment) :
    ∃ answer, ∀ t, d.clear inv caps env t = (answer, (d.clearArguments inv t).2) := by
  unfold clear clearArguments
  cases ha : d.checkArguments inv with
  | error e => exact ⟨.error (.usageShown (.usage e)), fun t => rfl⟩
  | ok _ =>
    cases hs : d.clearSession caps with
    | error c => exact ⟨.error (.failed (.lacking c)), fun t => rfl⟩
    | ok _ =>
      obtain ⟨hscope, hrequirements⟩ := clearSession_eq_ok_iff.mp hs
      exact absurd ⟨ha, hscope, hrequirements⟩ h

/-- To check the count of arguments writes nothing to the primary stream. -/
theorem clearArguments_out (d : Declaration) (inv : Invocation) (t : Terminal) :
    (d.clearArguments inv t).2.out = t.out := by
  unfold clearArguments
  split
  · rfl
  · exact (Terminal.warn_out _ _).trans (Terminal.warn_out _ _)

/-- What the gates write to the primary stream is what they show of the prompts. -/
theorem exists_shows (d : Declaration) (inv : Invocation) (caps : Capabilities)
    (env : Environment) (t : Terminal) :
    ∃ shown, d.Shows inv caps env t shown ∧
      (d.clear inv caps env t).2.out = t.out ++ String.join shown := by
  by_cases hsuits : d.Suits inv caps
  · obtain ⟨shown, hshown, hall⟩ := exists_prompted_clear hsuits env t
    refine ⟨shown, ⟨hshown.in_order, ?_, ?_⟩, hshown.out⟩
    · rw [hshown.any_iff, NeedsAnswer]
      simp [hsuits]
    · intro credentials t' hadmits
      apply hall credentials
      rw [clear_eq_ok_iff.mpr hadmits]
  · refine ⟨[], ⟨List.nil_prefix, ?_, ?_⟩, ?_⟩
    · simp [NeedsAnswer, hsuits]
    · intro credentials t' hadmits
      exact absurd hadmits.suits hsuits
    · obtain ⟨answer, hclear⟩ := exists_clear_of_not_suits hsuits env
      rw [hclear, clearArguments_out]
      simp

/-! ## Gates that ask nothing -/

/-- Nor do they where no answer is needed. -/
theorem exists_clear_of_not_needsAnswer (h : ¬d.NeedsAnswer inv caps env) :
    ∃ answer, ∀ t, d.clear inv caps env t = (answer, (d.clearArguments inv t).2) := by
  by_cases hsuits : d.Suits inv caps
  · have hnone : d.questionPrompt inv = [] ∧ Credential.prompts env (d.secrets inv) = [] := by
      simpa [NeedsAnswer, prompts, hsuits] using h
    obtain ⟨credentials, hsecrets⟩ := Credential.exists_obtainAll_of_prompts_eq_nil hnone.2
    refine ⟨.ok ⟨credentials⟩, fun t => ?_⟩
    have harguments : d.clearArguments inv t = (.ok (), t) := by
      simp only [clearArguments, hsuits.arguments]
    simp only [clear_of_suits hsuits, clearQuestion_of_questionPrompt_eq_nil hnone.1, clearSecrets,
      hsecrets, harguments]
  · exact exists_clear_of_not_suits hsuits env

/-- Where an answer is needed and questions are not allowed, the gates stop at the first prompt,
before anything is written or read. -/
theorem clear_of_needsAnswer (h : d.NeedsAnswer inv caps env) (ht : t.interactive = false) :
    d.clear inv caps env t = (.error (.failed (.question .notAllowed)), t) := by
  obtain ⟨hsuits, hsome⟩ := h
  rw [clear_of_suits hsuits]
  by_cases hput : d.questionPrompt inv = []
  · have hasked : Credential.prompts env (d.secrets inv) ≠ [] := by
      simpa [prompts, hput] using hsome
    simp only [clearQuestion_of_questionPrompt_eq_nil hput, clearSecrets,
      Credential.obtainAll_of_prompts_ne_nil hasked ht]
  · obtain ⟨question, hquestion, hforced⟩ := questionPrompt_ne_nil_iff.mp hput
    have hrefused : t.confirm question = (.error .notAllowed, t) := by
      simp [Terminal.confirm, Terminal.ask, ht]
    simp only [clearQuestion_of_put hquestion hforced, hrefused]

end Declaration

end PlatformAdmin
