import PlatformAdmin.Proofs.Lines
import PlatformAdmin.Proofs.Prompts

/-!
# The order of secrets and their sources

A secret comes from the first of three sources that has it: the argument, the environment, and a
line of the input.  `NeededSecret.ComesTo` says so for one secret, given the line that would answer
for it, and `Credential.Answered` says it for a list: the lines go, in order, to the secrets that
have to be asked for, and no other secret uses one up.

The main statement, `secrets_in_order`, is about a list of secrets that is obtained, and about the
gates of any command that declares it, whose question uses up a line before them.  It also tells
what the secrets show and leave of the input, that a source of lower rank makes no difference, and
that nothing behind a secret that fails is looked at.
-/

set_option autoImplicit false

namespace PlatformAdmin

/-- The credential that a secret comes to, if this is the line that would answer for it. -/
inductive NeededSecret.ComesTo (needed : NeededSecret) (env : Environment) (line : List Char) :
    Credential → Prop
  | argument {value : String} (given : needed.argument = some value) (nonempty : value ≠ "") :
      ComesTo needed env line ⟨needed.name, ⟨value⟩, .argument⟩
  | environment {value : String} (notGiven : needed.HasNoArgument)
      (isSet : env needed.envVar = some value) :
      ComesTo needed env line ⟨needed.name, ⟨value⟩, .environment⟩
  | prompt (notGiven : needed.HasNoArgument) (notSet : env needed.envVar = none) :
      ComesTo needed env line
        ⟨needed.name, ⟨Text.trim (String.ofList line)⟩, .prompt⟩

namespace Credential

/-- How many secrets have to be asked for. -/
def asked (env : Environment) (secrets : List NeededSecret) : Nat :=
  secrets.countP fun needed => needed.IsAskedFor env

/-- Secrets come to these credentials, in order; the lines of the text, from a number on, answer
for those that have to be asked for. -/
structure Answered (env : Environment) (text : String) (number : Nat)
    (secrets : List NeededSecret) (credentials : List Credential) : Prop where
  length_eq : credentials.length = secrets.length
  comesTo : ∀ before needed after, secrets = before ++ needed :: after →
    ∃ c, credentials[before.length]? = some c ∧
      needed.ComesTo env (Text.segment text (number + asked env before)) c

variable {env : Environment} {text : String} {number : Nat} {needed : NeededSecret}
  {secrets : List NeededSecret} {credentials : List Credential} {c : Credential} {t t' : Terminal}

/-- The secrets that are asked for are counted one by one. -/
theorem asked_cons (env : Environment) (needed : NeededSecret) (secrets : List NeededSecret) :
    asked env (needed :: secrets) =
      (if needed.IsAskedFor env then 1 else 0) + asked env secrets := by
  unfold asked
  rw [List.countP_cons, Nat.add_comm]
  simp

/-- No secret is answered by nothing. -/
theorem Answered.nil (env : Environment) (text : String) (number : Nat) :
    Answered env text number [] [] :=
  ⟨rfl, fun before needed after h => by simp at h⟩

/-- The first secret takes a line if it is asked for, and the others take the lines behind it. -/
theorem Answered.cons (hfirst : needed.ComesTo env (Text.segment text number) c)
    (hrest : Answered env text (number + if needed.IsAskedFor env then 1 else 0) secrets
      credentials) :
    Answered env text number (needed :: secrets) (c :: credentials) := by
  refine ⟨by simp [hrest.length_eq], fun before needed' after h => ?_⟩
  cases before with
  | nil =>
    obtain ⟨rfl, -⟩ := List.cons.inj h
    exact ⟨c, rfl, hfirst⟩
  | cons first before =>
    rw [List.cons_append, List.cons.injEq] at h
    obtain ⟨rfl, hsecrets⟩ := h
    obtain ⟨c', hc', hcomes⟩ := hrest.comesTo before needed' after hsecrets
    refine ⟨c', by simpa using hc', ?_⟩
    rwa [asked_cons, ← Nat.add_assoc]

end Credential

/-! ## Secrets that are all obtained -/

/-- The terminal on which these texts were shown and so many segments of a text were read. -/
def Terminal.afterPrompts (t : Terminal) (shown : List String) (text : String) (number : Nat) :
    Terminal :=
  { t with
    out := t.out ++ String.join shown
    input := (Text.behindSegments text number).map some }

section

variable {env : Environment} {text : String} {number : Nat} {needed : NeededSecret}
  {secrets : List NeededSecret} {t t' : Terminal}

/-- A terminal that can ask can ask on. -/
theorem Terminal.CanAsk.afterPrompts (h : t.CanAsk) (shown : List String) (text : String)
    (number : Nat) : (t.afterPrompts shown text number).CanAsk :=
  ⟨h.allowed, h.writable, h.flushable, h.readable⟩

/-- Prompts may be shown in two parts. -/
theorem Terminal.afterPrompts_afterPrompts (t : Terminal) (shown shown' : List String)
    (text : String) (number number' : Nat) :
    (t.afterPrompts shown text number).afterPrompts shown' text number' =
      t.afterPrompts (shown ++ shown') text number' := by
  simp only [afterPrompts, String.join_append, String.append_assoc]

/-- Where no prompt is shown, nothing changes. -/
theorem Terminal.afterPrompts_nil (hinput : t.input = (Text.behindSegments text number).map some) :
    t.afterPrompts [] text number = t := by
  rw [afterPrompts, ← hinput]
  simp

namespace Credential

/-- Secrets in two parts are prompted for part by part. -/
theorem prompts_append (env : Environment) (secrets secrets' : List NeededSecret) :
    prompts env (secrets ++ secrets') = prompts env secrets ++ prompts env secrets' :=
  List.flatMap_append

/-- The first source that has a secret gives it, and only a question changes the terminal. -/
theorem exists_obtain_of_canAsk (needed : NeededSecret) (env : Environment) (ht : t.CanAsk)
    (hinput : t.input = (Text.behindSegments text number).map some) :
    ∃ c, needed.ComesTo env (Text.segment text number) c ∧
      obtain needed env t = (.ok c, t.afterPrompts (prompts env [needed]) text
        (number + if needed.IsAskedFor env then 1 else 0)) := by
  by_cases hargument : needed.HasNoArgument
  · cases hset : env needed.envVar with
    | some value =>
      have hasked : ¬needed.IsAskedFor env := fun h => by simp [h.2] at hset
      refine ⟨_, .environment hargument hset, obtain_eq_ok_iff.mpr ?_⟩
      rw [prompts_cons_of_not_asked hasked, if_neg hasked, Nat.add_zero]
      exact (Terminal.afterPrompts_nil hinput).symm ▸ .fromEnvironment hargument hset
    | none =>
      have hasked : needed.IsAskedFor env :=
        ⟨NeededSecret.hasNoArgument_iff.mp hargument, hset⟩
      have hyields := NeededSecret.Yields.fromPrompt hargument hset (ht.hears hinput)
      refine ⟨_, .prompt hargument hset, obtain_eq_ok_iff.mpr ?_⟩
      rw [Text.trim_stripReturns, Terminal.afterAnswer_of_input hinput] at hyields
      rw [prompts_cons_of_asked hasked, if_pos hasked]
      simpa [Terminal.afterPrompts, prompts] using hyields
  · obtain ⟨value, hvalue, hne⟩ : ∃ value, needed.argument = some value ∧ value ≠ "" := by
      rw [NeededSecret.HasNoArgument, not_or] at hargument
      obtain ⟨value, hvalue⟩ := Option.ne_none_iff_exists'.mp hargument.1
      exact ⟨value, hvalue, fun h => hargument.2 (h ▸ hvalue)⟩
    have hasked : ¬needed.IsAskedFor env :=
      fun h => hargument (NeededSecret.hasNoArgument_iff.mpr h.1)
    refine ⟨_, .argument hvalue hne, obtain_eq_ok_iff.mpr ?_⟩
    rw [prompts_cons_of_not_asked hasked, if_neg hasked, Nat.add_zero]
    exact (Terminal.afterPrompts_nil hinput).symm ▸ .fromArgument hvalue hne

/-- A terminal that can ask obtains all secrets, each from its own line. -/
theorem exists_obtainAll_of_canAsk (secrets : List NeededSecret) (env : Environment)
    (ht : t.CanAsk)
    (hinput : t.input = (Text.behindSegments text number).map some) :
    ∃ credentials, Answered env text number secrets credentials ∧
      obtainAll env secrets t = (.ok credentials,
        t.afterPrompts (prompts env secrets) text (number + asked env secrets)) := by
  -- the number of the next line goes up with each secret that is asked for
  induction secrets generalizing t number with
  | nil =>
    refine ⟨[], .nil env text number, ?_⟩
    exact congrArg (Prod.mk _) (Terminal.afterPrompts_nil hinput).symm
  | cons needed rest ih =>
    obtain ⟨c, hcomes, hfirst⟩ := exists_obtain_of_canAsk needed env ht hinput
    obtain ⟨credentials, hanswered, hrest⟩ := ih (ht.afterPrompts (prompts env [needed]) text _) rfl
    refine ⟨c :: credentials, hanswered.cons hcomes, ?_⟩
    rw [Terminal.afterPrompts_afterPrompts, ← prompts_append, List.singleton_append, Nat.add_assoc,
      ← asked_cons] at hrest
    simp only [obtainAll, hfirst, hrest]

end Credential

/-! ## Secrets that fail -/

/-- Where a secret fails, those behind it are not looked at. -/
theorem Credential.obtainAll_of_fails {before : List NeededSecret}
    {credentials : List Credential} {e : QuestionError}
    (hbefore : Obtained env t before credentials t') (hfails : needed.Fails env t' e)
    (after : List NeededSecret) :
    obtainAll env (before ++ needed :: after) t = (.error e, (t'.askSecret needed.label).2) := by
  induction hbefore with
  | @nil t =>
    have hasked : needed.IsAskedFor env :=
      ⟨NeededSecret.hasNoArgument_iff.mp hfails.argument, hfails.setting⟩
    have herror : (t.askSecret needed.label).1 = .error e :=
      Terminal.askSecret_eq_error_iff.mpr hfails.refused
    rw [List.nil_append, obtainAll, obtain_of_asked hasked]
    cases hask : t.askSecret needed.label with
    | mk answer t₁ =>
      rw [hask] at herror
      obtain rfl : answer = .error e := herror
      rfl
  | cons hfirst _ ih =>
    simp only [List.cons_append, obtainAll, obtain_eq_ok_iff.mpr hfirst, ih hfails]

/-- A source makes those of lower rank indifferent: an argument the environment and the input, and a
variable that is set the input. -/
theorem Credential.obtain_of_ranked {env' : Environment}
    (h : ¬needed.HasNoArgument ∨
      env needed.envVar ≠ none ∧ env' needed.envVar = env needed.envVar) (t t' : Terminal) :
    (obtain needed env t).1 = (obtain needed env' t').1 ∧ (obtain needed env t).2 = t := by
  unfold obtain
  cases hargument : needed.argument.filter (· != "") with
  | some value => exact ⟨rfl, rfl⟩
  | none =>
    have hnone := NeededSecret.filter_argument_eq_none_iff.mp hargument
    obtain hgiven | ⟨hset, hsame⟩ := h
    · exact absurd hnone hgiven
    · cases hvalue : env needed.envVar with
      | none => exact absurd hvalue hset
      | some value =>
        rw [hvalue] at hsame
        simp only [hsame]
        exact ⟨trivial, trivial⟩

/-! ## The gates -/

/-- The question, if it is put, uses up a line, and the secrets are obtained behind it. -/
theorem Declaration.exists_clear_of_canAsk (env : Environment) {d : Declaration}
    {inv : Invocation} {caps : Capabilities} (hsuits : d.Suits inv caps) (ht : t.CanAsk)
    (hinput : t.input = text.toList.map some)
    (hyes : d.questionPrompt inv ≠ [] →
      Terminal.meansYes (String.ofList (Text.segment text 0)) = true) :
    ∃ credentials,
      Credential.Answered env text (d.questionPrompt inv).length (d.secrets inv) credentials ∧
        d.clear inv caps env t = (.ok ⟨credentials⟩, t.afterPrompts (d.prompts inv env) text
          ((d.questionPrompt inv).length + Credential.asked env (d.secrets inv))) := by
  rw [← Text.behindSegments_zero] at hinput
  -- after the question, as many lines were read as texts were shown
  have hquestion : d.clearQuestion inv t =
      (.ok (), t.afterPrompts (d.questionPrompt inv) text (d.questionPrompt inv).length) := by
    by_cases hput : d.questionPrompt inv = []
    · rw [clearQuestion_of_questionPrompt_eq_nil hput, hput, List.length_nil,
        Terminal.afterPrompts_nil hinput]
    · obtain ⟨question, hasked, hforced⟩ := questionPrompt_ne_nil_iff.mp hput
      have htext := questionPrompt_of_put hasked hforced
      have hmeans := hyes hput
      rw [Terminal.meansYes, ← Text.trim_stripReturns] at hmeans
      have hagrees := Agrees.answered hasked hforced (ht.hears hinput) hmeans
      rw [Terminal.afterAnswer_of_input hinput] at hagrees
      rw [clearQuestion_eq_ok_iff, htext]
      simpa [Terminal.afterPrompts] using hagrees
  obtain ⟨credentials, hanswered, hsecrets⟩ := Credential.exists_obtainAll_of_canAsk (d.secrets inv)
    env (ht.afterPrompts (d.questionPrompt inv) text _) rfl
  refine ⟨credentials, hanswered, ?_⟩
  rw [Terminal.afterPrompts_afterPrompts] at hsecrets
  simp only [clear_of_suits hsuits, hquestion, clearSecrets, hsecrets, prompts]

end

/-- A list of secrets is obtained in order, each from the first source that has it.  Questions take
the lines of the input in order, behind that of the question of the command if that is put; nothing
else is read, and nothing is shown but the texts of the questions.  Sources of lower rank make no
difference, and where a secret fails, those behind it do not either. -/
theorem secrets_in_order (secrets : List NeededSecret) (env : Environment) :
    (∀ (text : String) (t : Terminal), t.CanAsk →
      (∀ number, t.input = (Text.behindSegments text number).map some →
        ∃ credentials, Credential.Answered env text number secrets credentials ∧
          Credential.obtainAll env secrets t = (.ok credentials,
            t.afterPrompts (Credential.prompts env secrets) text
              (number + Credential.asked env secrets))) ∧
      ∀ (d : Declaration) (inv : Invocation) (caps : Capabilities), d.secrets inv = secrets →
        d.Suits inv caps → t.input = text.toList.map some →
        (d.questionPrompt inv ≠ [] →
          Terminal.meansYes (String.ofList (Text.segment text 0)) = true) →
        let number := if d.questionPrompt inv = [] then 0 else 1
        ∃ credentials, Credential.Answered env text number secrets credentials ∧
          d.clear inv caps env t = (.ok ⟨credentials⟩,
            t.afterPrompts (d.questionPrompt inv ++ Credential.prompts env secrets) text
              (number + Credential.asked env secrets))) ∧
      (∀ needed ∈ secrets, ∀ (env' : Environment) (t t' : Terminal),
        (¬needed.HasNoArgument ∨
          env needed.envVar ≠ none ∧ env' needed.envVar = env needed.envVar) →
        (Credential.obtain needed env t).1 = (Credential.obtain needed env' t').1 ∧
          (Credential.obtain needed env t).2 = t) ∧
      ∀ (t t' : Terminal) (e : QuestionError), Credential.obtainAll env secrets t = (.error e, t') →
        ∃ before needed after credentials t₁, secrets = before ++ needed :: after ∧
          Credential.obtainAll env before t = (.ok credentials, t₁) ∧ needed.IsAskedFor env ∧
          t₁.askSecret needed.label = (.error e, t') ∧
          ∀ after', Credential.obtainAll env (before ++ needed :: after') t = (.error e, t') := by
  refine ⟨fun text t ht => ⟨?_, ?_⟩, ?_, ?_⟩
  · intro number hinput
    exact Credential.exists_obtainAll_of_canAsk secrets env ht hinput
  · rintro d inv caps rfl hsuits hinput hyes number
    have hnumber : (d.questionPrompt inv).length = number := by
      by_cases hput : d.questionPrompt inv = []
      · rw [hput]
        exact (if_pos hput).symm
      · obtain ⟨question, hasked, hforced⟩ := Declaration.questionPrompt_ne_nil_iff.mp hput
        rw [Declaration.questionPrompt_of_put hasked hforced]
        exact (if_neg hput).symm
    obtain ⟨credentials, hanswered, hclear⟩ :=
      Declaration.exists_clear_of_canAsk env hsuits ht hinput hyes
    rw [hnumber] at hanswered hclear
    exact ⟨credentials, hanswered, hclear⟩
  · intro needed _ env' t t' hranked
    exact Credential.obtain_of_ranked hranked t t'
  · intro t t' e herror
    have hfst : (Credential.obtainAll env secrets t).1 = .error e := by rw [herror]
    obtain ⟨before, needed, after, credentials, t₁, rfl, hbefore, hfails⟩ :=
      Credential.obtainAll_eq_error_iff.mp hfst
    have hstops := Credential.obtainAll_of_fails hbefore hfails
    obtain rfl : (t₁.askSecret needed.label).2 = t' := by
      rw [hstops after] at herror
      exact congrArg Prod.snd herror
    refine ⟨before, needed, after, credentials, t₁, rfl,
      Credential.obtainAll_eq_ok_iff.mpr hbefore,
      ⟨NeededSecret.hasNoArgument_iff.mp hfails.argument, hfails.setting⟩, ?_, hstops⟩
    have hasks : (t₁.askSecret needed.label).1 = .error e :=
      Terminal.askSecret_eq_error_iff.mpr hfails.refused
    rw [← hasks]

/-- The first line answers the question, and the next two the first and the last of three secrets;
an empty variable gives the one between them. -/
theorem secrets_in_order_confirmed :
    let secrets : List NeededSecret :=
      [⟨"a", "A", "First", none⟩, ⟨"b", "B", "Second", some ""⟩, ⟨"c", "C", "Third", none⟩]
    let env := Environment.ofList [("B", "")]
    let d : Declaration :=
      { name := "d", usage := "d", checkArguments := fun _ => .ok ()
        question := fun _ => some "Go on?", secrets := fun _ => secrets }
    let caps : Capabilities := { loggedIn := true }
    let text := "yes\n one \r\ntwo"
    let t := Terminal.ofInput text
    t.CanAsk ∧ d.Suits {} caps ∧ t.input = text.toList.map some ∧
      Terminal.meansYes (String.ofList (Text.segment text 0)) = true ∧
      ∃ credentials, Credential.Answered env text 1 secrets credentials ∧
        d.clear {} caps env t = (.ok ⟨credentials⟩,
          { t with out := "Go on? First: \nThird: \n", input := [] }) ∧
        credentials = [⟨"a", ⟨"one"⟩, .prompt⟩, ⟨"b", ⟨""⟩, .environment⟩,
          ⟨"c", ⟨"two"⟩, .prompt⟩] := by
  intro secrets env d caps text t
  have ht : t.CanAsk := ⟨rfl, rfl, rfl, rfl⟩
  have hsuits : d.Suits {} caps := by
    refine ⟨rfl, fun c hc => ?_, fun c hc => by cases hc⟩
    cases c with
    | loggedIn => rfl
    | orgTargeted => cases hc
    | spaceTargeted => cases hc
  have hyes : Terminal.meansYes (String.ofList (Text.segment text 0)) = true := by decide
  obtain ⟨hsecrets, -⟩ := secrets_in_order secrets env
  obtain ⟨credentials, hanswered, hclear⟩ :=
    (hsecrets text t ht).2 d {} caps rfl hsuits rfl (fun _ => hyes)
  have hexplicit : d.clear {} caps env t = (.ok ⟨[⟨"a", ⟨"one"⟩, .prompt⟩,
      ⟨"b", ⟨""⟩, .environment⟩, ⟨"c", ⟨"two"⟩, .prompt⟩]⟩,
      { t with out := "Go on? First: \nThird: \n", input := [] }) := by decide +kernel
  rw [hexplicit, Prod.mk.injEq, Except.ok.injEq, Credentials.mk.injEq] at hclear
  obtain ⟨rfl, -⟩ := hclear
  exact ⟨ht, hsuits, rfl, hyes, _, hanswered, hexplicit, rfl⟩

end PlatformAdmin
