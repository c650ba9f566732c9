import PlatformAdmin.Proofs.Prompts

/-!
# Changes that prompts do not notice

A prompt looks at little of a terminal: at the leave to ask, at the primary stream and at the input.
A change of anything else is `Terminal.Unnoticed`, and whatever only puts prompts does the same
behind it as before it.  So do the gates of a command, from the question on: they end alike, and
leave the terminal with the change made (`Terminal.Unnoticed.clear`).  The gates before the question
may write the usage text to the secondary stream, so the arguments and the session have to suit the
command.
-/

set_option autoImplicit false

namespace PlatformAdmin

namespace Terminal

/-- A step of the conversation does the same behind a change as before it. -/
def Commutes {α : Type} (change : Terminal → Terminal) (step : Terminal → α × Terminal) : Prop :=
  ∀ t, step (change t) = ((step t).1, change (step t).2)

/-- A change of the terminal that prompts do not notice: it keeps what they look at, and it makes no
difference whether it comes before or after what they write and read. -/
structure Unnoticed (change : Terminal → Terminal) : Prop where
  interactive : ∀ t, (change t).interactive = t.interactive
  writeFault : ∀ t, (change t).faults.write = t.faults.write
  flushFault : ∀ t, (change t).faults.flush = t.faults.flush
  readFault : ∀ t, (change t).faults.read = t.faults.read
  out : ∀ t, (change t).out = t.out
  input : ∀ t, (change t).input = t.input
  setOut : ∀ t out, { change t with out := out } = change { t with out }
  setInput : ∀ t input, { change t with input := input } = change { t with input }

end Terminal

open Terminal (Commutes)

namespace Terminal.Unnoticed

variable {change : Terminal → Terminal}

/-! ## Prompts -/

/-- To write goes on as before. -/
theorem write (h : Unnoticed change) (text : String) : Commutes change (·.write text) := by
  intro t
  simp only [Terminal.write, h.writeFault]
  cases t.faults.write with
  | some fault => rfl
  | none => simp only [h.setOut, h.out]

/-- To flush goes on as before. -/
theorem flush (h : Unnoticed change) (t : Terminal) : (change t).flush = t.flush := by
  simp only [Terminal.flush, h.flushFault]

/-- To read a line goes on as before. -/
theorem readLine (h : Unnoticed change) : Commutes change Terminal.readLine := by
  intro t
  simp only [Terminal.readLine, h.readFault, h.input, h.setInput]
  cases t.faults.read with
  | some fault => rfl
  | none =>
    dsimp only
    cases Text.Utf8.text? (splitLine t.input).1 <;> rfl

/-- To ask goes on as before. -/
theorem ask (h : Unnoticed change) (text : String) : Commutes change (·.ask text) := by
  intro t
  have hwrite := h.write text t
  dsimp only at hwrite
  simp only [Terminal.ask, h.interactive, hwrite]
  cases t.interactive with
  | false => rfl
  | true =>
    rcases t.write text with ⟨fault | _, t'⟩
    · rfl
    · simp only [h.flush, if_true]
      cases t'.flush with
      | error fault => rfl
      | ok _ => exact h.readLine t'

/-- To ask for a yes goes on as before. -/
theorem confirm (h : Unnoticed change) (question : String) :
    Commutes change (·.confirm question) := by
  intro t
  have hask := h.ask (question ++ " ") t
  dsimp only at hask
  simp only [Terminal.confirm, hask]
  rcases t.ask (question ++ " ") with ⟨_ | _, t'⟩ <;> rfl

/-- To ask for a secret goes on as before. -/
theorem askSecret (h : Unnoticed change) (label : String) :
    Commutes change (·.askSecret label) := by
  intro t
  have hask := h.ask (label ++ ": ") t
  dsimp only at hask
  simp only [Terminal.askSecret, hask]
  rcases t.ask (label ++ ": ") with ⟨e | answer, t'⟩
  · rfl
  · have hwrite := h.write "\n" t'
    dsimp only at hwrite
    simp only [hwrite]

/-! ## Secrets -/

/-- To obtain a secret goes on as before. -/
theorem obtain (h : Unnoticed change) (needed : NeededSecret) (env : Environment) :
    Commutes change (Credential.obtain needed env) := by
  intro t
  by_cases hasked : needed.IsAskedFor env
  · have hask := h.askSecret needed.label t
    dsimp only at hask
    rw [Credential.obtain_of_asked hasked, Credential.obtain_of_asked hasked, hask]
    rcases t.askSecret needed.label with ⟨_ | _, t'⟩ <;> rfl
  · obtain ⟨c, hc⟩ := Credential.exists_obtain_of_not_asked hasked
    rw [hc, hc]

/-- To obtain secrets one by one goes on as before. -/
theorem obtainAll (h : Unnoticed change) (env : Environment) (secrets : List NeededSecret) :
    Commutes change (Credential.obtainAll env secrets) := by
  induction secrets with
  | nil =>
    intro t
    rfl
  | cons needed rest ih =>
    intro t
    simp only [Credential.obtainAll, h.obtain needed env t]
    rcases Credential.obtain needed env t with ⟨e | c, t'⟩
    · rfl
    · simp only [ih t']
      rcases Credential.obtainAll env rest t' with ⟨_ | _, t''⟩ <;> rfl

/-! ## Gates -/

variable {d : Declaration} {inv : Invocation} {caps : Capabilities}

/-- The gate of the question goes on as before. -/
theorem clearQuestion (h : Unnoticed change) (d : Declaration) (inv : Invocation) :
    Commutes change (d.clearQuestion inv) := by
  intro t
  by_cases hput : d.questionPrompt inv = []
  · rw [Declaration.clearQuestion_of_questionPrompt_eq_nil hput,
      Declaration.clearQuestion_of_questionPrompt_eq_nil hput]
  · obtain ⟨question, hquestion, hforced⟩ := Declaration.questionPrompt_ne_nil_iff.mp hput
    have hconfirm := h.confirm question t
    dsimp only at hconfirm
    rw [Declaration.clearQuestion_of_put hquestion hforced,
      Declaration.clearQuestion_of_put hquestion hforced, hconfirm]
    rcases t.confirm question with ⟨_ | (_ | _), t'⟩ <;> rfl

/-- The gate of the secrets goes on as before. -/
theorem clearSecrets (h : Unnoticed change) (d : Declaration) (inv : Invocation)
    (env : Environment) : Commutes change (d.clearSecrets inv env) := by
  intro t
  unfold Declaration.clearSecrets
  rw [h.obtainAll env (d.secrets inv) t]
  rcases Credential.obtainAll env (d.secrets inv) t with ⟨_ | _, t'⟩ <;> rfl

/-- Gates that come to their prompts do not notice the change. -/
theorem clear (h : Unnoticed change) (hsuits : d.Suits inv caps) (env : Environment) :
    Commutes change (d.clear inv caps env) := by
  intro t
  rw [Declaration.clear_of_suits hsuits, Declaration.clear_of_suits hsuits, h.clearQuestion d inv t]
  rcases d.clearQuestion inv t with ⟨stop | _, t'⟩
  · rfl
  · exact h.clearSecrets d inv env t'

end Terminal.Unnoticed

end PlatformAdmin
