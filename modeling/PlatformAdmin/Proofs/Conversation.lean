import PlatformAdmin.Terminal

/-!
# What comes of a question

A question is answered only if questions are allowed, the text can be written and flushed, and
the input can be read as text: `Terminal.Hears` collects these conditions and names the answer.
Otherwise the question fails, and `Terminal.Refuses` says with which error: the first condition
that is not met decides.  Neither depends on the text that is shown.

The lemmas below state, for each kind of question, exactly when it is answered and what the
terminal is like afterwards.  Later modules use them and do not look into `Terminal.ask` again.
-/

set_option autoImplicit false

namespace PlatformAdmin.Terminal

/-- A question asked on this terminal gets this answer. -/
structure Hears (t : Terminal) (answer : String) : Prop where
  allowed : t.interactive = true
  writable : t.faults.write = none
  flushable : t.faults.flush = none
  readable : t.faults.read = none
  heard : ∃ line, Text.Utf8.text? (splitLine t.input).1 = some line ∧ answer = stripReturns line

/-- A question asked on this terminal fails with this error. -/
inductive Refuses (t : Terminal) : QuestionError → Prop
  | notAllowed (allowed : t.interactive = false) : Refuses t .notAllowed
  | unwritable {fault : String} (allowed : t.interactive = true)
      (writable : t.faults.write = some fault) : Refuses t (.io fault)
  | unflushable {fault : String} (allowed : t.interactive = true)
      (writable : t.faults.write = none) (flushable : t.faults.flush = some fault) :
      Refuses t (.io fault)
  | unreadable {fault : String} (allowed : t.interactive = true)
      (writable : t.faults.write = none) (flushable : t.faults.flush = none)
      (readable : t.faults.read = some fault) : Refuses t (.io fault)
  | noText (allowed : t.interactive = true)
      (writable : t.faults.write = none) (flushable : t.faults.flush = none)
      (readable : t.faults.read = none)
      (heard : Text.Utf8.text? (splitLine t.input).1 = none) :
      Refuses t (.io "stream did not contain valid UTF-8")

/-- The terminal after a question that was answered: the text is shown and a line is read. -/
def afterAnswer (t : Terminal) (text : String) : Terminal :=
  { t with out := t.out ++ text, input := (splitLine t.input).2 }

variable {t t' : Terminal} {text answer question label : String} {e : QuestionError}

/-- A question is either answered or refused. -/
theorem hears_or_refuses (t : Terminal) : (∃ answer, t.Hears answer) ∨ ∃ e, t.Refuses e := by
  cases hi : t.interactive with
  | false => exact .inr ⟨_, .notAllowed hi⟩
  | true =>
    cases hw : t.faults.write with
    | some fault => exact .inr ⟨_, .unwritable hi hw⟩
    | none =>
      cases hf : t.faults.flush with
      | some fault => exact .inr ⟨_, .unflushable hi hw hf⟩
      | none =>
        cases hr : t.faults.read with
        | some fault => exact .inr ⟨_, .unreadable hi hw hf hr⟩
        | none =>
          cases hl : Text.Utf8.text? (splitLine t.input).1 with
          | none => exact .inr ⟨_, .noText hi hw hf hr hl⟩
          | some line => exact .inl ⟨_, hi, hw, hf, hr, line, hl, rfl⟩

/-- What a terminal hears is the answer, and the line is used up. -/
theorem Hears.ask (h : t.Hears answer) (text : String) :
    t.ask text = (.ok answer, t.afterAnswer text) := by
  obtain ⟨line, hline, rfl⟩ := h.heard
  simp only [Terminal.ask, h.allowed, write, h.writable, Terminal.flush, h.flushable, readLine,
    h.readable, hline, if_true, afterAnswer]

/-- The error of a refusal does not depend on the text. -/
theorem Refuses.ask (h : t.Refuses e) (text : String) : (t.ask text).1 = .error e := by
  cases h with
  | notAllowed hi => simp [Terminal.ask, hi]
  | unwritable hi hw => simp [Terminal.ask, hi, write, hw]
  | unflushable hi hw hf => simp [Terminal.ask, hi, write, hw, Terminal.flush, hf]
  | unreadable hi hw hf hr => simp [Terminal.ask, hi, write, hw, Terminal.flush, hf, readLine, hr]
  | noText hi hw hf hr hl =>
    simp [Terminal.ask, hi, write, hw, Terminal.flush, hf, readLine, hr, hl]

/-- A question gets no answer exactly if it is refused. -/
theorem ask_eq_error_iff : (t.ask text).1 = .error e ↔ t.Refuses e := by
  refine ⟨fun h => ?_, fun h => h.ask text⟩
  obtain ⟨a, ha⟩ | ⟨e', he⟩ := hears_or_refuses t
  · simp [ha.ask] at h
  · have := he.ask text
    rw [h, Except.error.injEq] at this
    exact this ▸ he

/-- A question leaves the terminal as it is, or shows its text, or also uses up a line. -/
theorem ask_snd (t : Terminal) (text : String) :
    (t.ask text).2 = t ∨ (t.ask text).2 = { t with out := t.out ++ text } ∨
      (t.ask text).2 = t.afterAnswer text := by
  obtain ⟨answer, h⟩ | ⟨e, h⟩ := hears_or_refuses t
  · exact .inr (.inr (by rw [h.ask]))
  · cases h with
    | notAllowed hi => exact .inl (by simp [Terminal.ask, hi])
    | unwritable hi hw => exact .inl (by simp [Terminal.ask, hi, write, hw])
    | unflushable hi hw hf =>
      exact .inr (.inl (by simp [Terminal.ask, hi, write, hw, Terminal.flush, hf]))
    | unreadable hi hw hf hr =>
      exact .inr (.inl (by simp [Terminal.ask, hi, write, hw, Terminal.flush, hf, readLine, hr]))
    | noText hi hw hf hr hl =>
      refine .inr (.inr ?_)
      simp [Terminal.ask, hi, write, hw, Terminal.flush, hf, readLine, hr, hl, afterAnswer]

/-- What the reading of a line comes to. -/
def answerOf (line : List (Option Char)) : Except QuestionError String :=
  match Text.Utf8.text? line with
  | some text => .ok (stripReturns text)
  | none => .error (.io "stream did not contain valid UTF-8")

/-- Whether a question gets to read does not depend on the input; if it does, it reads a line. -/
theorem ask_of_input (t : Terminal) (text : String) :
    (∃ e, ∃ t' : Terminal, ∀ input, ({ t with input } : Terminal).ask text =
        (.error e, { t' with input })) ∨
      t.faults.write = none ∧ ∀ input, ({ t with input } : Terminal).ask text =
        (answerOf (splitLine input).1, ({ t with input } : Terminal).afterAnswer text) := by
  cases hi : t.interactive with
  | false =>
    refine .inl ⟨.notAllowed, t, fun input => ?_⟩
    simp only [ask, hi, Bool.false_eq_true, if_false]
  | true =>
    simp only [ask, hi, if_true, write]
    cases hw : t.faults.write with
    | some fault => exact .inl ⟨_, t, fun _ => rfl⟩
    | none =>
      simp only [Terminal.flush]
      cases hf : t.faults.flush with
      | some fault => exact .inl ⟨_, { t with out := t.out ++ text }, fun _ => rfl⟩
      | none =>
        simp only [readLine]
        cases hr : t.faults.read with
        | some fault => exact .inl ⟨_, { t with out := t.out ++ text }, fun _ => rfl⟩
        | none =>
          refine .inr ⟨trivial, fun input => ?_⟩
          simp only [answerOf, afterAnswer]
          cases Text.Utf8.text? (splitLine input).1 <;> rfl

/-! ## Yes or no -/

/-- A question is answered exactly if an answer is heard, and with a yes exactly if the answer means
yes. -/
theorem confirm_eq_ok_iff {yes : Bool} :
    t.confirm question = (.ok yes, t') ↔
      ∃ answer, t.Hears answer ∧ yes = meansYes answer ∧ t' = t.afterAnswer (question ++ " ") := by
  constructor
  · intro h
    obtain ⟨a, ha⟩ | ⟨e, he⟩ := hears_or_refuses t
    · simp only [confirm, ha.ask, Prod.mk.injEq, Except.ok.injEq] at h
      exact ⟨a, ha, h.1.symm, h.2.symm⟩
    · have key := he.ask (question ++ " ")
      unfold confirm at h
      split at h <;> simp_all
  · rintro ⟨a, ha, hyes, ht'⟩
    simp only [confirm, ha.ask, hyes, ht']

/-- Such a question fails exactly if it is refused. -/
theorem confirm_eq_error_iff : (t.confirm question).1 = .error e ↔ t.Refuses e := by
  have key : (t.ask (question ++ " ")).1 = .error e ↔ t.Refuses e := ask_eq_error_iff
  rw [← key, confirm]
  split <;> rename_i h <;> simp [h]

/-- To ask for a yes leaves the terminal as asking does. -/
theorem confirm_snd (t : Terminal) (question : String) :
    (t.confirm question).2 = (t.ask (question ++ " ")).2 := by
  unfold confirm
  split <;> rename_i h <;> rw [h]

/-! ## Secrets -/

/-- A secret is given exactly if an answer is heard, and it is that answer without the blanks around
it. -/
theorem askSecret_eq_ok_iff {value : String} :
    t.askSecret label = (.ok value, t') ↔
      ∃ answer, t.Hears answer ∧ value = Text.trim answer ∧
        t' = t.afterAnswer (label ++ ": " ++ "\n") := by
  have hwrite : ∀ a, t.Hears a →
      ((t.afterAnswer (label ++ ": ")).write "\n").2 = t.afterAnswer (label ++ ": " ++ "\n") := by
    intro a ha
    simp only [afterAnswer, write, ha.writable, String.append_assoc]
  constructor
  · intro h
    obtain ⟨a, ha⟩ | ⟨e, he⟩ := hears_or_refuses t
    · simp only [askSecret, ha.ask, hwrite a ha, Prod.mk.injEq, Except.ok.injEq] at h
      exact ⟨a, ha, h.1.symm, h.2.symm⟩
    · have key := he.ask (label ++ ": ")
      unfold askSecret at h
      split at h <;> simp_all
  · rintro ⟨a, ha, hvalue, ht'⟩
    simp only [askSecret, ha.ask, hwrite a ha, hvalue, ht']

/-- A refusal to give a secret leaves the terminal as asking does. -/
theorem askSecret_snd (h : t.Refuses e) (label : String) :
    (t.askSecret label).2 = (t.ask (label ++ ": ")).2 := by
  have herror := h.ask (label ++ ": ")
  unfold askSecret
  split
  · rename_i hask
    rw [hask] at herror
    cases herror
  · rename_i hask
    rw [hask]

/-- Asking for a secret fails exactly if it is refused. -/
theorem askSecret_eq_error_iff : (t.askSecret label).1 = .error e ↔ t.Refuses e := by
  have key : (t.ask (label ++ ": ")).1 = .error e ↔ t.Refuses e := ask_eq_error_iff
  rw [← key, askSecret]
  split <;> rename_i h <;> simp [h]

/-- Likewise for a secret: the line behind it is ended once it is read. -/
theorem askSecret_of_input (t : Terminal) (label : String) :
    (∃ e, ∃ t' : Terminal, ∀ input, ({ t with input } : Terminal).askSecret label =
        (.error e, { t' with input })) ∨
      ∀ input, ({ t with input } : Terminal).askSecret label =
        match answerOf (splitLine input).1 with
        | .ok answer => (.ok (Text.trim answer),
            ({ t with input } : Terminal).afterAnswer (label ++ ": " ++ "\n"))
        | .error e => (.error e, ({ t with input } : Terminal).afterAnswer (label ++ ": ")) := by
  obtain ⟨e, t', h⟩ | ⟨hw, h⟩ := t.ask_of_input (label ++ ": ")
  · exact .inl ⟨e, t', fun input => by rw [askSecret, h]⟩
  · refine .inr fun input => ?_
    rw [askSecret, h]
    cases answerOf (splitLine input).1 with
    | error e => rfl
    | ok answer => simp only [write, afterAnswer, hw, String.append_assoc]

end PlatformAdmin.Terminal
