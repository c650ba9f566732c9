import PlatformAdmin.Execution
import PlatformAdmin.Proofs.Gates

/-!
# The mark of success

A command that ends well writes a line with the mark of success, and nothing that is written
before it looks like that line.  `Text.Unmarked` describes the texts that cannot, whatever names
they hold, and `Terminal.Unmarked` says that from one terminal to another only such texts were
written, to the primary stream.  Questions, prompts and lines of progress are unmarked, and so
is all that the gates write unless the arguments are wrong.
-/

set_option autoImplicit false

namespace PlatformAdmin

namespace Text

/-- A text ends with a line: what stands before that line is empty or ends a line itself. -/
def EndsWithLine (line text : String) : Prop :=
  ∃ before, (before = "" ∨ ∃ b, before = b ++ "\n") ∧ text = before ++ (line ++ "\n")

/-- What is written before the mark: nothing, something that ends with a space, or a line that
ends with a space or a period. -/
inductive Unmarked : String → Prop
  | empty : Unmarked ""
  | space (body : String) : Unmarked (body ++ " ")
  | spaceLine (body : String) : Unmarked (body ++ " \n")
  | periodLine (body : String) : Unmarked (body ++ ".\n")

namespace Unmarked

variable {text more : String}

/-- Text without marks goes on without them. -/
theorem append (h : Unmarked text) (h' : Unmarked more) : Unmarked (text ++ more) := by
  cases h' with
  | empty => rwa [String.append_empty]
  | space body => rw [← String.append_assoc]; exact .space _
  | spaceLine body => rw [← String.append_assoc]; exact .spaceLine _
  | periodLine body => rw [← String.append_assoc]; exact .periodLine _

/-- Such a text does not end with the mark, whatever it holds. -/
theorem not_endsWithLine (h : Unmarked text) : ¬EndsWithLine Terminal.okMark text := by
  rintro ⟨before, -, hbefore⟩
  -- the last two characters settle it
  have hend : text.toList.reverse.take 2 = ['\n', 'K'] := by
    simp [hbefore, Terminal.okMark]
  cases h with
  | empty => simp at hend
  | space body => simp at hend
  | spaceLine body => simp at hend
  | periodLine body => simp at hend

end Unmarked

end Text

namespace Terminal

/-- From one terminal to another only the primary stream gained something, without the mark. -/
structure Unmarked (t t' : Terminal) : Prop where
  manner : t'.toManner = t.toManner
  faults : t'.faults = t.faults
  err : t'.err = t.err
  out : ∃ written, t'.out = t.out ++ written ∧ Text.Unmarked written

variable {t t' t'' : Terminal}

/-- Where nothing is written, no mark is written. -/
theorem Unmarked.refl (t : Terminal) : t.Unmarked t :=
  ⟨rfl, rfl, rfl, "", String.append_empty.symm, .empty⟩

/-- To write on without marks adds none. -/
theorem Unmarked.trans (h : t.Unmarked t') (h' : t'.Unmarked t'') : t.Unmarked t'' := by
  obtain ⟨written, hout, hw⟩ := h.out
  obtain ⟨more, hout', hm⟩ := h'.out
  refine ⟨h'.manner.trans h.manner, h'.faults.trans h.faults, h'.err.trans h.err,
    written ++ more, ?_, hw.append hm⟩
  rw [hout', hout, String.append_assoc]

/-- Lines of progress are written. -/
def Speaks (t : Terminal) : Prop :=
  t.quiet = false ∧ t.faults.write = none

instance (t : Terminal) : Decidable t.Speaks :=
  inferInstanceAs (Decidable (_ ∧ _))

/-- A terminal that speaks writes the line. -/
theorem say_of_speaks (h : t.Speaks) (message : String) :
    t.say message = { t with out := t.out ++ (message ++ "\n") } := by
  simp only [say, h.1, write, h.2, Bool.false_eq_true, if_false]

/-- A terminal that does not speak stays as it is. -/
theorem say_of_not_speaks (h : ¬t.Speaks) (message : String) : t.say message = t := by
  unfold say write
  split
  · rfl
  · rename_i hloud
    cases hwrite : t.faults.write with
    | none => exact absurd ⟨Bool.eq_false_iff.mpr hloud, hwrite⟩ h
    | some fault => rfl

/-- What is shown without marks adds none. -/
theorem unmarked_afterAnswer {text : String} (h : Text.Unmarked text) :
    t.Unmarked (t.afterAnswer text) :=
  ⟨rfl, rfl, rfl, text, rfl, h⟩

/-- A line of progress is no mark. -/
theorem unmarked_say (t : Terminal) (text : String) : t.Unmarked (t.say (text ++ "...")) := by
  have hline : text ++ "..." ++ "\n" = text ++ ".." ++ ".\n" := by
    rw [String.append_assoc, String.append_assoc]
    rfl
  by_cases h : t.Speaks
  · rw [say_of_speaks h]
    exact ⟨rfl, rfl, rfl, _, by rw [hline], .periodLine _⟩
  · rw [say_of_not_speaks h]
    exact .refl t

/-- A question is no mark. -/
theorem unmarked_ask (t : Terminal) (text : String) : t.Unmarked (t.ask (text ++ " ")).2 := by
  obtain h | h | h := t.ask_snd (text ++ " ") <;> rw [h]
  · exact .refl t
  · exact ⟨rfl, rfl, rfl, _, rfl, .space text⟩
  · exact unmarked_afterAnswer (.space text)

end Terminal

/-! ## What the gates write -/

namespace Credential

variable {needed : NeededSecret} {env : Environment} {t t' : Terminal}

/-- To get a secret writes no mark. -/
theorem unmarked_of_yields {c : Credential} (h : needed.Yields env t c t') : t.Unmarked t' := by
  cases h with
  | fromArgument _ _ => exact .refl t
  | fromEnvironment _ _ => exact .refl t
  | fromPrompt _ _ _ =>
    have htext : needed.label ++ ": " ++ "\n" = needed.label ++ ":" ++ " \n" := by
      rw [String.append_assoc, String.append_assoc]
      rfl
    rw [htext]
    exact Terminal.unmarked_afterAnswer (.spaceLine _)

/-- To fail to get a secret writes no mark. -/
theorem unmarked_of_fails {e : QuestionError} (h : needed.Fails env t e) :
    t.Unmarked (obtain needed env t).2 := by
  have hargument := NeededSecret.filter_argument_eq_none_iff.mpr h.argument
  have hsnd : (obtain needed env t).2 = (t.ask (needed.label ++ ":" ++ " ")).2 := by
    have htext : needed.label ++ ":" ++ " " = needed.label ++ ": " := by
      rw [String.append_assoc]
      rfl
    rw [htext, ← Terminal.askSecret_snd h.refused]
    simp only [obtain, hargument, h.setting]
    split <;> rename_i hask <;> rw [hask]
  rw [hsnd]
  exact t.unmarked_ask _

/-- To ask for a secret writes no mark, however it ends. -/
theorem unmarked_obtain (needed : NeededSecret) (env : Environment) (t : Terminal) :
    t.Unmarked (obtain needed env t).2 := by
  cases h : obtain needed env t with
  | mk answer t' =>
    cases answer with
    | ok c => exact unmarked_of_yields (obtain_eq_ok_iff.mp h)
    | error e =>
      have hfails : needed.Fails env t e := obtain_eq_error_iff.mp (by rw [h])
      have hunmarked := unmarked_of_fails hfails
      rwa [h] at hunmarked

/-- To ask for secrets one by one writes no mark, however it ends. -/
theorem unmarked_obtainAll (env : Environment) (secrets : List NeededSecret) (t : Terminal) :
    t.Unmarked (obtainAll env secrets t).2 := by
  induction secrets generalizing t with
  | nil => exact .refl t
  | cons needed rest ih =>
    have hfirst := unmarked_obtain needed env t
    unfold obtainAll
    split
    · rename_i h
      rwa [h] at hfirst
    · rename_i t₁ h
      rw [h] at hfirst
      have hrest := ih t₁
      split <;> rename_i hr <;> rw [hr] at hrest <;> exact hfirst.trans hrest

end Credential

namespace Declaration

variable {d : Declaration} {inv : Invocation}

/-- The gate of the question writes no mark. -/
theorem unmarked_clearQuestion (d : Declaration) (inv : Invocation) (t : Terminal) :
    t.Unmarked (d.clearQuestion inv t).2 := by
  unfold clearQuestion
  split
  · exact .refl t
  · rename_i question _
    have hask := t.unmarked_ask question
    rw [← Terminal.confirm_snd] at hask
    split
    · exact .refl t
    · split <;> rename_i hc <;> rwa [hc] at hask

/-- The gate of the secrets writes no mark. -/
theorem unmarked_clearSecrets (d : Declaration) (inv : Invocation) (env : Environment)
    (t : Terminal) : t.Unmarked (d.clearSecrets inv env t).2 := by
  have hall := Credential.unmarked_obtainAll env (d.secrets inv) t
  unfold clearSecrets
  split <;> rename_i h <;> rwa [h] at hall

/-- Unless the arguments are wrong, the gates write to the primary stream only, and never what
looks like the mark. -/
theorem unmarked_clear (caps : Capabilities) (env : Environment) (t : Terminal)
    (h : d.checkArguments inv = .ok ()) : t.Unmarked (d.clear inv caps env t).2 := by
  unfold clear clearArguments
  simp only [h]
  split
  · exact .refl t
  · have hquestion := d.unmarked_clearQuestion inv t
    split <;> rename_i hq <;> rw [hq] at hquestion
    · exact hquestion
    · exact hquestion.trans (d.unmarked_clearSecrets inv env _)

end Declaration

end PlatformAdmin
