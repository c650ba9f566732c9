import PlatformAdmin.Proofs.Progress

/-!
# Warnings are conserved

Pending warnings are handled in four ways: further ones are added, a response is received or
demanded, and they are flushed.  `PendingWarnings.Step` is one such step with all that it is given,
and `PendingWarnings.run` makes any list of them on one store of warnings and one terminal.

One step shows some of the warnings and keeps the others, in order (`Step.make_conserves`), and so
does a run: what was shown, followed by what is pending, is all that came (`run_conserves`).
-/

set_option autoImplicit false

namespace PlatformAdmin

/-- Lines may be written in two parts. -/
theorem Text.inLines_append (texts more : List String) :
    inLines (texts ++ more) = inLines texts ++ inLines more := by
  induction texts with
  | nil => simp [inLines]
  | cons text texts ih => simp only [List.cons_append, inLines, ih, String.append_assoc]

/-- Warnings do not depend on whether the terminal is quiet. -/
theorem Terminal.warnAll_withQuiet (t : Terminal) (quiet : Bool) (warnings : List String) :
    (t.withQuiet quiet).warnAll warnings = (t.warnAll warnings).withQuiet quiet := by
  induction warnings generalizing t with
  | nil => rfl
  | cons message warnings ih =>
    show ((t.withQuiet quiet).warn message).warnAll warnings = _
    rw [warn_withQuiet, ih]
    rfl

namespace PendingWarnings

/-- One thing that is done with pending warnings. -/
inductive Step : Type 1
  | add (warnings : List String)
  | receive {α : Type} (response : Response α)
  | demand {α : Type} (response : Response α) (entity : String)
  | flush

namespace Step

/-- The warnings that come with a step. -/
def brought : Step → List String
  | add warnings => warnings
  | receive response => response.warnings
  | demand response _ => response.warnings
  | flush => []

/-- What a step leaves pending, and the terminal after it. -/
def make : Step → PendingWarnings × Terminal → PendingWarnings × Terminal
  | add warnings, (pending, t) => (pending.add warnings, t)
  | receive response, (pending, t) => ((pending.receive response).2, t)
  | demand response entity, (pending, t) => ((pending.demand response entity).2, t)
  | flush, (pending, t) => pending.flush t

/-- Only a flush writes; any other step adds to what is pending, whatever it finds. -/
theorem make_eq_or (step : Step) (pending : PendingWarnings) (t : Terminal) :
    step = flush ∧ step.make (pending, t) = ({}, t.warnAll pending.texts) ∨
      step ≠ flush ∧ step.make (pending, t) = (pending.add step.brought, t) := by
  cases step with
  | add warnings => exact .inr ⟨nofun, rfl⟩
  | receive response => exact .inr ⟨nofun, rfl⟩
  | demand response entity => exact .inr ⟨nofun, by rw [make, demand_snd, brought]⟩
  | flush => exact .inl ⟨rfl, rfl⟩

/-- A step shows or keeps what was pending and what it brought, and no more. -/
theorem make_conserves {t : Terminal} (h : t.faults.writeErr = none) (step : Step)
    (pending : PendingWarnings) :
    ∃ shown, shown ++ (step.make (pending, t)).1.texts = pending.texts ++ step.brought ∧
      (step.make (pending, t)).2 = { t with err := t.err ++ Text.inLines shown } := by
  obtain ⟨rfl, hmake⟩ | ⟨-, hmake⟩ := step.make_eq_or pending t <;> rw [hmake]
  · exact ⟨pending.texts, rfl, Terminal.warnAll_eq h pending.texts⟩
  · exact ⟨[], rfl, by simp [Text.inLines]⟩

/-- A step does the same on a quiet terminal. -/
theorem make_withQuiet (step : Step) (pending : PendingWarnings) (t : Terminal) (quiet : Bool) :
    step.make (pending, t.withQuiet quiet) =
      ((step.make (pending, t)).1, (step.make (pending, t)).2.withQuiet quiet) := by
  cases step with
  | flush => exact congrArg (Prod.mk _) (t.warnAll_withQuiet quiet pending.texts)
  | _ => rfl

end Step

/-- Makes steps, one after the other. -/
def run (steps : List Step) (s : PendingWarnings × Terminal) : PendingWarnings × Terminal :=
  steps.foldl (fun s step => step.make s) s

/-- A run of steps shows or keeps what was pending and what the steps brought, and no more. -/
theorem exists_shown_of_run {t : Terminal} (h : t.faults.writeErr = none)
    (pending : PendingWarnings) (steps : List Step) :
    ∃ shown,
      shown ++ (run steps (pending, t)).1.texts = pending.texts ++ steps.flatMap Step.brought ∧
      (run steps (pending, t)).2 = { t with err := t.err ++ Text.inLines shown } := by
  induction steps generalizing pending t with
  | nil => exact ⟨[], by simp [run], by simp [run, Text.inLines]⟩
  | cons step steps ih =>
    obtain ⟨first, hfirst, hterminal⟩ := step.make_conserves h pending
    -- the secondary stream still works after the step
    have hworks : (step.make (pending, t)).2.faults.writeErr = none := by rw [hterminal]; exact h
    obtain ⟨shown, hshown, hend⟩ := ih hworks (step.make (pending, t)).1
    refine ⟨first ++ shown, ?_, ?_⟩
    · show first ++ shown ++ (run steps (step.make (pending, t))).1.texts = _
      rw [List.append_assoc, hshown, ← List.append_assoc, hfirst, List.flatMap_cons,
        List.append_assoc]
    · show (run steps (step.make (pending, t))).2 = _
      rw [hend, hterminal, Text.inLines_append, String.append_assoc]

/-- A run of steps does the same on a quiet terminal. -/
theorem run_withQuiet (steps : List Step) (pending : PendingWarnings) (t : Terminal)
    (quiet : Bool) :
    run steps (pending, t.withQuiet quiet) =
      ((run steps (pending, t)).1, (run steps (pending, t)).2.withQuiet quiet) := by
  induction steps generalizing pending t with
  | nil => rfl
  | cons step steps ih =>
    show run steps (step.make (pending, t.withQuiet quiet)) = _
    rw [step.make_withQuiet]
    exact ih (step.make (pending, t)).1 (step.make (pending, t)).2

/-- At every point of a run on a working secondary stream, the warnings that were shown there and
those that are pending are together all that came, in order, each once.  Only a flush writes, after
which nothing is pending and nothing is left for a second flush to write; no step touches anything
else of the terminal, or looks whether it is quiet. -/
theorem run_conserves {t : Terminal} (h : t.faults.writeErr = none) (pending : PendingWarnings)
    (steps : List Step) :
    let s := run steps (pending, t)
    (∃ shown, shown ++ s.1.texts = pending.texts ++ steps.flatMap Step.brought ∧
      s.2 = { t with err := t.err ++ Text.inLines shown }) ∧
    s.2.out = t.out ∧
    (∀ step, step ≠ .flush → (Step.make step s).2 = s.2) ∧
    (Step.flush.make s).1.texts = [] ∧
    Step.flush.make (Step.flush.make s) = Step.flush.make s ∧
    ∀ quiet, run steps (pending, t.withQuiet quiet) = (s.1, s.2.withQuiet quiet) := by
  intro s
  obtain ⟨shown, hshown, hterminal⟩ := exists_shown_of_run h pending steps
  refine ⟨⟨shown, hshown, hterminal⟩, ?_, fun step hstep => ?_, rfl, rfl, fun quiet => ?_⟩
  · show (run steps (pending, t)).2.out = t.out
    rw [hterminal]
  · obtain ⟨hflush, -⟩ | ⟨-, hmake⟩ := step.make_eq_or s.1 s.2
    · exact absurd hflush hstep
    · show (step.make (s.1, s.2)).2 = s.2
      rw [hmake]
  · exact run_withQuiet steps pending t quiet

/-- Warnings of a failed and of a futile response come through like those that were added. -/
theorem run_conserves_failures :
    let t : Terminal := { quiet := true }
    let failed : Response Unit := { outcome := .error .invalidToken, warnings := ["b", "c"] }
    let futile : Response Unit := { outcome := .notFound, warnings := ["d"] }
    let steps : List Step := [.add ["a"], .receive failed, .flush, .demand futile "User ann"]
    let s := run steps ({}, t)
    t.faults.writeErr = none ∧ s.2.err = "a\nb\nc\n" ∧ s.1.texts = ["d"] ∧
      ∃ shown, shown ++ s.1.texts = ["a", "b", "c", "d"] ∧
        s.2 = { t with err := Text.inLines shown } := by
  intro t failed futile steps s
  have hworks : t.faults.writeErr = none := rfl
  obtain ⟨⟨shown, hshown, hterminal⟩, -⟩ := run_conserves hworks {} steps
  refine ⟨hworks, by decide, rfl, shown, hshown, ?_⟩
  rw [hterminal, String.empty_append]

end PendingWarnings

end PlatformAdmin
