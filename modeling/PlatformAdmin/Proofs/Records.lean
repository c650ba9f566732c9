import PlatformAdmin.Proofs.Courses

/-!
# The records of a run

A run keeps the calls it made and the warnings that came with the responses.  `Gateway.after` and
`Gateway.responses` put the same calls to a gateway again, from the state in which the run found
it, and `RunState.Records` says that the run and the gateway then agree.  Each step of a run
preserves this.
-/

set_option autoImplicit false

namespace PlatformAdmin

variable {σ : Type}

/-- What a gateway responds to calls that are made one after another. -/
def Gateway.responses (g : Gateway σ) : List Call → σ → List (Σ c : Call, Response c.Answer)
  | [], _ => []
  | c :: calls, remote => ⟨c, (g.answer c remote).1⟩ :: g.responses calls (g.answer c remote).2

/-- The state of a gateway after such calls. -/
def Gateway.after (g : Gateway σ) : List Call → σ → σ
  | [], remote => remote
  | c :: calls, remote => g.after calls (g.answer c remote).2

/-- The warnings that came with the responses, oldest first. -/
def Gateway.warnings (g : Gateway σ) (calls : List Call) (remote : σ) : List String :=
  (g.responses calls remote).flatMap fun r => r.2.warnings

namespace Gateway

variable (g : Gateway σ) (calls : List Call) (c : Call) (remote : σ)

/-- The last of the replies answers the last of the calls. -/
theorem responses_concat :
    g.responses (calls ++ [c]) remote =
      g.responses calls remote ++ [⟨c, (g.answer c (g.after calls remote)).1⟩] := by
  induction calls generalizing remote with
  | nil => rfl
  | cons d calls ih =>
    rw [List.cons_append, responses, ih, responses, after, List.cons_append]

/-- The last of the calls moves the remote side on. -/
theorem after_concat :
    g.after (calls ++ [c]) remote = (g.answer c (g.after calls remote)).2 := by
  induction calls generalizing remote with
  | nil => rfl
  | cons d calls ih =>
    rw [List.cons_append, after, ih, after]

/-- The last of the calls adds its warnings. -/
theorem warnings_concat :
    g.warnings (calls ++ [c]) remote =
      g.warnings calls remote ++ (g.answer c (g.after calls remote)).1.warnings := by
  rw [warnings, responses_concat, List.flatMap_append, List.flatMap_singleton, ← warnings]

/-- The gateway that knows no endpoint leaves the remote side alone. -/
theorem after_unconfigured (calls : List Call) (remote : σ) :
    (unconfigured : Gateway σ).after calls remote = remote := by
  induction calls with
  | nil => rfl
  | cons c calls ih => exact ih

end Gateway

/-- The calls of a run account for the state of its gateway and for the warnings it keeps. -/
structure RunState.Records (s : RunState σ) (g : Gateway σ) (remote : σ) : Prop where
  remote_eq : s.remote = g.after s.calls remote
  warnings_eq : s.warnings.texts = g.warnings s.calls remote

namespace RunState.Records

variable {s : RunState σ} {g : Gateway σ} {remote : σ}

/-- A run that has made no call has recorded nothing. -/
theorem start (t : Terminal) : RunState.Records { terminal := t, remote } g remote :=
  ⟨rfl, rfl⟩

/-- To say something adds no call. -/
theorem afterSaying (h : s.Records g remote) (message : String) :
    (s.afterSaying message).Records g remote :=
  ⟨h.remote_eq, h.warnings_eq⟩

/-- A call is recorded with its warnings. -/
theorem afterCall (h : s.Records g remote) (c : Call) : (s.afterCall g c).Records g remote := by
  constructor
  · simp only [RunState.afterCall, Gateway.after_concat, h.remote_eq]
  · simp only [RunState.afterCall, PendingWarnings.add, RunState.response,
      Gateway.warnings_concat, h.warnings_eq, h.remote_eq]

end RunState.Records

end PlatformAdmin
