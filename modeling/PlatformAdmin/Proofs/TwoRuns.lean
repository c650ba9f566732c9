import Mathlib.Data.List.Forall2
import PlatformAdmin.Program
import PlatformAdmin.Proofs.Courses
import PlatformAdmin.Proofs.Gates

/-!
# Two runs side by side

To compare two executions, their states are related piece by piece: `RunState.Beside` takes a
relation between terminals, one between states of gateways and one between calls, and asks that
the same warnings are kept.  Two bodies are `Parallel` if from related states they end alike and
leave related states.  Sequences of steps, lines of progress and calls are parallel as soon as
their parts are, whatever the relation between terminals is, provided that output keeps it.

`Command.execute_parallel` carries this to whole executions: once the gates have ended alike,
parallel bodies give the same result, in related states.
-/

set_option autoImplicit false

namespace PlatformAdmin

variable {ε α β γ δ σ τ : Type}

/-- Two computations end alike, with related values or with the same failure. -/
inductive SameEnd (A : α → β → Prop) : Except ε α → Except ε β → Prop
  | ok {a : α} {b : β} (related : A a b) : SameEnd A (.ok a) (.ok b)
  | error (e : ε) : SameEnd A (.error e) (.error e)

namespace SameEnd

/-- Any end is the same as itself. -/
theorem refl (x : Except ε α) : SameEnd Eq x x := by
  cases x with
  | ok a => exact .ok rfl
  | error e => exact .error e

/-- Ends with the same values are the same. -/
theorem eq {x y : Except ε α} (h : SameEnd Eq x y) : x = y := by
  cases h with
  | ok hab => rw [hab]
  | error e => rfl

end SameEnd

/-- A relation between terminals that output keeps. -/
structure Terminal.KeptByOutput (T : Terminal → Terminal → Prop) : Prop where
  say : ∀ {t t'}, T t t' → ∀ message, T (t.say message) (t'.say message)
  warn : ∀ {t t'}, T t t' → ∀ message, T (t.warn message) (t'.warn message)

/-- Two gateways answer a call in the same way, and their states stay related. -/
def Gateway.AnswersAlike (S : σ → τ → Prop) (g : Gateway σ) (g' : Gateway τ) (c : Call) : Prop :=
  ∀ r r', S r r' → (g.answer c r).1 = (g'.answer c r').1 ∧ S (g.answer c r).2 (g'.answer c r').2

/-- Two states of runs with related terminals, gateways and calls, and with the same warnings. -/
structure RunState.Beside (T : Terminal → Terminal → Prop) (S : σ → τ → Prop)
    (C : Call → Call → Prop) (s : RunState σ) (s' : RunState τ) : Prop where
  terminal : T s.terminal s'.terminal
  remote : S s.remote s'.remote
  warnings : s.warnings = s'.warnings
  calls : List.Forall₂ C s.calls s'.calls

/-- Two bodies keep side by side: from states in the first relation they end alike, in states
that are in the second. -/
def Run.Parallel (P Q : RunState σ → RunState τ → Prop) (A : α → β → Prop) (x : Run σ α)
    (y : Run τ β) : Prop :=
  ∀ s s', P s s' → SameEnd A (x s).1 (y s').1 ∧ Q (x s).2 (y s').2

variable {T : Terminal → Terminal → Prop} {S S' : σ → τ → Prop} {C : Call → Call → Prop}
  {P Q R : RunState σ → RunState τ → Prop} {A : α → β → Prop} {B : γ → δ → Prop}

namespace RunState.Beside

variable {s : RunState σ} {s' : RunState τ}

/-- Two runs stay beside each other if less is asked of their remote sides. -/
theorem mono (h : s.Beside T S C s') (hS : ∀ r r', S r r' → S' r r') : s.Beside T S' C s' :=
  ⟨h.terminal, hS _ _ h.remote, h.warnings, h.calls⟩

/-- To say the same keeps two runs beside each other. -/
theorem afterSaying (h : s.Beside T S C s') (hT : Terminal.KeptByOutput T) (message : String) :
    (s.afterSaying message).Beside T S C (s'.afterSaying message) :=
  ⟨hT.say h.terminal message, h.remote, h.warnings, h.calls⟩

/-- Calls that are answered alike keep two runs beside each other. -/
theorem afterCall {g : Gateway σ} {g' : Gateway τ} {c c' : Call} (h : s.Beside T S C s')
    (hC : C c c') (hS : S' (g.answer c s.remote).2 (g'.answer c' s'.remote).2)
    (hwarnings : (s.response g c).warnings = (s'.response g' c').warnings) :
    (s.afterCall g c).Beside T S' C (s'.afterCall g' c') := by
  refine ⟨h.terminal, hS, ?_, ?_⟩
  · simp only [RunState.afterCall, h.warnings, hwarnings]
  · exact List.rel_append h.calls (.cons hC .nil)

/-- Runs that make the same calls have the same list of them. -/
theorem calls_eq (h : s.Beside T S Eq s') : s.calls = s'.calls :=
  List.forall₂_eq_eq_eq ▸ h.calls

end RunState.Beside

/-- A gateway answers any call as it does itself. -/
theorem Gateway.answersAlike_eq (g : Gateway σ) (c : Call) : g.AnswersAlike Eq g c := by
  rintro remote _ rfl
  exact ⟨rfl, rfl⟩

/-! ## Bodies -/

namespace Run.Parallel

/-- To return matching values goes side by side. -/
theorem pure {a : α} {b : β} (h : A a b) : Parallel P P A (pure a) (pure b) :=
  fun _ _ hP => ⟨.ok h, hP⟩

/-- To fail goes side by side. -/
theorem fail (e : Failure) : Parallel P P A (fail e) (fail e) :=
  fun _ _ hP => ⟨.error e, hP⟩

/-- What fails in the first part has to end in the last relation as well. -/
theorem bind {x : Run σ α} {y : Run τ β} {f : α → Run σ γ} {f' : β → Run τ δ}
    (hx : Parallel P Q A x y) (hf : ∀ a b, A a b → Parallel Q R B (f a) (f' b))
    (hQR : ∀ s s', Q s s' → R s s') : Parallel P R B (x >>= f) (y >>= f') := by
  intro s s' hP
  obtain ⟨hend, hstate⟩ := hx s s' hP
  rw [bind_apply, bind_apply]
  cases hxs : x s with
  | mk end₁ t =>
    cases hys : y s' with
    | mk end₂ t' =>
      rw [hxs, hys] at hend hstate
      cases hend with
      | ok hab => exact hf _ _ hab t t' hstate
      | error e => exact ⟨.error e, hQR t t' hstate⟩

/-- To say something goes side by side. -/
theorem say (hT : Terminal.KeptByOutput T) (message : String) :
    Parallel (RunState.Beside T S C) (RunState.Beside T S C) Eq (say message) (say message) :=
  fun _ _ hP => ⟨.ok rfl, hP.afterSaying hT message⟩

variable {g : Gateway σ} {g' : Gateway τ} {c : Call}

/-- A lookup that is answered alike goes side by side. -/
theorem lookup (hC : C c c) (hg : g.AnswersAlike S g' c) :
    Parallel (RunState.Beside T S C) (RunState.Beside T S C) Eq (lookup g c) (lookup g' c) := by
  intro s s' hP
  obtain ⟨hanswer, hS⟩ := hg _ _ hP.remote
  rw [lookup_apply, lookup_apply]
  constructor
  · rw [RunState.response, RunState.response, hanswer]
    exact .refl _
  · exact hP.afterCall hC hS (congrArg Response.warnings hanswer)

/-- A demand that is answered alike goes side by side. -/
theorem demand (entity : String) (hC : C c c) (hg : g.AnswersAlike S g' c) :
    Parallel (RunState.Beside T S C) (RunState.Beside T S C) Eq (demand g c entity)
      (demand g' c entity) := by
  intro s s' hP
  obtain ⟨hanswer, hS⟩ := hg _ _ hP.remote
  rw [demand_apply, demand_apply]
  constructor
  · rw [RunState.response, RunState.response, hanswer]
    exact .refl _
  · exact hP.afterCall hC hS (congrArg Response.warnings hanswer)

end Run.Parallel

section Bodies

variable {g : Gateway σ} {g' : Gateway τ}

/-- Two deletions go side by side if their calls are answered alike. -/
theorem DeleteUser.body_parallel (hT : Terminal.KeptByOutput T) (hC : ∀ c, C c c)
    (hg : ∀ c, g.AnswersAlike S g' c) (inv : Invocation) :
    Run.Parallel (RunState.Beside T S C) (RunState.Beside T S C) Eq (body g inv)
      (body g' inv) := by
  unfold body
  refine .bind (.say hT _) (fun _ _ _ => ?_) fun _ _ hs => hs
  refine .bind (.lookup (hC _) (hg _)) (fun found _ hfound => ?_) fun _ _ hs => hs
  rw [← hfound]
  cases found with
  | none => exact .pure rfl
  | some user =>
    refine .bind (.demand _ (hC (.deleteUser user)) (hg _)) (fun _ _ _ => ?_) fun _ _ hs => hs
    exact .pure rfl

/-- The two passwords may differ if the updates with them are parallel; the update is the last
call, so that the gateways may part there. -/
theorem UpdateServiceBroker.body_parallel {D : Secret → Secret → Prop} {inv inv' : Invocation}
    {credentials credentials' : Credentials} (hT : Terminal.KeptByOutput T) (hC : ∀ c, C c c)
    (hg : ∀ c, g.AnswersAlike S g' c) (hS : ∀ r r', S r r' → S' r r')
    (hargs : Arguments.ofInvocation inv' =
      { Arguments.ofInvocation inv with password := (Arguments.ofInvocation inv').password })
    (hpassword : Run.Parallel (RunState.Beside T S C) (RunState.Beside T S C) D
      (takePassword credentials) (takePassword credentials'))
    (hupdate : ∀ guid username url entity password password', D password password' →
      Run.Parallel (RunState.Beside T S C) (RunState.Beside T S' C) Eq
        (Run.demand g (.updateBroker guid ⟨username, password, url⟩) entity)
        (Run.demand g' (.updateBroker guid ⟨username, password', url⟩) entity)) :
    Run.Parallel (RunState.Beside T S C) (RunState.Beside T S' C) Eq (body g inv credentials)
      (body g' inv' credentials') := by
  have hmono : ∀ (s : RunState σ) (s' : RunState τ), s.Beside T S C s' → s.Beside T S' C s' :=
    fun _ _ hs => hs.mono hS
  unfold body
  rw [hargs]
  refine .bind hpassword (fun password password' hD => ?_) hmono
  refine .bind (.demand "user" (hC _) (hg _)) (fun user _ huser => ?_) hmono
  rw [← huser]
  refine .bind (.say hT _) (fun _ _ _ => ?_) hmono
  refine .bind (.lookup (hC _) (hg _)) (fun found _ hfound => ?_) hmono
  rw [← hfound]
  cases found with
  | none => exact fun s s' hs => ⟨.ok rfl, hmono s s' hs⟩
  | some broker =>
    exact .bind (hupdate _ _ _ _ _ _ hD) (fun _ _ _ => .pure rfl) fun _ _ hs => hs

/-- A command does the same on two gateways that answer alike. -/
theorem CommandName.run_parallel (name : CommandName) (hT : Terminal.KeptByOutput T)
    (hC : ∀ c, C c c) (hg : ∀ c, g.AnswersAlike S g' c) (inv : Invocation)
    (credentials : Credentials) :
    Run.Parallel (RunState.Beside T S C) (RunState.Beside T S C) Eq
      (name.command.run g inv credentials) (name.command.run g' inv credentials) := by
  cases name with
  | deleteUser => exact DeleteUser.body_parallel hT hC hg inv
  | updateServiceBroker =>
    refine UpdateServiceBroker.body_parallel (D := Eq) hT hC hg (fun _ _ hr => hr) rfl ?_ ?_
    · unfold UpdateServiceBroker.takePassword
      split
      · exact .pure rfl
      · exact .fail _
    · rintro guid username url entity password _ rfl
      exact .demand entity (hC _) (hg _)

end Bodies

/-! ## Executions -/

namespace Terminal.KeptByOutput

variable {t t' : Terminal}

/-- The same warnings keep two terminals related. -/
theorem warnAll (hT : KeptByOutput T) (h : T t t') (warnings : List String) :
    T (t.warnAll warnings) (t'.warnAll warnings) := by
  induction warnings generalizing t t' with
  | nil => exact h
  | cons message warnings ih => exact ih (hT.warn h message)

/-- To check the count of arguments keeps two terminals related. -/
theorem clearArguments (hT : KeptByOutput T) (h : T t t') (d : Declaration) (inv : Invocation) :
    T (d.clearArguments inv t).2 (d.clearArguments inv t').2 := by
  unfold Declaration.clearArguments
  cases d.checkArguments inv with
  | ok _ => exact h
  | error e => exact hT.warn (hT.warn h _) _

/-- The same end is concluded alike, and keeps two terminals related. -/
theorem conclude (hT : KeptByOutput T) (h : T t t')
    (outcome : Except EarlyEnd (Option String)) :
    (t.conclude outcome).1 = (t'.conclude outcome).1 ∧
      T (t.conclude outcome).2 (t'.conclude outcome).2 := by
  cases outcome with
  | ok notice =>
    cases notice with
    | none => exact ⟨rfl, hT.say h _⟩
    | some notice => exact ⟨rfl, hT.warn (hT.say h _) notice⟩
  | error stop =>
    cases stop with
    | declined => exact ⟨rfl, h⟩
    | usageShown e => exact ⟨rfl, h⟩
    | failed e => exact ⟨rfl, hT.warn (hT.warn h _) _⟩

end Terminal.KeptByOutput

namespace Command

variable {cmd : Command σ} {cmd' : Command τ} {g : Gateway σ} {g' : Gateway τ}
  {inv inv' : Invocation} {caps caps' : Capabilities} {env env' : Environment}
  {t t' : Terminal} {remote : σ} {remote' : τ} {K : Credentials → Credentials → Prop}

/-- What is concluded of two runs beside each other is the same. -/
theorem concluded_beside {s : RunState σ} {s' : RunState τ} (hT : Terminal.KeptByOutput T)
    (h : s.Beside T S C s') (outcome : Except Failure (Option String)) :
    (concluded outcome s).1 = (concluded outcome s').1 ∧
      (concluded outcome s).2.Beside T S C (concluded outcome s').2 := by
  have hall := hT.warnAll h.terminal s.warnings.texts
  obtain ⟨hresult, hterminal⟩ := hT.conclude hall (outcome.mapError EarlyEnd.failed)
  unfold concluded
  rw [← h.warnings]
  exact ⟨hresult, hterminal, h.remote, rfl, h.calls⟩

/-- Executions whose gates end alike and whose bodies keep side by side have the same result. -/
theorem execute_parallel (hT : Terminal.KeptByOutput T)
    (hgates : SameEnd K (cmd.clear inv caps env t).1 (cmd'.clear inv' caps' env' t').1)
    (hterminals : T (cmd.clear inv caps env t).2 (cmd'.clear inv' caps' env' t').2)
    (hremote : S remote remote') (hS : ∀ r r', S r r' → S' r r')
    (hrun : ∀ credentials credentials', K credentials credentials' →
      Run.Parallel (RunState.Beside T S C) (RunState.Beside T S' C) Eq
        (cmd.run g inv credentials) (cmd'.run g' inv' credentials')) :
    (cmd.execute g inv caps env t remote).1 = (cmd'.execute g' inv' caps' env' t' remote').1 ∧
      (cmd.execute g inv caps env t remote).2.Beside T S' C
        (cmd'.execute g' inv' caps' env' t' remote').2 := by
  cases hclear : cmd.clear inv caps env t with
  | mk answer t₁ =>
    cases hclear' : cmd'.clear inv' caps' env' t' with
    | mk answer' t₁' =>
      rw [hclear, hclear'] at hgates hterminals
      cases hgates with
      | error stop =>
        obtain ⟨-, hterminal⟩ := hT.conclude hterminals (.error stop)
        rw [execute_of_clear_eq_error _ _ _ hclear, execute_of_clear_eq_error _ _ _ hclear']
        exact ⟨rfl, hterminal, hS _ _ hremote, rfl, .nil⟩
      | @ok credentials credentials' hK =>
        -- the runs start side by side, as neither has made a call or kept a warning
        have hstart : RunState.Beside T S C { terminal := t₁, remote }
            { terminal := t₁', remote := remote' } := ⟨hterminals, hremote, rfl, .nil⟩
        obtain ⟨hend, hstate⟩ := hrun credentials credentials' hK _ _ hstart
        rw [execute_of_clear_eq_ok _ _ _ hclear, execute_of_clear_eq_ok _ _ _ hclear', hend.eq]
        exact concluded_beside hT hstate _

end Command

end PlatformAdmin
