import PlatformAdmin.Credential
import PlatformAdmin.Proofs.Conversation

/-!
# Where secrets come from

`NeededSecret.Yields` says which credential a needed secret comes to and what that does to the
terminal, with a case for each of the three sources, and `NeededSecret.Fails` says when it comes
to none.  `Credential.Obtained` strings the first of them together over a list.  The lemmas
state that obtaining secrets succeeds, and fails, exactly as these relations say.
-/

set_option autoImplicit false

namespace PlatformAdmin

namespace NeededSecret

/-- There is no argument for the secret, or an empty one. -/
def HasNoArgument (needed : NeededSecret) : Prop :=
  needed.argument = none ∨ needed.argument = some ""

/-- The credential that a needed secret comes to, and the terminal after that. -/
inductive Yields (needed : NeededSecret) (env : Environment) (t : Terminal) :
    Credential → Terminal → Prop
  | fromArgument {value : String} (argument : needed.argument = some value)
      (nonempty : value ≠ "") :
      Yields needed env t ⟨needed.name, ⟨value⟩, .argument⟩ t
  | fromEnvironment {value : String} (argument : needed.HasNoArgument)
      (setting : env needed.envVar = some value) :
      Yields needed env t ⟨needed.name, ⟨value⟩, .environment⟩ t
  | fromPrompt {answer : String} (argument : needed.HasNoArgument)
      (setting : env needed.envVar = none) (heard : t.Hears answer) :
      Yields needed env t ⟨needed.name, ⟨Text.trim answer⟩, .prompt⟩
        (t.afterAnswer (needed.label ++ ": " ++ "\n"))

/-- The secret has to be asked for, and the question fails with this error. -/
structure Fails (needed : NeededSecret) (env : Environment) (t : Terminal)
    (e : QuestionError) : Prop where
  argument : needed.HasNoArgument
  setting : env needed.envVar = none
  refused : t.Refuses e

variable {needed : NeededSecret} {env : Environment} {t t' : Terminal} {c : Credential}
  {e : QuestionError}

/-- No argument counts exactly if it is left out or empty. -/
theorem filter_argument_eq_none_iff :
    needed.argument.filter (· != "") = none ↔ needed.HasNoArgument := by
  unfold HasNoArgument
  cases needed.argument <;> simp [Option.filter_some]

/-- An argument counts if it is there and not empty. -/
theorem filter_argument_eq_some_iff {value : String} :
    needed.argument.filter (· != "") = some value ↔
      needed.argument = some value ∧ value ≠ "" := by
  simp [Option.filter_eq_some_iff]

end NeededSecret

namespace Credential

variable {needed : NeededSecret} {env : Environment} {t t' : Terminal} {c : Credential}
  {e : QuestionError}

/-- A secret is obtained exactly if one of its sources yields it. -/
theorem obtain_eq_ok_iff : obtain needed env t = (.ok c, t') ↔ needed.Yields env t c t' := by
  constructor
  · intro h
    unfold obtain at h
    split at h
    · rename_i value hv
      obtain ⟨hv, hne⟩ := NeededSecret.filter_argument_eq_some_iff.mp hv
      obtain ⟨rfl, rfl⟩ : _ = c ∧ t = t' := by simpa using h
      exact .fromArgument hv hne
    · rename_i hn
      have hn := NeededSecret.filter_argument_eq_none_iff.mp hn
      split at h
      · rename_i value hv
        obtain ⟨rfl, rfl⟩ : _ = c ∧ t = t' := by simpa using h
        exact .fromEnvironment hn hv
      · rename_i hv
        split at h
        · rename_i value t'' ha
          obtain ⟨answer, hheard, rfl, rfl⟩ := Terminal.askSecret_eq_ok_iff.mp ha
          obtain ⟨rfl, rfl⟩ : _ = c ∧ _ = t' := by simpa using h
          exact .fromPrompt hn hv hheard
        · simp at h
  · intro h
    unfold obtain
    cases h with
    | fromArgument hv hne => simp [NeededSecret.filter_argument_eq_some_iff.mpr ⟨hv, hne⟩]
    | fromEnvironment hn hv => simp [NeededSecret.filter_argument_eq_none_iff.mpr hn, hv]
    | @fromPrompt answer hn hv hheard =>
      have ha : t.askSecret needed.label =
          (.ok (Text.trim answer), t.afterAnswer (needed.label ++ ": " ++ "\n")) :=
        Terminal.askSecret_eq_ok_iff.mpr ⟨answer, hheard, rfl, rfl⟩
      simp [NeededSecret.filter_argument_eq_none_iff.mpr hn, hv, ha]

/-- A secret is not obtained exactly if all of its sources fail. -/
theorem obtain_eq_error_iff : (obtain needed env t).1 = .error e ↔ needed.Fails env t e := by
  constructor
  · intro h
    unfold obtain at h
    split at h
    · simp at h
    · rename_i hn
      split at h
      · simp at h
      · rename_i hv
        have ha : (t.askSecret needed.label).1 = .error e := by
          split at h
          · simp at h
          · rename_i ha
            rw [ha]
            simpa using h
        exact ⟨NeededSecret.filter_argument_eq_none_iff.mp hn, hv,
          Terminal.askSecret_eq_error_iff.mp ha⟩
  · rintro ⟨hn, hv, hr⟩
    have ha : (t.askSecret needed.label).1 = .error e := Terminal.askSecret_eq_error_iff.mpr hr
    unfold obtain
    simp only [NeededSecret.filter_argument_eq_none_iff.mpr hn, hv]
    split
    · simp_all
    · simp_all

/-- The secrets of a list are obtained in turn, each from where the one before left the
terminal. -/
inductive Obtained (env : Environment) :
    Terminal → List NeededSecret → List Credential → Terminal → Prop
  | nil {t : Terminal} : Obtained env t [] [] t
  | cons {t t' t'' : Terminal} {needed : NeededSecret} {rest : List NeededSecret}
      {c : Credential} {credentials : List Credential} (first : needed.Yields env t c t')
      (others : Obtained env t' rest credentials t'') :
      Obtained env t (needed :: rest) (c :: credentials) t''

/-- All secrets are obtained exactly if each is obtained in turn. -/
theorem obtainAll_eq_ok_iff {secrets : List NeededSecret} {credentials : List Credential} :
    obtainAll env secrets t = (.ok credentials, t') ↔ Obtained env t secrets credentials t' := by
  constructor
  · intro h
    induction secrets generalizing t credentials with
    | nil =>
      obtain ⟨rfl, rfl⟩ : [] = credentials ∧ t = t' := by simpa [obtainAll] using h
      exact .nil
    | cons needed rest ih =>
      unfold obtainAll at h
      split at h
      · simp at h
      · rename_i c t₁ hc
        split at h
        · simp at h
        · rename_i cs t₂ hcs
          obtain ⟨rfl, rfl⟩ : c :: cs = credentials ∧ t₂ = t' := by simpa using h
          exact .cons (obtain_eq_ok_iff.mp hc) (ih hcs)
  · intro h
    induction h with
    | nil => rfl
    | cons hc _ ih => simp only [obtainAll, obtain_eq_ok_iff.mpr hc, ih]

/-- A list of secrets fails as the first of them does that is not obtained. -/
theorem obtainAll_eq_error_iff {secrets : List NeededSecret} :
    (obtainAll env secrets t).1 = .error e ↔
      ∃ before needed after credentials t', secrets = before ++ needed :: after ∧
        Obtained env t before credentials t' ∧ needed.Fails env t' e := by
  constructor
  · intro h
    induction secrets generalizing t with
    | nil => simp [obtainAll] at h
    | cons needed rest ih =>
      unfold obtainAll at h
      split at h
      · rename_i e' t₁ he
        obtain rfl : e' = e := by simpa using h
        exact ⟨[], needed, rest, [], t, rfl, .nil, obtain_eq_error_iff.mp (by rw [he])⟩
      · rename_i c t₁ hc
        have hrest : (obtainAll env rest t₁).1 = .error e := by
          split at h
          · rename_i hr
            rw [hr]
            exact h
          · simp at h
        obtain ⟨before, n, after, cs, t₂, rfl, hcs, hn⟩ := ih hrest
        exact ⟨needed :: before, n, after, c :: cs, t₂, rfl,
          .cons (obtain_eq_ok_iff.mp hc) hcs, hn⟩
  · rintro ⟨before, needed, after, credentials, t', rfl, hcs, hn⟩
    induction hcs with
    | nil =>
      have he := obtain_eq_error_iff.mpr hn
      rw [List.nil_append, obtainAll]
      split <;> simp_all
    | cons hc _ ih =>
      have he := ih hn
      simp only [List.cons_append, obtainAll, obtain_eq_ok_iff.mpr hc]
      split <;> simp_all

end Credential

end PlatformAdmin
