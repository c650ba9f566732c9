import Mathlib.Data.List.Forall2
import Mathlib.Data.List.ReduceOption
import PlatformAdmin.Proofs.SecretOrder

/-!
# Credentials are handed out once

A take is about one name.  Seen through `Credentials.named`, the credentials of a name in their
order, it removes the first of its own name, which it gives, and leaves every other name alone
(`named_take`).  So how often each name was taken is all that counts: after a run of takes, each
name has lost as many of its first credentials as there were takes of it (`named_takeAll`), and a
take gives the next one (`takeAll_fst`).

Nothing gets lost on the way (`takeAll_perm`), and where the credentials come from the gates of a
command, their order is that of the declared secrets (`Declaration.forall₂_named_of_clear`).  The
main statement, `Credentials.takes_hand_out_once`, puts this together for any run of takes.
-/

set_option autoImplicit false

namespace PlatformAdmin

namespace Credentials

/-- The credentials of a name, in the order of their declaration. -/
def named (credentials : Credentials) (name : String) : List Credential :=
  credentials.remaining.filter (·.name == name)

/-- The credentials of all names but one, in the order of their declaration. -/
def besides (credentials : Credentials) (name : String) : List Credential :=
  credentials.remaining.filter (·.name != name)

/-- Takes credentials of these names, one after the other. -/
def takeAll (credentials : Credentials) : List String → List (Option Credential) × Credentials
  | [] => ([], credentials)
  | name :: names =>
    let (taken, credentials) := credentials.take name
    let (others, credentials) := credentials.takeAll names
    (taken :: others, credentials)

/-- What takes of these names give, each with its name, without the takes of one name. -/
def givenBesides (credentials : Credentials) (name : String) (names : List String) :
    List (String × Option Credential) :=
  (names.zip (credentials.takeAll names).1).filter (·.1 != name)

variable (credentials : Credentials) (name : String)

/-- Credentials are taken one by one. -/
theorem takeAll_cons (names : List String) :
    credentials.takeAll (name :: names) =
      ((credentials.take name).1 :: ((credentials.take name).2.takeAll names).1,
        ((credentials.take name).2.takeAll names).2) := rfl

/-! ## One take -/

/-- To take a name finds nothing and changes nothing, or it takes the first credential of the name
out. -/
theorem take_eq_or :
    (∀ c ∈ credentials.remaining, c.name ≠ name) ∧
      credentials.take name = (none, credentials) ∨
    ∃ before c after, credentials.remaining = before ++ c :: after ∧
      (∀ d ∈ before, d.name ≠ name) ∧ c.name = name ∧
      credentials.take name = (some c, ⟨before ++ after⟩) := by
  cases hfind : credentials.remaining.find? (·.name == name) with
  | none =>
    have hnone : ∀ c ∈ credentials.remaining, c.name ≠ name := by simpa using hfind
    exact .inl ⟨hnone, take_of_forall_ne hnone⟩
  | some c =>
    obtain ⟨hc, before, after, hremaining, hbefore⟩ := List.find?_eq_some_iff_append.mp hfind
    have hname : c.name = name := by simpa using hc
    have hothers : ∀ d ∈ before, d.name ≠ name := by simpa using hbefore
    exact .inr ⟨before, c, after, hremaining, hothers, hname,
      take_of_remaining_eq hremaining hothers hname⟩

/-- A name is given its first credential. -/
theorem take_fst : (credentials.take name).1 = (credentials.named name).head? :=
  List.head?_filter.symm

/-- What is left of a name is all but its first credential. -/
theorem named_take_self :
    (credentials.take name).2.named name = (credentials.named name).tail := by
  obtain ⟨hnone, htake⟩ | ⟨before, c, after, hremaining, hbefore, hname, htake⟩ :=
    credentials.take_eq_or name
  · have hnil : credentials.named name = [] := by simpa [named] using hnone
    rw [htake, hnil]
    rfl
  · have hfront : before.filter (·.name == name) = [] := by simpa using hbefore
    simp [htake, named, hremaining, hfront, hname]

/-- A name leaves the credentials of all other names alone. -/
theorem besides_take : (credentials.take name).2.besides name = credentials.besides name := by
  obtain ⟨-, htake⟩ | ⟨before, c, after, hremaining, -, hname, htake⟩ :=
    credentials.take_eq_or name
  · rw [htake]
  · simp [htake, besides, hremaining, hname]

/-- The credentials of one name are among those besides another. -/
theorem named_eq_filter_besides {other : String} (h : other ≠ name) :
    credentials.named other = (credentials.besides name).filter (·.name == other) := by
  rw [named, besides, List.filter_filter]
  refine List.filter_congr fun c _ => ?_
  by_cases hc : c.name = other
  · simp [hc, h]
  · simp [hc]

/-- A take removes the first credential of its own name, and none of another. -/
theorem named_take (other : String) :
    (credentials.take name).2.named other =
      (credentials.named other).drop (if name = other then 1 else 0) := by
  by_cases h : name = other
  · subst h
    rw [named_take_self, if_pos rfl, List.drop_one]
  · have hne : other ≠ name := fun h' => h h'.symm
    rw [if_neg h, List.drop_zero, named_eq_filter_besides _ _ hne, besides_take,
      ← named_eq_filter_besides _ _ hne]

/-- What is given and what is left make up what was there. -/
theorem take_perm :
    ((credentials.take name).1.toList ++ (credentials.take name).2.remaining).Perm
      credentials.remaining := by
  obtain ⟨-, htake⟩ | ⟨before, c, after, hremaining, -, -, htake⟩ := credentials.take_eq_or name
  · rw [htake]
    exact .refl _
  · have hmiddle : (c :: (before ++ after)).Perm (before ++ c :: after) := List.perm_middle.symm
    rw [htake, hremaining]
    exact hmiddle

/-- Two takes may change places. -/
theorem take_take_comm (other : String) :
    ((credentials.take name).2.take other).2 = ((credentials.take other).2.take name).2 := by
  by_cases h : name = other
  · rw [h]
  · refine congrArg Credentials.mk (List.eraseP_comm fun c _ => ?_)
    by_cases hc : c.name = name
    · exact .inr (by simp [hc, h])
    · exact .inl (by simpa using hc)

/-! ## Runs of takes -/

/-- Of a name as many credentials are gone as were asked for. -/
theorem named_takeAll (names : List String) :
    (credentials.takeAll names).2.named name =
      (credentials.named name).drop (names.count name) := by
  induction names generalizing credentials with
  | nil => rfl
  | cons first names ih =>
    rw [takeAll_cons, ih, named_take, List.drop_drop, List.count_cons, Nat.add_comm]
    simp

/-- A take gives the credential whose number is that of the takes of its name before. -/
theorem takeAll_fst (names : List String) :
    (credentials.takeAll names).1 = names.mapIdx fun i name =>
      (credentials.named name)[(names.take i).count name]? := by
  induction names generalizing credentials with
  | nil => rfl
  | cons first names ih =>
    rw [takeAll_cons, ih, List.mapIdx_cons, take_fst, List.head?_eq_getElem?]
    refine congrArg (List.cons _) (congrArg (List.mapIdx · names) ?_)
    funext i name
    rw [named_take, List.getElem?_drop, List.take_succ_cons, List.count_cons, Nat.add_comm]
    simp

/-- What was given and what is left make up what was there. -/
theorem takeAll_perm (names : List String) :
    ((credentials.takeAll names).1.reduceOption ++ (credentials.takeAll names).2.remaining).Perm
      credentials.remaining := by
  induction names generalizing credentials with
  | nil => exact .refl _
  | cons first names ih =>
    have hsplit (answers : List (Option Credential)) :
        ((credentials.take first).1 :: answers).reduceOption =
          (credentials.take first).1.toList ++ answers.reduceOption := by
      cases (credentials.take first).1 <;> rfl
    rw [takeAll_cons, hsplit, List.append_assoc]
    exact ((ih (credentials.take first).2).append_left _).trans (credentials.take_perm first)

/-- The order of the takes does not matter to what remains. -/
theorem takeAll_snd_of_perm {names names' : List String} (h : names.Perm names') :
    (credentials.takeAll names).2 = (credentials.takeAll names').2 := by
  induction h generalizing credentials with
  | nil => rfl
  | cons first _ ih => exact ih (credentials.take first).2
  | swap first second names =>
    simp only [takeAll_cons]
    rw [take_take_comm]
  | trans _ _ ih ih' => rw [ih, ih']

/-- What takes of other names give depends on the credentials of those names only. -/
theorem givenBesides_eq_of_named {credentials' : Credentials}
    (h : ∀ other, other ≠ name → credentials.named other = credentials'.named other)
    (names : List String) :
    credentials.givenBesides name names = credentials'.givenBesides name names := by
  -- takes of any name leave the two stores alike in the other names
  induction names generalizing credentials credentials' with
  | nil => rfl
  | cons first names ih =>
    have hrest : (credentials.take first).2.givenBesides name names =
        (credentials'.take first).2.givenBesides name names :=
      ih _ fun other hother => by rw [named_take, named_take, h other hother]
    unfold givenBesides at hrest ⊢
    simp only [takeAll_cons, List.zip_cons_cons, List.filter_cons, hrest]
    by_cases hfirst : first = name
    · simp [hfirst]
    · simp [hfirst, take_fst, h first hfirst]

end Credentials

/-! ## Credentials from the gates -/

/-- A secret that is obtained came to its credential. -/
theorem NeededSecret.Yields.exists_comesTo {needed : NeededSecret} {env : Environment}
    {t t' : Terminal} {c : Credential} (h : needed.Yields env t c t') :
    ∃ line, needed.ComesTo env line c := by
  cases h with
  | fromArgument given nonempty => exact ⟨[], .argument given nonempty⟩
  | fromEnvironment notGiven isSet => exact ⟨[], .environment notGiven isSet⟩
  | @fromPrompt answer notGiven notSet heard =>
    refine ⟨answer.toList, ?_⟩
    have hcomes : needed.ComesTo env answer.toList _ := .prompt notGiven notSet
    rwa [String.ofList_toList] at hcomes

/-- A credential has the name of the secret that came to it. -/
theorem NeededSecret.ComesTo.name_eq {needed : NeededSecret} {env : Environment}
    {line : List Char} {c : Credential} (h : needed.ComesTo env line c) :
    c.name = needed.name := by
  cases h <;> rfl

/-- Credentials that are obtained one by one came from their secrets one by one. -/
theorem Credential.Obtained.forall₂_comesTo {env : Environment} {t t' : Terminal}
    {secrets : List NeededSecret} {credentials : List Credential}
    (h : Obtained env t secrets credentials t') :
    List.Forall₂ (fun needed c => ∃ line, needed.ComesTo env line c) secrets credentials := by
  induction h with
  | nil => exact .nil
  | cons first _ ih => exact .cons first.exists_comesTo ih

/-- The credentials of a name are those of the secrets declared under it, in the same order. -/
theorem Declaration.forall₂_named_of_clear {d : Declaration} {inv : Invocation}
    {caps : Capabilities} {env : Environment} {t t' : Terminal} {credentials : Credentials}
    (h : d.clear inv caps env t = (.ok credentials, t')) (name : String) :
    List.Forall₂ (fun needed c => ∃ line, needed.ComesTo env line c)
      ((d.secrets inv).filter (·.name == name)) (credentials.named name) := by
  obtain ⟨t₁, -, hobtained⟩ := (clear_eq_ok_iff.mp h).agreed
  refine List.rel_filter (fun needed c ⟨line, hcomes⟩ => ?_) hobtained.forall₂_comesTo
  show (needed.name == name) = true ↔ (c.name == name) = true
  rw [hcomes.name_eq]

namespace Credentials

/-- In any run of takes, the next take of a name gives the next credential of that name in the order
of declaration, whole, and none behind the last.  What was taken and what remains are at any point
the credentials that there were.  A take of one name changes neither what remains of the other names
nor what later takes of them give, and the order of the takes does not matter to what remains.  The
credentials that come from the gates of a command are, name by name, those of its declared secrets,
in their order. -/
theorem takes_hand_out_once (credentials : Credentials) (names : List String) :
    let s := credentials.takeAll names
    s.1 = names.mapIdx (fun i name => (credentials.named name)[(names.take i).count name]?) ∧
    (∀ name, s.2.named name = (credentials.named name).drop (names.count name)) ∧
    (s.1.reduceOption ++ s.2.remaining).Perm credentials.remaining ∧
    (∀ name, (s.2.take name).2.besides name = s.2.besides name ∧
      ∀ later, (s.2.take name).2.givenBesides name later = s.2.givenBesides name later) ∧
    (∀ names', names.Perm names' → (credentials.takeAll names').2 = s.2) ∧
    ∀ (d : Declaration) (inv : Invocation) (caps : Capabilities) (env : Environment)
      (t t' : Terminal), d.clear inv caps env t = (.ok credentials, t') →
      ∀ name, List.Forall₂ (fun needed c => ∃ line, needed.ComesTo env line c)
        ((d.secrets inv).filter (·.name == name)) (credentials.named name) := by
  intro s
  refine ⟨credentials.takeAll_fst names, fun name => credentials.named_takeAll name names,
    credentials.takeAll_perm names, fun name => ⟨s.2.besides_take name, fun later => ?_⟩,
    fun names' h => (credentials.takeAll_snd_of_perm h).symm, fun d inv caps env t t' h => ?_⟩
  · refine givenBesides_eq_of_named _ name (fun other hother => ?_) later
    rw [named_take, if_neg hother.symm, List.drop_zero]
  · exact Declaration.forall₂_named_of_clear h

/-- Two secrets are declared under one name: the first is given as an argument, and the second is
asked for.  They come in this order, and a third take of the name finds none. -/
theorem takes_hand_out_once_repeated :
    let secrets : List NeededSecret :=
      [⟨"a", "A", "First", some "one"⟩, ⟨"b", "B", "Second", none⟩, ⟨"a", "C", "Third", none⟩]
    let d : Declaration :=
      { name := "d", usage := "d", checkArguments := fun _ => .ok (), secrets := fun _ => secrets }
    let caps : Capabilities := { loggedIn := true }
    let env := Environment.ofList [("B", "two")]
    let first : Credential := ⟨"a", ⟨"one"⟩, .argument⟩
    let second : Credential := ⟨"b", ⟨"two"⟩, .environment⟩
    let third : Credential := ⟨"a", ⟨"three"⟩, .prompt⟩
    let credentials : Credentials := ⟨[first, second, third]⟩
    let names := ["a", "a", "b", "a"]
    let s := credentials.takeAll names
    d.clear {} caps env (.ofInput "three\n") =
        (.ok credentials, { Terminal.ofInput "" with out := "Third: \n" }) ∧
      s.1 = [some first, some third, some second, none] ∧
      (s.1.reduceOption ++ s.2.remaining).Perm [first, second, third] ∧
      names.Perm ["b", "a", "a", "a"] ∧ (credentials.takeAll ["b", "a", "a", "a"]).2 = s.2 ∧
      List.Forall₂ (fun needed c => ∃ line, needed.ComesTo env line c)
        (secrets.filter (·.name == "a")) [first, third] := by
  intro secrets d caps env first second third credentials names s
  have hclear : d.clear {} caps env (.ofInput "three\n") =
      (.ok credentials, { Terminal.ofInput "" with out := "Third: \n" }) := by decide +kernel
  have horder : names.Perm ["b", "a", "a", "a"] := by decide
  obtain ⟨hgiven, -, hkept, -, hsame, hgates⟩ := takes_hand_out_once credentials names
  exact ⟨hclear, hgiven.trans (by decide), hkept, horder, hsame _ horder,
    hgates d {} caps env _ _ hclear "a"⟩

end Credentials

end PlatformAdmin
