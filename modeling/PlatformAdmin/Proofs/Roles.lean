import Mathlib.Data.List.Forall2
import PlatformAdmin.Proofs.FlagWords

/-!
# The role of each word

Nothing on a command line is lost, made up or moved.  Each word of a line that is read has a role:
it is the command, it spells flags, it is an argument, or it is the separator behind which all words
are arguments.  `FlagWord` says which words spell which flags, without a look at the reader, and
`Accounts` what it takes for roles to account for a command line.

What the reader takes for flags spells them (`Spells.flagWord`), and where flags are read, words
that spell flags can be put before other words (`precede_of_flagWords`).

`Leading` describes the words after `update-service-broker`, as `Mixed` does those after
`delete-user`.  Both are turned into roles by induction, with a case for each kind of word, and
`read_accounted` puts the roles before and after the command together.
-/

set_option autoImplicit false

namespace PlatformAdmin.CommandLine

variable {place : Place} {word : String} {given flags : List Flag} {canForce : Bool}

/-! ## Words that spell flags -/

/-- A letter behind one dash spells a flag.  Only where a command can be forced is there a letter
for that. -/
def LetterSpells (canForce : Bool) (letter : Char) (flag : Flag) : Prop :=
  letter = 'q' ∧ flag = .quiet ∨ canForce = true ∧ letter = 'f' ∧ flag = .force

/-- The flags that a word spells: a name behind two dashes spells one, and letters behind one dash
spell one each. -/
inductive FlagWord (canForce : Bool) : String → List Flag → Prop
  | debug : FlagWord canForce "--debug" [.debug]
  | quiet : FlagWord canForce "--quiet" [.quiet]
  | noInteractive : FlagWord canForce "--no-interactive" [.noInteractive]
  | letters {word : String} {letters : List Char} {flags : List Flag}
      (dash : word.toList = '-' :: letters) (nonempty : letters ≠ [])
      (spelled : List.Forall₂ (LetterSpells canForce) letters flags) :
      FlagWord canForce word flags

/-- Words that spell flags, and all of these flags in order. -/
inductive FlagWords (canForce : Bool) : List String → List Flag → Prop
  | nil : FlagWords canForce [] []
  | cons {word : String} {words : List String} {flags others : List Flag}
      (word_spells : FlagWord canForce word flags) (words_spell : FlagWords canForce words others) :
      FlagWords canForce (word :: words) (flags ++ others)

/-- A long name stands behind two dashes. -/
theorem WordForm.toList_of_long {name : List Char} (h : of word = .long name) :
    word.toList = '-' :: '-' :: name := by
  unfold of at h
  split at h
  case h_2 hword =>
    rw [hword, WordForm.long.inj h]
  all_goals cases h

/-- A letter that is known spells its flag, unless that asks for information. -/
theorem letterSpells_of_known {letter : Char} {flag : Flag}
    (known : place.letter? letter = some flag) (hhelp : flag ≠ .help)
    (hversion : flag ≠ .version) : LetterSpells (place.knows .force) letter flag := by
  obtain ⟨hletter, hknown⟩ := Option.filter_eq_some_iff.mp known
  unfold Flag.ofLetter? at hletter
  split_ifs at hletter with hq hf hh hv <;> obtain rfl := Option.some.inj hletter
  · exact .inl ⟨hq, rfl⟩
  · exact .inr ⟨hknown, hf, rfl⟩
  · exact absurd rfl hhelp
  · exact absurd rfl hversion

/-- Letters for flags spell them one by one. -/
theorem forall₂_letterSpells {letters : List Char}
    (known : letters.map place.letter? = flags.map some) (hhelp : Flag.help ∉ flags)
    (hversion : Flag.version ∉ flags) :
    List.Forall₂ (LetterSpells (place.knows .force)) letters flags := by
  induction letters generalizing flags with
  | nil =>
    obtain rfl : flags = [] := by simpa using known.symm
    exact .nil
  | cons letter letters ih =>
    cases flags with
    | nil => cases known
    | cons flag flags =>
      rw [List.map_cons, List.map_cons, List.cons.injEq] at known
      rw [List.mem_cons, not_or] at hhelp hversion
      exact .cons (letterSpells_of_known known.1 (Ne.symm hhelp.1) (Ne.symm hversion.1))
        (ih known.2 hhelp.2 hversion.2)

/-- What the reader takes for flags spells them. -/
theorem Spells.flagWord (h : Spells place word flags) (heffect : TakeEffect given flags) :
    FlagWord (place.knows .force) word flags := by
  cases h with
  | @long name flag form known =>
    have hword := WordForm.toList_of_long form
    have hlong : Flag.ofLong? name = some flag := (Option.filter_eq_some_iff.mp known).1
    unfold Flag.ofLong? at hlong
    split_ifs at hlong with hname hname hname hname hname <;>
      obtain rfl := Option.some.inj hlong <;> rw [hname] at hword
    · obtain rfl : word = "--debug" := String.toList_inj.mp hword
      exact .debug
    · obtain rfl : word = "--quiet" := String.toList_inj.mp hword
      exact .quiet
    · obtain rfl : word = "--no-interactive" := String.toList_inj.mp hword
      exact .noInteractive
    · exact absurd (List.mem_singleton_self _) heffect.noHelp
    · exact absurd (List.mem_singleton_self _) heffect.noVersion
  | @letters letters flags form known =>
    obtain ⟨hword, hnonempty, -⟩ := WordForm.of_eq_letters_iff.mp form
    exact .letters hword hnonempty (forall₂_letterSpells known heffect.noHelp heffect.noVersion)

/-! ## Words that spell flags are read as these flags -/

/-- A letter that spells a flag stands for it at the place. -/
theorem LetterSpells.letter? {letter : Char} {flag : Flag}
    (h : LetterSpells (place.knows .force) letter flag) : place.letter? letter = some flag := by
  obtain ⟨rfl, rfl⟩ | ⟨hforce, rfl, rfl⟩ := h
  · cases place <;> rfl
  · exact Option.filter_eq_some_iff.mpr ⟨rfl, hforce⟩

/-- No letter for a flag is a dash. -/
theorem LetterSpells.ne_dash {letter : Char} {flag : Flag}
    (h : LetterSpells canForce letter flag) : letter ≠ '-' := by
  obtain ⟨rfl, -⟩ | ⟨-, rfl, -⟩ := h
  · decide
  · decide

/-- No letter for a flag asks for help or for the version. -/
theorem LetterSpells.effective {letter : Char} {flag : Flag}
    (h : LetterSpells canForce letter flag) : flag ≠ .help ∧ flag ≠ .version := by
  obtain ⟨-, rfl⟩ | ⟨-, -, rfl⟩ := h
  · decide
  · decide

/-- Letters that spell flags one by one stand for them. -/
theorem map_letter?_of_forall₂ {letters : List Char}
    (h : List.Forall₂ (LetterSpells (place.knows .force)) letters flags) :
    letters.map place.letter? = flags.map some := by
  induction h with
  | nil => rfl
  | cons hletter _ ih => rw [List.map_cons, List.map_cons, hletter.letter?, ih]

/-- Letters that spell flags ask neither for help nor for the version. -/
theorem effective_of_forall₂ {letters : List Char}
    (h : List.Forall₂ (LetterSpells canForce) letters flags) :
    ∀ flag ∈ flags, flag ≠ .help ∧ flag ≠ .version := by
  induction h with
  | nil => nofun
  | cons hletter _ ih => exact List.forall_mem_cons.mpr ⟨hletter.effective, ih⟩

/-- The converse of `Spells.flagWord`. -/
theorem FlagWord.spells (h : FlagWord (place.knows .force) word flags) :
    Spells place word flags := by
  cases h with
  | debug =>
    refine .long (rfl : WordForm.of "--debug" = .long "debug".toList) ?_
    cases place <;> rfl
  | quiet =>
    refine .long (rfl : WordForm.of "--quiet" = .long "quiet".toList) ?_
    cases place <;> rfl
  | noInteractive => exact spells_noInteractive place
  | letters dash nonempty spelled =>
    refine .letters (WordForm.of_eq_letters_iff.mpr ⟨dash, nonempty, ?_⟩)
      (map_letter?_of_forall₂ spelled)
    cases spelled with
    | nil => nofun
    | cons hletter _ => exact fun h => hletter.ne_dash (Option.some.inj h)

/-- A word for flags asks neither for help nor for the version. -/
theorem FlagWord.effective (h : FlagWord canForce word flags) :
    ∀ flag ∈ flags, flag ≠ .help ∧ flag ≠ .version := by
  cases h with
  | letters _ _ spelled => exact effective_of_forall₂ spelled
  | _ => decide

/-- Flags that are given for the first time take effect. -/
theorem FlagWord.takeEffect (h : FlagWord canForce word flags) (honce : (given ++ flags).Nodup) :
    TakeEffect given flags := by
  obtain ⟨-, hflags, hdisjoint⟩ := List.nodup_append.mp honce
  refine ⟨fun hmem => ?_, fun hmem => ?_, hflags, fun flag hflag hgiven => ?_⟩
  · exact (h.effective _ hmem).1 rfl
  · exact (h.effective _ hmem).2 rfl
  · exact hdisjoint flag hgiven flag hflag rfl

/-- Words for flags are known at their place. -/
theorem FlagWords.knows {words : List String} (h : FlagWords (place.knows .force) words flags) :
    ∀ flag ∈ flags, place.knows flag = true := by
  induction h with
  | nil => nofun
  | cons hword _ ih => exact List.forall_mem_append.mpr ⟨hword.spells.knows, ih⟩

/-- Where a word that spells flags may precede others, words that spell flags may, as long as none
is given twice. -/
theorem precede_of_flagWords (Reads : List Flag → List (Option String) → Prop)
    (hstep : ∀ {given flags : List Flag} {word : String} {words : List (Option String)},
      Spells place word flags → TakeEffect given flags → Reads (given ++ flags) words →
        Reads given (some word :: words))
    {words : List String} {rest : List (Option String)}
    (hwords : FlagWords (place.knows .force) words flags) (honce : (given ++ flags).Nodup)
    (hrest : Reads (given ++ flags) rest) : Reads given (words.map some ++ rest) := by
  induction hwords generalizing given with
  | nil => rwa [List.append_nil] at hrest
  | cons hword _ ih =>
    rw [← List.append_assoc] at honce hrest
    exact hstep hword.spells (hword.takeEffect (List.nodup_append.mp honce).1) (ih honce hrest)

/-! ## The words after `update-service-broker` -/

/-- A word that begins with flags known at the place, be it with a value, and so is not taken for
an argument. -/
inductive Place.Claims (place : Place) (word : String) : Prop
  | separator (form : WordForm.of word = .separator)
  | long {name : List Char} (form : WordForm.of word = .long name)
      (known : (place.long? (name.takeWhile (· != '='))).isSome = true)
  | letters {letters : List Char} (form : WordForm.of word = .letters letters)
      (known : ∀ letter ∈ letters, (place.letter? letter).isSome = true)

/-- The words after `update-service-broker`, behind these flags, and what they come to. -/
inductive Leading (place : Place) : List Flag → List (Option String) → Tail → Prop
  | nil {given : List Flag} : Leading place given [] { given }
  | separator {given : List Flag} {args : List String} :
      Leading place given (some "--" :: args.map some) { given, args }
  | flags {given flags : List Flag} {word : String} {words : List (Option String)} {tail : Tail}
      (spelled : Spells place word flags) (effective : TakeEffect given flags)
      (others : Leading place (given ++ flags) words tail) :
      Leading place given (some word :: words) tail
  | args {given : List Flag} {word : String} {args : List String}
      (unclaimed : ¬place.Claims word) :
      Leading place given (some word :: args.map some) { given, args := word :: args }

/-- A word that is claimed for no flag is an argument, and so are all words after it. -/
theorem readLeading_of_not_claims (h : ¬place.Claims word) (words : List (Option String)) :
    readLeading place given (some word :: words) =
      (plainArgs (some word :: words)).map fun args => { given, args } := by
  unfold readLeading
  cases hform : WordForm.of word with
  | separator => exact absurd (.separator hform) h
  | long name =>
    have hunknown : ¬(place.long? (name.takeWhile (· != '='))).isSome = true :=
      fun known => h (.long hform known)
    simp only [hunknown]
    rfl
  | letters letters =>
    have hunknown : ¬letters.all (fun letter => (place.letter? letter).isSome) = true :=
      fun known => h (.letters hform (List.all_eq_true.mp known))
    simp only [hunknown]
    rfl
  | plain => rfl

/-- A word that spells flags is taken for flags. -/
theorem Spells.claims (h : Spells place word flags) : place.Claims word := by
  cases h with
  | @long name flag form known =>
    refine .long form ?_
    rw [takeWhile_of_long?_eq_some known, known]
    rfl
  | @letters letters flags form known =>
    refine .letters form fun letter hletter => ?_
    have hmem : place.letter? letter ∈ letters.map place.letter? := List.mem_map_of_mem hletter
    rw [known, List.mem_map] at hmem
    obtain ⟨flag, -, hflag⟩ := hmem
    rw [← hflag]
    rfl

/-- To read a tail whose flags stand first is to find its words in that order. -/
theorem readLeading_eq_ok_iff {words : List (Option String)} {tail : Tail} :
    readLeading place given words = .ok tail ↔ Leading place given words tail := by
  constructor
  · intro h
    induction words generalizing given tail with
    | nil =>
      obtain rfl : { given } = tail := by simpa [readLeading] using h
      exact .nil
    | cons w words ih =>
      cases w with
      | none => cases h
      | some word =>
        by_cases hclaims : place.Claims word
        · cases hclaims with
          | separator hform =>
            simp only [readLeading, hform] at h
            obtain rfl := WordForm.of_eq_separator_iff.mp hform
            cases hargs : plainArgs words with
            | error stop => simp [hargs, Except.map] at h
            | ok args =>
              obtain rfl : { given, args } = tail := by simpa [hargs, Except.map] using h
              obtain rfl := plainArgs_eq_ok_iff.mp hargs
              exact .separator
          | @long name hform hknown =>
            simp only [readLeading, hform, hknown, if_true] at h
            cases hgive : giveLong place given name with
            | error stop => simp [hgive] at h
            | ok given₁ =>
              simp only [hgive] at h
              obtain ⟨flag, hflag, heffect, rfl⟩ := giveLong_eq_ok_iff.mp hgive
              exact .flags (.long hform hflag) heffect (ih h)
          | @letters letters hform hknown =>
            simp only [readLeading, hform, List.all_eq_true.mpr hknown, if_true] at h
            cases hgive : giveLetters place given letters with
            | error stop => simp [hgive] at h
            | ok given₁ =>
              simp only [hgive] at h
              obtain ⟨flags, hflags, heffect, rfl⟩ := giveLetters_eq_ok_iff.mp hgive
              exact .flags (.letters hform hflags) heffect (ih h)
        · rw [readLeading_of_not_claims hclaims] at h
          cases hargs : plainArgs (some word :: words) with
          | error stop => simp [hargs, Except.map] at h
          | ok args =>
            obtain rfl : { given, args } = tail := by simpa [hargs, Except.map] using h
            have hwords := plainArgs_eq_ok_iff.mp hargs
            cases args with
            | nil => cases hwords
            | cons first args =>
              rw [List.map_cons, List.cons.injEq, Option.some.injEq] at hwords
              obtain ⟨rfl, rfl⟩ := hwords
              exact .args hclaims
  · intro h
    induction h with
    | nil => rfl
    | @separator given args =>
      have hform : WordForm.of "--" = .separator := rfl
      have hargs : plainArgs (args.map some) = .ok args := plainArgs_eq_ok_iff.mpr rfl
      simp [readLeading, hform, hargs, Except.map]
    | @flags given flags word words tail hspelled heffect _ ih =>
      have hclaims := hspelled.claims
      cases hspelled with
      | @long name flag hform hflag =>
        have hgive := giveLong_eq_ok_iff.mpr ⟨_, hflag, heffect, rfl⟩
        have hname := takeWhile_of_long?_eq_some hflag
        simp only [readLeading, hform, hname, hflag, Option.isSome_some, if_true, hgive, ih]
      | @letters letters flags hform hflags =>
        have hgive := giveLetters_eq_ok_iff.mpr ⟨_, hflags, heffect, rfl⟩
        obtain hf | ⟨hf, -⟩ | ⟨hf, hknown⟩ := hclaims <;> rw [hform] at hf
        · cases hf
        · cases hf
        · obtain rfl := WordForm.letters.inj hf
          simp only [readLeading, hform, List.all_eq_true.mpr hknown, if_true, hgive, ih]
    | @args given word args hclaims =>
      have hargs : plainArgs (some word :: args.map some) = .ok (word :: args) :=
        plainArgs_eq_ok_iff.mpr rfl
      rw [readLeading_of_not_claims hclaims, hargs]
      rfl

/-! ## Roles -/

/-- What a word beside the command is there for. -/
inductive Role
  | flags (spelled : List Flag)
  | arg
  /-- All words behind it are arguments. -/
  | separator
  deriving DecidableEq, Repr

/-- A word may have this role. -/
inductive Fits (canForce : Bool) : String × Role → Prop
  | flags {word : String} {spelled : List Flag} (word_spells : FlagWord canForce word spelled) :
      Fits canForce (word, .flags spelled)
  | arg {word : String} : Fits canForce (word, .arg)
  | separator : Fits canForce ("--", .separator)

/-- The words that are arguments, in order. -/
def argsOf (roles : List (String × Role)) : List String :=
  (roles.filter fun entry => entry.2 = .arg).map (·.1)

/-- The flags that words spell, in order. -/
def flagsOf (roles : List (String × Role)) : List Flag :=
  roles.flatMap fun entry =>
    match entry.2 with
    | .flags spelled => spelled
    | _ => []

/-- The words of a command line are those before the command, the command and those after it, and
the roles of the words on its two sides tell what the line comes to. -/
structure Accounts (words : List (Option String)) (line : CommandLine)
    (before after : List (String × Role)) : Prop where
  words : words = (before.map (·.1) ++ line.command.word :: after.map (·.1)).map some
  /-- Before the command there are flags only. -/
  fits_before : ∀ entry ∈ before, Fits false entry ∧ ∃ spelled, entry.2 = .flags spelled
  fits_after : ∀ entry ∈ after, Fits (line.command = .deleteUser) entry
  args : argsOf after = line.args
  one_separator : (after.map (·.2)).count .separator ≤ 1
  once_before : (flagsOf before).Nodup
  once_after : (flagsOf after).Nodup
  debug : line.debug = true ↔ Flag.debug ∈ flagsOf (before ++ after)
  quiet : line.quiet = true ↔ Flag.quiet ∈ flagsOf (before ++ after)
  noInteractive : line.noInteractive = true ↔ Flag.noInteractive ∈ flagsOf (before ++ after)
  force : line.force = true ↔ Flag.force ∈ flagsOf (before ++ after)

/-- The same for the words after a command, behind these flags. -/
structure TailAccounts (canForce : Bool) (given : List Flag) (words : List (Option String))
    (tail : Tail) (roles : List (String × Role)) : Prop where
  words : words = (roles.map (·.1)).map some
  fits : ∀ entry ∈ roles, Fits canForce entry
  args : argsOf roles = tail.args
  one_separator : (roles.map (·.2)).count .separator ≤ 1
  given_eq : tail.given = given ++ flagsOf roles
  once : given.Nodup → tail.given.Nodup

/-- Flags that take effect are given once. -/
theorem TakeEffect.nodup_append (h : TakeEffect given flags) (hgiven : given.Nodup) :
    (given ++ flags).Nodup := by
  rw [List.nodup_append]
  refine ⟨hgiven, h.once, fun flag hflag flag' hflag' heq => ?_⟩
  subst heq
  exact h.new flag hflag' hflag

namespace TailAccounts

variable {words : List (Option String)} {tail : Tail}
  {roles : List (String × Role)}

/-- No words are accounted for by no roles. -/
theorem nil (canForce : Bool) (given : List Flag) :
    TailAccounts canForce given [] { given } [] := by
  refine ⟨rfl, ?_, rfl, Nat.zero_le 1, ?_, id⟩
  · simp
  · simp [flagsOf]

/-- Words that are all arguments are accounted for as such. -/
theorem ofArgs (canForce : Bool) (given : List Flag) (args : List String) :
    TailAccounts canForce given (args.map some) { given, args } (args.map (·, .arg)) := by
  refine ⟨?_, ?_, ?_, ?_, ?_, id⟩
  · simp [Function.comp_def]
  · intro entry hentry
    obtain ⟨arg, -, rfl⟩ := List.mem_map.mp hentry
    exact .arg
  · simp [argsOf, List.filter_map, Function.comp_def]
  · have hnone : Role.separator ∉ (args.map (·, Role.arg)).map (·.2) := by simp
    rw [List.count_eq_zero.mpr hnone]
    exact Nat.zero_le 1
  · simp [flagsOf]

/-- Behind the separator all words are arguments, and so there is no other one. -/
theorem separator (canForce : Bool) (given : List Flag) (args : List String) :
    TailAccounts canForce given (some "--" :: args.map some) { given, args }
      (("--", .separator) :: args.map (·, .arg)) := by
  have hargs := ofArgs canForce given args
  refine ⟨?_, ?_, hargs.args, ?_, hargs.given_eq, id⟩
  · rw [List.map_cons, List.map_cons, ← hargs.words]
  · rw [List.forall_mem_cons]
    exact ⟨.separator, hargs.fits⟩
  · have hnone : Role.separator ∉ (args.map (·, Role.arg)).map (·.2) := by simp
    have hone : ((("--", Role.separator) :: args.map (·, Role.arg)).map (·.2)).count .separator =
        1 := by
      rw [List.map_cons, List.count_cons_self, List.count_eq_zero.mpr hnone]
    exact Nat.le_of_eq hone

/-- An argument in front is accounted for as one. -/
theorem cons_arg (h : TailAccounts canForce given words tail roles) (word : String) :
    TailAccounts canForce given (some word :: words) { tail with args := word :: tail.args }
      ((word, .arg) :: roles) := by
  refine ⟨?_, ?_, ?_, ?_, h.given_eq, h.once⟩
  · rw [List.map_cons, List.map_cons, ← h.words]
  · rw [List.forall_mem_cons]
    exact ⟨.arg, h.fits⟩
  · rw [← h.args]
    rfl
  · exact h.one_separator

/-- A word for flags in front is accounted for as one. -/
theorem cons_flags (h : TailAccounts canForce (given ++ flags) words tail roles)
    (hword : FlagWord canForce word flags) (heffect : TakeEffect given flags) :
    TailAccounts canForce given (some word :: words) tail ((word, .flags flags) :: roles) := by
  refine ⟨?_, ?_, ?_, ?_, ?_, fun hgiven => h.once (heffect.nodup_append hgiven)⟩
  · rw [List.map_cons, List.map_cons, ← h.words]
  · rw [List.forall_mem_cons]
    exact ⟨.flags hword, h.fits⟩
  · rw [← h.args]
    rfl
  · exact h.one_separator
  · rw [h.given_eq, List.append_assoc]
    rfl

end TailAccounts

/-- Words in any order are accounted for. -/
theorem Mixed.exists_accounts {words : List (Option String)} {tail : Tail}
    (h : Mixed place given words tail) :
    ∃ roles, TailAccounts (place.knows .force) given words tail roles := by
  induction h with
  | nil => exact ⟨_, .nil _ _⟩
  | separator => exact ⟨_, .separator _ _ _⟩
  | flags spelled effective _ ih =>
    obtain ⟨roles, haccounts⟩ := ih
    exact ⟨_, haccounts.cons_flags (spelled.flagWord effective) effective⟩
  | arg _ _ ih =>
    obtain ⟨roles, haccounts⟩ := ih
    exact ⟨_, haccounts.cons_arg _⟩

/-- Words whose flags stand first are accounted for. -/
theorem Leading.exists_accounts {words : List (Option String)} {tail : Tail}
    (h : Leading place given words tail) :
    ∃ roles, TailAccounts (place.knows .force) given words tail roles := by
  induction h with
  | nil => exact ⟨_, .nil _ _⟩
  | separator => exact ⟨_, .separator _ _ _⟩
  | flags spelled effective _ ih =>
    obtain ⟨roles, haccounts⟩ := ih
    exact ⟨_, haccounts.cons_flags (spelled.flagWord effective) effective⟩
  | args => exact ⟨_, .cons_arg (.ofArgs _ _ _) _⟩

/-- Whatever the tail of a command is read to be, its words are accounted for. -/
theorem exists_accounts_of_readTail {command : CommandName} {words : List (Option String)}
    {tail : Tail} (h : readTail command words = .ok tail) :
    ∃ roles, TailAccounts (command = .deleteUser) [] words tail roles := by
  cases command with
  | deleteUser => exact (readMixed_eq_ok_iff.mp h).exists_accounts
  | updateServiceBroker => exact (readLeading_eq_ok_iff.mp h).exists_accounts

/-! ## A whole line -/

/-- The flags before the command add to those given, and the words after it have roles. -/
theorem Line.exists_roles {words : List (Option String)} {line : CommandLine}
    (h : Line given words line) :
    ∃ before rest tail after,
      words = ((before.map (·.1)).map some ++ some line.command.word :: rest) ∧
      (∀ entry ∈ before, Fits false entry ∧ ∃ spelled, entry.2 = .flags spelled) ∧
      (given.Nodup → (given ++ flagsOf before).Nodup) ∧
      TailAccounts (line.command = .deleteUser) [] rest tail after ∧
      line = ofParts (given ++ flagsOf before) line.command tail := by
  induction h with
  | @command given command words tail read =>
    obtain ⟨after, hafter⟩ := exists_accounts_of_readTail read
    refine ⟨[], words, tail, after, rfl, by simp, ?_, hafter, ?_⟩
    · simp [flagsOf]
    · simp [flagsOf, ofParts]
  | @flags given flags word words line spelled effective _ ih =>
    obtain ⟨before, rest, tail, after, rfl, hbefore, honce, hafter, hline⟩ := ih
    refine ⟨(word, .flags flags) :: before, rest, tail, after, rfl, ?_, ?_, hafter, ?_⟩
    · rw [List.forall_mem_cons]
      exact ⟨⟨.flags (spelled.flagWord effective), flags, rfl⟩, hbefore⟩
    · intro hgiven
      have hnodup := honce (effective.nodup_append hgiven)
      rwa [List.append_assoc] at hnodup
    · rwa [List.append_assoc] at hline

/-- Every word of a line that is read has a role, in which it is accounted for. -/
theorem read_accounted {words : List (Option String)} {line : CommandLine}
    (h : read words = .ok line) : ∃ before after, Accounts words line before after := by
  obtain ⟨before, rest, tail, after, hwords, hbefore, honce, hafter, hline⟩ :=
    (readFrom_eq_ok_iff.mp h).exists_roles
  rw [List.nil_append] at honce hline
  have hflags : tail.given = flagsOf after := by
    rw [hafter.given_eq, List.nil_append]
  have hgiven : ∀ flag, (flag ∈ flagsOf before ∨ flag ∈ tail.given) ↔
      flag ∈ flagsOf (before ++ after) := by
    intro flag
    rw [hflags, flagsOf, flagsOf, flagsOf, List.flatMap_append, List.mem_append]
  refine ⟨before, after, ?_, hbefore, hafter.fits, ?_, hafter.one_separator,
    honce List.nodup_nil, ?_, ?_, ?_, ?_, ?_⟩
  · rw [hwords, hafter.words]
    simp
  · rw [hafter.args, hline]
    rfl
  · rw [← hflags]
    exact hafter.once List.nodup_nil
  all_goals
    rw [hline, ← hgiven]
    exact decide_eq_true_iff

/-- With flags on both sides of the command, and an argument that looks like one. -/
theorem read_accounted_mixed :
    let words := ["--quiet", "delete-user", "-qf", "", "--", "-f", "--"].map some
    let line : CommandLine :=
      { quiet := true, force := true, command := .deleteUser, args := ["", "-f", "--"] }
    read words = .ok line ∧ ∃ before after, Accounts words line before after := by
  intro words line
  have h : read words = .ok line := by decide
  exact ⟨h, read_accounted h⟩

end PlatformAdmin.CommandLine
