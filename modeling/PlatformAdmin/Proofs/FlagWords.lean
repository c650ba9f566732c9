import Mathlib.Data.List.Basic
import Mathlib.Tactic.SplitIfs
import PlatformAdmin.CommandLine

/-!
# The words of a command line

What the reader of the command line accepts, as relations between words and flags.  `Spells`
says which flags a word stands for, and `TakeEffect` when flags may follow others.  `Mixed`
describes the words after `delete-user` and `Line` a whole line, with a case for each kind of
word; the reader accepts exactly the words they describe.  What a flag means on a line is then
found by induction on these relations.
-/

set_option autoImplicit false

namespace PlatformAdmin.CommandLine

/-! ## Single words -/

/-- Only two dashes separate. -/
theorem WordForm.of_eq_separator_iff {word : String} : of word = .separator ↔ word = "--" := by
  constructor
  · intro h
    unfold of at h
    split at h
    · rename_i hword
      exact String.toList_inj.mp hword
    all_goals cases h
  · rintro rfl
    rfl

/-- Letters stand behind one dash, and there is at least one of them. -/
theorem WordForm.of_eq_letters_iff {word : String} {letters : List Char} :
    of word = .letters letters ↔
      word.toList = '-' :: letters ∧ letters ≠ [] ∧ letters.head? ≠ some '-' := by
  unfold of
  split
  case h_4 rest _ hlong hnone hword =>
    have hdash : rest.head? ≠ some '-' := by
      cases rest with
      | nil => simp
      | cons c more =>
        rintro hc
        obtain rfl : c = '-' := by simpa using hc
        exact hlong more rfl
    rw [WordForm.letters.injEq, hword, List.cons.injEq]
    constructor
    · rintro rfl
      exact ⟨⟨rfl, rfl⟩, hnone, hdash⟩
    · rintro ⟨⟨-, h⟩, -⟩
      exact h
  all_goals grind

/-- The flags that a word stands for at a place. -/
inductive Spells (place : Place) (word : String) : List Flag → Prop
  | long {name : List Char} {flag : Flag} (form : WordForm.of word = .long name)
      (known : place.long? name = some flag) : Spells place word [flag]
  | letters {letters : List Char} {flags : List Flag} (form : WordForm.of word = .letters letters)
      (known : letters.map place.letter? = flags.map some) : Spells place word flags

/-- These flags may follow those given: none is given twice, and none asks for information. -/
structure TakeEffect (given flags : List Flag) : Prop where
  noHelp : Flag.help ∉ flags
  noVersion : Flag.version ∉ flags
  once : flags.Nodup
  new : ∀ flag ∈ flags, flag ∉ given

variable {place : Place} {word : String} {given given' flags : List Flag}

/-- No flag at all takes effect anywhere. -/
theorem TakeEffect.nil (given : List Flag) : TakeEffect given [] :=
  ⟨List.not_mem_nil, List.not_mem_nil, List.nodup_nil, nofun⟩

/-- Flags take effect one by one, each after those before it. -/
theorem takeEffect_cons_iff {flag : Flag} :
    TakeEffect given (flag :: flags) ↔
      (flag ≠ .help ∧ flag ≠ .version ∧ flag ∉ given) ∧ TakeEffect (given ++ [flag]) flags := by
  constructor
  · rintro ⟨hhelp, hversion, honce, hnew⟩
    rw [List.mem_cons, not_or] at hhelp hversion
    rw [List.nodup_cons] at honce
    refine ⟨⟨Ne.symm hhelp.1, Ne.symm hversion.1, hnew flag List.mem_cons_self⟩,
      hhelp.2, hversion.2, honce.2, fun f hf hmem => ?_⟩
    rw [List.mem_append, List.mem_singleton] at hmem
    obtain hgiven | rfl := hmem
    · exact hnew f (List.mem_cons_of_mem _ hf) hgiven
    · exact honce.1 hf
  · rintro ⟨⟨hhelp, hversion, hgiven⟩, hrest⟩
    refine ⟨?_, ?_, ?_, fun f hf hmem => ?_⟩
    · rw [List.mem_cons, not_or]
      exact ⟨Ne.symm hhelp, hrest.noHelp⟩
    · rw [List.mem_cons, not_or]
      exact ⟨Ne.symm hversion, hrest.noVersion⟩
    · rw [List.nodup_cons]
      exact ⟨fun hf => hrest.new flag hf (by simp), hrest.once⟩
    · obtain rfl | hf := List.mem_cons.mp hf
      · exact hgiven hmem
      · exact hrest.new f hf (List.mem_append_left _ hmem)

/-- A flag is taken if it stops nothing and was not given before. -/
theorem give_eq_ok_iff {flag : Flag} :
    give given flag = .ok given' ↔
      (flag ≠ .help ∧ flag ≠ .version ∧ flag ∉ given) ∧ given' = given ++ [flag] := by
  unfold give
  by_cases hhelp : flag = .help
  · simp [hhelp]
  · by_cases hversion : flag = .version
    · simp [hversion]
    · by_cases hgiven : flag ∈ given
      · simp [hhelp, hversion, hgiven]
      · simp [hhelp, hversion, hgiven, eq_comm]

/-- Letters are taken if each stands for a flag and all of these take effect. -/
theorem giveLetters_eq_ok_iff {letters : List Char} :
    giveLetters place given letters = .ok given' ↔
      ∃ flags, letters.map place.letter? = flags.map some ∧ TakeEffect given flags ∧
        given' = given ++ flags := by
  induction letters generalizing given with
  | nil =>
    constructor
    · intro h
      exact ⟨[], rfl, .nil given, by simpa [giveLetters] using h.symm⟩
    · rintro ⟨flags, hflags, -, rfl⟩
      obtain rfl : flags = [] := by simpa using hflags.symm
      simp [giveLetters]
  | cons letter letters ih =>
    constructor
    · intro h
      unfold giveLetters at h
      cases hl : place.letter? letter with
      | none => simp [hl] at h
      | some flag =>
        cases hg : give given flag with
        | error stop => simp [hl, hg] at h
        | ok given₁ =>
          simp only [hl, hg] at h
          obtain ⟨heffect, rfl⟩ := give_eq_ok_iff.mp hg
          obtain ⟨flags, hflags, hrest, rfl⟩ := ih.mp h
          refine ⟨flag :: flags, ?_, takeEffect_cons_iff.mpr ⟨heffect, hrest⟩, ?_⟩
          · rw [List.map_cons, List.map_cons, hl, hflags]
          · rw [List.append_assoc, List.singleton_append]
    · rintro ⟨flags, hflags, heffect, rfl⟩
      cases flags with
      | nil => simp at hflags
      | cons flag flags =>
        rw [List.map_cons, List.map_cons, List.cons.injEq] at hflags
        obtain ⟨hfirst, hrest⟩ := takeEffect_cons_iff.mp heffect
        have hg : give given flag = .ok (given ++ [flag]) := give_eq_ok_iff.mpr ⟨hfirst, rfl⟩
        simp only [giveLetters, hflags.1, hg]
        refine ih.mpr ⟨flags, hflags.2, hrest, ?_⟩
        rw [List.append_assoc, List.singleton_append]

/-- A name that is known has no value behind it. -/
theorem takeWhile_of_long?_eq_some {name : List Char} {flag : Flag}
    (h : place.long? name = some flag) : name.takeWhile (· != '=') = name := by
  have hlong : Flag.ofLong? name = some flag := (Option.filter_eq_some_iff.mp h).1
  unfold Flag.ofLong? at hlong
  split_ifs at hlong with hn hn hn hn hn <;> rw [hn] <;> rfl

/-- A long name is taken if it stands for a flag and that takes effect. -/
theorem giveLong_eq_ok_iff {name : List Char} :
    giveLong place given name = .ok given' ↔
      ∃ flag, place.long? name = some flag ∧ TakeEffect given [flag] ∧
        given' = given ++ [flag] := by
  have heffect : ∀ flag, TakeEffect given [flag] ↔
      flag ≠ .help ∧ flag ≠ .version ∧ flag ∉ given := fun flag => by
    rw [takeEffect_cons_iff, and_iff_left (.nil _)]
  constructor
  · intro h
    unfold giveLong at h
    dsimp only at h
    split at h
    · cases h
    · rename_i flag hflag
      split at h
      · cases h
      · rename_i hlength
        have hwhole : name.takeWhile (· != '=') = name :=
          (List.takeWhile_prefix _).eq_of_length_le (Nat.not_lt.mp hlength)
        rw [hwhole] at hflag
        obtain ⟨hfirst, rfl⟩ := give_eq_ok_iff.mp h
        exact ⟨flag, hflag, (heffect flag).mpr hfirst, rfl⟩
  · rintro ⟨flag, hflag, hfirst, rfl⟩
    unfold giveLong
    dsimp only
    rw [takeWhile_of_long?_eq_some hflag, hflag]
    dsimp only
    rw [if_neg (Nat.lt_irrefl _)]
    exact give_eq_ok_iff.mpr ⟨(heffect flag).mp hfirst, rfl⟩

namespace Spells

variable {flags' : List Flag}

/-- A word spells one list of flags only. -/
theorem unique (h : Spells place word flags) (h' : Spells place word flags') : flags = flags' := by
  cases h with
  | long form known =>
    cases h' with
    | long form' known' =>
      rw [form, WordForm.long.injEq] at form'
      rw [form', known', Option.some.injEq] at known
      rw [known]
    | letters form' known' =>
      rw [form] at form'
      cases form'
  | letters form known =>
    cases h' with
    | long form' known' =>
      rw [form] at form'
      cases form'
    | letters form' known' =>
      rw [form, WordForm.letters.injEq] at form'
      rw [form', known'] at known
      exact (List.map_injective_iff.mpr (fun _ _ => Option.some.inj) known).symm

/-- A word that spells flags is not plain. -/
theorem ne_plain (h : Spells place word flags) : WordForm.of word ≠ .plain := by
  cases h with
  | long form _ => rw [form]; nofun
  | letters form _ => rw [form]; nofun

/-- A word that spells flags is no separator. -/
theorem ne_separator (h : Spells place word flags) : word ≠ "--" := by
  rintro rfl
  cases h with
  | long form _ => cases form
  | letters form _ => cases form

/-- Every flag that a word stands for is known at the place. -/
theorem knows (h : Spells place word flags) : ∀ flag ∈ flags, place.knows flag = true := by
  cases h with
  | long _ known =>
    intro flag hflag
    obtain rfl := List.mem_singleton.mp hflag
    exact (Option.filter_eq_some_iff.mp known).2
  | letters _ known =>
    intro flag hflag
    have hmem : some flag ∈ flags.map some := List.mem_map_of_mem hflag
    rw [← known, List.mem_map] at hmem
    obtain ⟨letter, -, hletter⟩ := hmem
    exact (Option.filter_eq_some_iff.mp hletter).2

end Spells

/-! ## The words after `delete-user` -/

/-- Words are read as arguments exactly if all of them are text. -/
theorem plainArgs_eq_ok_iff {words : List (Option String)} {args : List String} :
    plainArgs words = .ok args ↔ words = args.map some := by
  induction words generalizing args with
  | nil => cases args <;> simp [plainArgs]
  | cons w words ih =>
    cases w with
    | none => cases args <;> simp [plainArgs]
    | some word =>
      unfold plainArgs
      cases args with
      | nil => cases plainArgs words <;> simp
      | cons arg args =>
        rw [List.map_cons, List.cons.injEq, Option.some.injEq, ← ih]
        cases plainArgs words <;> simp

/-- The words after `delete-user`, behind these flags, and what they come to. -/
inductive Mixed (place : Place) : List Flag → List (Option String) → Tail → Prop
  | nil {given : List Flag} : Mixed place given [] { given }
  | separator {given : List Flag} {args : List String} :
      Mixed place given (some "--" :: args.map some) { given, args }
  | flags {given flags : List Flag} {word : String} {words : List (Option String)} {tail : Tail}
      (spelled : Spells place word flags) (effective : TakeEffect given flags)
      (others : Mixed place (given ++ flags) words tail) :
      Mixed place given (some word :: words) tail
  | arg {given : List Flag} {word : String} {words : List (Option String)} {tail : Tail}
      (plain : WordForm.of word = .plain) (others : Mixed place given words tail) :
      Mixed place given (some word :: words) { tail with args := word :: tail.args }

/-- To read a tail of flags and arguments in any order is to find its words in that order. -/
theorem readMixed_eq_ok_iff {words : List (Option String)} {tail : Tail} :
    readMixed place given words = .ok tail ↔ Mixed place given words tail := by
  constructor
  · intro h
    induction words generalizing given tail with
    | nil =>
      obtain rfl : { given } = tail := by simpa [readMixed] using h
      exact .nil
    | cons w words ih =>
      cases w with
      | none => cases h
      | some word =>
        unfold readMixed at h
        cases hform : WordForm.of word with
        | separator =>
          simp only [hform] at h
          obtain rfl := WordForm.of_eq_separator_iff.mp hform
          cases hargs : plainArgs words with
          | error stop => simp [hargs, Except.map] at h
          | ok args =>
            obtain rfl : { given, args } = tail := by simpa [hargs, Except.map] using h
            obtain rfl := plainArgs_eq_ok_iff.mp hargs
            exact .separator
        | long name =>
          simp only [hform] at h
          cases hgive : giveLong place given name with
          | error stop => simp [hgive] at h
          | ok given₁ =>
            simp only [hgive] at h
            obtain ⟨flag, hflag, heffect, rfl⟩ := giveLong_eq_ok_iff.mp hgive
            exact .flags (.long hform hflag) heffect (ih h)
        | letters letters =>
          simp only [hform] at h
          cases hgive : giveLetters place given letters with
          | error stop => simp [hgive] at h
          | ok given₁ =>
            simp only [hgive] at h
            obtain ⟨flags, hflags, heffect, rfl⟩ := giveLetters_eq_ok_iff.mp hgive
            exact .flags (.letters hform hflags) heffect (ih h)
        | plain =>
          simp only [hform] at h
          cases hrest : readMixed place given words with
          | error stop => simp [hrest, Except.map] at h
          | ok tail₁ =>
            obtain rfl : { tail₁ with args := word :: tail₁.args } = tail := by
              simpa [hrest, Except.map] using h
            exact .arg hform (ih hrest)
  · intro h
    induction h with
    | nil => rfl
    | @separator given args =>
      have hform : WordForm.of "--" = .separator := rfl
      have hargs : plainArgs (args.map some) = .ok args := plainArgs_eq_ok_iff.mpr rfl
      simp [readMixed, hform, hargs, Except.map]
    | @flags given flags word words tail hspelled heffect _ ih =>
      cases hspelled with
      | long hform hflag =>
        have hgive := giveLong_eq_ok_iff.mpr ⟨_, hflag, heffect, rfl⟩
        simp only [readMixed, hform, hgive, ih]
      | letters hform hflags =>
        have hgive := giveLetters_eq_ok_iff.mpr ⟨_, hflags, heffect, rfl⟩
        simp only [readMixed, hform, hgive, ih]
    | arg hform _ ih => simp [readMixed, hform, ih, Except.map]

namespace Mixed

variable {words : List (Option String)} {tail : Tail}

/-- What was given before is given after. -/
theorem given_subset (h : Mixed place given words tail) : given ⊆ tail.given := by
  induction h with
  | nil => exact List.Subset.refl _
  | separator => exact List.Subset.refl _
  | flags _ _ _ ih => exact List.Subset.trans (List.subset_append_left _ _) ih
  | arg _ _ ih => exact ih

/-- Before the separator a word counts for all the flags that it stands for. -/
theorem spelled_subset (h : Mixed place given words tail) (hspells : Spells place word flags)
    (hword : some word ∈ words.takeWhile (· ≠ some "--")) : flags ⊆ tail.given := by
  induction h with
  | nil => cases hword
  | separator => simp at hword
  | @flags given flags' word' words tail hspelled _ hothers ih =>
    have hne : some word' ≠ some "--" := fun h => hspelled.ne_separator (Option.some.inj h)
    rw [List.takeWhile_cons_of_pos (by simpa using hne), List.mem_cons] at hword
    obtain h | h := hword
    · obtain rfl := Option.some.inj h
      rw [hspells.unique hspelled]
      exact List.Subset.trans (List.subset_append_right _ _) hothers.given_subset
    · exact ih h
  | @arg given word' words tail hplain _ ih =>
    have hne : some word' ≠ some "--" := by
      rintro h
      obtain rfl := Option.some.inj h
      cases hplain
    rw [List.takeWhile_cons_of_pos (by simpa using hne), List.mem_cons] at hword
    obtain h | h := hword
    · obtain rfl := Option.some.inj h
      exact absurd hplain hspells.ne_plain
    · exact ih h

/-- A flag that was not given before comes from a word before the separator. -/
theorem exists_spelled {flag : Flag} (h : Mixed place given words tail)
    (hgiven : flag ∉ given) (htail : flag ∈ tail.given) :
    ∃ between word flags after, words = between ++ some word :: after ∧
      some "--" ∉ between ∧ Spells place word flags ∧ flag ∈ flags := by
  induction h with
  | nil => exact absurd htail hgiven
  | separator => exact absurd htail hgiven
  | @flags given flags word words tail hspelled _ _ ih =>
    by_cases hflag : flag ∈ flags
    · exact ⟨[], word, flags, words, rfl, List.not_mem_nil, hspelled, hflag⟩
    · have hgiven' : flag ∉ given ++ flags := by
        rw [List.mem_append, not_or]
        exact ⟨hgiven, hflag⟩
      obtain ⟨between, word', flags', after, rfl, hbetween, hspells, hmem⟩ := ih hgiven' htail
      refine ⟨some word :: between, word', flags', after, rfl, ?_, hspells, hmem⟩
      rw [List.mem_cons, not_or]
      exact ⟨fun h => hspelled.ne_separator (Option.some.inj h).symm, hbetween⟩
  | @arg given word words tail hplain _ ih =>
    obtain ⟨between, word', flags', after, rfl, hbetween, hspells, hmem⟩ := ih hgiven htail
    refine ⟨some word :: between, word', flags', after, rfl, ?_, hspells, hmem⟩
    rw [List.mem_cons, not_or]
    refine ⟨fun h => ?_, hbetween⟩
    obtain rfl := Option.some.inj h
    cases hplain

end Mixed

/-! ## A whole line -/

/-- The words of a line, behind these flags, and the command line they come to. -/
inductive Line : List Flag → List (Option String) → CommandLine → Prop
  | command {given : List Flag} {command : CommandName} {words : List (Option String)}
      {tail : Tail} (read : readTail command words = .ok tail) :
      Line given (some command.word :: words) (ofParts given command tail)
  | flags {given flags : List Flag} {word : String} {words : List (Option String)}
      {line : CommandLine} (spelled : Spells .beforeCommand word flags)
      (effective : TakeEffect given flags) (others : Line (given ++ flags) words line) :
      Line given (some word :: words) line

/-- A word names a command exactly if it is the word of that command. -/
theorem ofWord?_eq_some_iff {command : CommandName} :
    CommandName.ofWord? word = some command ↔ word = command.word := by
  unfold CommandName.ofWord?
  cases command <;> split_ifs <;> simp_all [CommandName.word]

/-- A word that spells flags is none that is plain. -/
theorem Spells.ne_of_plain (h : Spells place word flags) {other : String}
    (hplain : WordForm.of other = .plain) : word ≠ other := by
  rintro rfl
  exact h.ne_plain hplain

/-- A word that spells flags names no command. -/
theorem Spells.ofWord?_eq_none (h : Spells place word flags) : CommandName.ofWord? word = none := by
  cases hw : CommandName.ofWord? word with
  | none => rfl
  | some command =>
    have hplain : WordForm.of command.word = .plain := by cases command <;> rfl
    exact absurd (ofWord?_eq_some_iff.mp hw) (h.ne_of_plain hplain)

/-- To read a command line is to find its words to be those of the line. -/
theorem readFrom_eq_ok_iff {words : List (Option String)} {line : CommandLine} :
    readFrom given words = .ok line ↔ Line given words line := by
  constructor
  · intro h
    induction words generalizing given with
    | nil => cases h
    | cons w words ih =>
      cases w with
      | none => cases h
      | some word =>
        unfold readFrom at h
        cases hcommand : CommandName.ofWord? word with
        | some command =>
          simp only [hcommand] at h
          obtain rfl := ofWord?_eq_some_iff.mp hcommand
          cases htail : readTail command words with
          | error stop => simp [htail, Except.map] at h
          | ok tail =>
            obtain rfl : ofParts given command tail = line := by simpa [htail, Except.map] using h
            exact .command htail
        | none =>
          simp only [hcommand] at h
          split at h
          · cases h
          · cases hform : WordForm.of word with
            | separator => simp [hform] at h
            | long name =>
              simp only [hform] at h
              cases hgive : giveLong .beforeCommand given name with
              | error stop => simp [hgive] at h
              | ok given₁ =>
                simp only [hgive] at h
                obtain ⟨flag, hflag, heffect, rfl⟩ := giveLong_eq_ok_iff.mp hgive
                exact .flags (.long hform hflag) heffect (ih h)
            | letters letters =>
              simp only [hform] at h
              cases hgive : giveLetters .beforeCommand given letters with
              | error stop => simp [hgive] at h
              | ok given₁ =>
                simp only [hgive] at h
                obtain ⟨flags, hflags, heffect, rfl⟩ := giveLetters_eq_ok_iff.mp hgive
                exact .flags (.letters hform hflags) heffect (ih h)
            | plain => simp [hform] at h
  · intro h
    induction h with
    | @command given command words tail hread =>
      have hcommand : CommandName.ofWord? command.word = some command :=
        ofWord?_eq_some_iff.mpr rfl
      simp [readFrom, hcommand, hread, Except.map]
    | @flags given flags word words line hspelled heffect _ ih =>
      -- a word made of flags is neither a command nor the word for help
      have hhelp : word ≠ "help" := hspelled.ne_of_plain rfl
      have hcommand := hspelled.ofWord?_eq_none
      cases hspelled with
      | long hform hflag =>
        have hgive := giveLong_eq_ok_iff.mpr ⟨_, hflag, heffect, rfl⟩
        simp only [readFrom, hcommand, hhelp, hform, hgive, ih, if_false]
      | letters hform hflags =>
        have hgive := giveLetters_eq_ok_iff.mpr ⟨_, hflags, heffect, rfl⟩
        simp only [readFrom, hcommand, hhelp, hform, hgive, ih, if_false]

/-- Behind `delete-user`, and before any separator, there is a word of letters behind one dash
with an `f` among them. -/
def IsForcedBy (words : List (Option String)) : Prop :=
  ∃ before between word letters after,
    words = before ++ some "delete-user" :: between ++ some word :: after ∧
      some "--" ∉ before ++ between ∧ String.toList word = '-' :: letters ∧
      letters.head? ≠ some '-' ∧ 'f' ∈ letters

/-- Only letters stand for the flag that forces a command. -/
theorem Spells.force (h : Spells place word flags) (hforce : Flag.force ∈ flags) :
    ∃ letters, word.toList = '-' :: letters ∧ letters.head? ≠ some '-' ∧ 'f' ∈ letters := by
  cases h with
  | @long name flag _ hknown =>
    obtain rfl := List.mem_singleton.mp hforce
    have hlong : Flag.ofLong? name = some .force := (Option.filter_eq_some_iff.mp hknown).1
    unfold Flag.ofLong? at hlong
    split_ifs at hlong <;> cases hlong
  | @letters letters flags hform hknown =>
    obtain ⟨hword, -, hhead⟩ := WordForm.of_eq_letters_iff.mp hform
    have hmem : some Flag.force ∈ flags.map some := List.mem_map_of_mem hforce
    rw [← hknown, List.mem_map] at hmem
    obtain ⟨letter, hletter, hflag⟩ := hmem
    have hf : Flag.ofLetter? letter = some .force := (Option.filter_eq_some_iff.mp hflag).1
    have hletter' : letter = 'f' := by
      unfold Flag.ofLetter? at hf
      split_ifs at hf with hq hf' <;> first | exact hf' | cases hf
    exact ⟨letters, hword, hhead, hletter' ▸ hletter⟩

/-- The word that turns questions off spells that flag at every place. -/
theorem spells_noInteractive (place : Place) :
    Spells place "--no-interactive" [.noInteractive] := by
  refine .long (rfl : WordForm.of "--no-interactive" = .long "no-interactive".toList) ?_
  cases place <;> rfl

namespace Line

variable {words : List (Option String)} {line : CommandLine}

/-- Where a deletion is forced, a word forces it. -/
theorem isForcedBy (h : Line given words line) (hgiven : Flag.force ∉ given)
    (hcommand : line.command = .deleteUser) (hforce : line.force = true) : IsForcedBy words := by
  induction h with
  | @command given command words tail hread =>
    obtain rfl : command = .deleteUser := hcommand
    have hmixed : Mixed (.after .deleteUser) [] words tail := readMixed_eq_ok_iff.mp hread
    have htail : Flag.force ∈ tail.given := by
      obtain hmem | hmem : Flag.force ∈ given ∨ Flag.force ∈ tail.given := of_decide_eq_true hforce
      · exact absurd hmem hgiven
      · exact hmem
    obtain ⟨between, word, flags, after, rfl, hbetween, hspells, hmem⟩ :=
      hmixed.exists_spelled List.not_mem_nil htail
    obtain ⟨letters, hword, hhead, hf⟩ := hspells.force hmem
    exact ⟨[], between, word, letters, after, rfl, hbetween, hword, hhead, hf⟩
  | @flags given flags word words line hspelled _ _ ih =>
    -- no word before the command stands for this flag
    have hgiven' : Flag.force ∉ given ++ flags := by
      rw [List.mem_append, not_or]
      exact ⟨hgiven, fun hmem => Bool.false_ne_true (hspelled.knows _ hmem)⟩
    obtain ⟨before, between, word', letters, after, rfl, hnone, hword⟩ :=
      ih hgiven' hcommand hforce
    refine ⟨some word :: before, between, word', letters, after, rfl, ?_, hword⟩
    rw [List.cons_append, List.mem_cons, not_or]
    exact ⟨fun h => hspelled.ne_separator (Option.some.inj h).symm, hnone⟩

/-- A flag that was given before the command holds for the line. -/
theorem noInteractive_of_given (h : Line given words line) (hgiven : Flag.noInteractive ∈ given) :
    line.noInteractive = true := by
  induction h with
  | command _ => exact decide_eq_true (.inl hgiven)
  | flags _ _ _ ih => exact ih (List.mem_append_left _ hgiven)

/-- A word that turns questions off, before any separator, turns them off. -/
theorem noInteractive_of_mem (h : Line given words line) (hcommand : line.command = .deleteUser)
    (hword : some "--no-interactive" ∈ words.takeWhile (· ≠ some "--")) :
    line.noInteractive = true := by
  induction h with
  | @command given command words tail hread =>
    obtain rfl : command = .deleteUser := hcommand
    have hmixed : Mixed (.after .deleteUser) [] words tail := readMixed_eq_ok_iff.mp hread
    rw [List.takeWhile_cons_of_pos (by decide), List.mem_cons] at hword
    obtain h | h := hword
    · exact absurd h (by decide)
    · exact decide_eq_true (.inr (hmixed.spelled_subset (spells_noInteractive _) h (by simp)))
  | @flags given flags word words line hspelled _ hothers ih =>
    have hne : some word ≠ some "--" := fun h => hspelled.ne_separator (Option.some.inj h)
    rw [List.takeWhile_cons_of_pos (by simpa using hne), List.mem_cons] at hword
    obtain h | h := hword
    · obtain rfl := Option.some.inj h
      rw [← (spells_noInteractive _).unique hspelled] at hothers
      exact hothers.noInteractive_of_given (by simp)
    · exact ih hcommand h

end Line

end PlatformAdmin.CommandLine
