import PlatformAdmin.Proofs.WordOrder

/-!
# Words that are taken as they are

The words after `update-service-broker` may begin with a dash, as passwords may.  `MeansFlag` lists
the words that are kept for flags there, and `read_verbatim` says that all others arrive as they
were typed: with a first word of another kind, all words are arguments.
-/

set_option autoImplicit false

namespace PlatformAdmin.CommandLine

variable {word : String}

/-- The names of flags that are known after `update-service-broker`, with their dashes. -/
def longFlags : List String :=
  ["--debug", "--quiet", "--no-interactive", "--help"]

/-- The words that mean flags, or the end of flags, where they stand right behind
`update-service-broker`: be it with a value, or as letters of which all are known. -/
inductive MeansFlag : String → Prop
  | separator : MeansFlag "--"
  | long {word : String} (known : word ∈ longFlags) : MeansFlag word
  | valued {name word : String} (known : name ∈ longFlags)
      (value : name.toList ++ ['='] <+: word.toList) : MeansFlag word
  | letters {word : String} {letters : List Char} (dash : word.toList = '-' :: letters)
      (nonempty : letters ≠ []) (known : ∀ letter ∈ letters, letter = 'q' ∨ letter = 'h') :
      MeansFlag word

/-! ## Which words are claimed for flags -/

/-- A name is what stands before the first sign of equality, if there is one. -/
theorem eq_or_prefix_of_takeWhile {name word : List Char}
    (h : word.takeWhile (· != '=') = name) : word = name ∨ name ++ ['='] <+: word := by
  subst h
  induction word with
  | nil => exact .inl rfl
  | cons c word ih =>
    by_cases hc : c = '='
    · subst hc
      exact .inr ⟨word, rfl⟩
    · rw [List.takeWhile_cons_of_pos (by simpa using hc), List.cons_append, List.cons.injEq,
        List.cons_prefix_cons]
      simpa using ih

/-- A long name that stands for a flag of an update is one of the long flags. -/
theorem mem_longFlags_of_long? {name : List Char}
    (h : ((Place.after .updateServiceBroker).long? name).isSome = true) :
    String.ofList ('-' :: '-' :: name) ∈ longFlags := by
  obtain ⟨flag, hflag⟩ := Option.isSome_iff_exists.mp h
  obtain ⟨hlong, hknows⟩ := Option.filter_eq_some_iff.mp hflag
  unfold Flag.ofLong? at hlong
  split_ifs at hlong with hname hname hname hname hname
  · subst hname
    decide
  · subst hname
    decide
  · subst hname
    decide
  · subst hname
    decide
  · obtain rfl := Option.some.inj hlong
    cases hknows

/-- A letter that stands for a flag of an update is a `q` or an `h`. -/
theorem letter_of_letter? {letter : Char}
    (h : ((Place.after .updateServiceBroker).letter? letter).isSome = true) :
    letter = 'q' ∨ letter = 'h' := by
  obtain ⟨flag, hflag⟩ := Option.isSome_iff_exists.mp h
  obtain ⟨hletter, hknows⟩ := Option.filter_eq_some_iff.mp hflag
  unfold Flag.ofLetter? at hletter
  split_ifs at hletter with hq hf hh hv
  · exact .inl hq
  · obtain rfl := Option.some.inj hletter
    cases hknows
  · exact .inr hh
  · obtain rfl := Option.some.inj hletter
    cases hknows

/-- A word that an update takes for flags means a flag. -/
theorem meansFlag_of_claims (h : (Place.after .updateServiceBroker).Claims word) :
    MeansFlag word := by
  cases h with
  | separator form =>
    obtain rfl := WordForm.of_eq_separator_iff.mp form
    exact .separator
  | @long name form known =>
    have hword := WordForm.toList_of_long form
    have hknown := mem_longFlags_of_long? known
    obtain hname | hvalue := eq_or_prefix_of_takeWhile rfl
    · rw [← hname, ← hword, String.ofList_toList] at hknown
      exact .long hknown
    · refine .valued hknown ?_
      rw [hword, String.toList_ofList, List.cons_append, List.cons_append]
      exact List.cons_prefix_cons.mpr ⟨rfl, List.cons_prefix_cons.mpr ⟨rfl, hvalue⟩⟩
  | @letters letters form known =>
    obtain ⟨hword, hnonempty, -⟩ := WordForm.of_eq_letters_iff.mp form
    exact .letters hword hnonempty fun letter hletter => letter_of_letter? (known letter hletter)

/-! ## The whole line -/

/-- After `update-service-broker`, and whatever flags before it, words arrive as they were typed if
the first of them does not mean a flag.  What the others look like does not matter. -/
theorem read_verbatim {beforeWords words : List String} {before : List Flag}
    (hbefore : FlagWords false beforeWords before) (honce : before.Nodup)
    (hfirst : ∀ word, words.head? = some word → ¬MeansFlag word) :
    read ((beforeWords ++ "update-service-broker" :: words).map some) =
        .ok (withFlags before .updateServiceBroker words) ∧
      (withFlags before .updateServiceBroker words).invocation = { args := words } := by
  have hleading : Leading (.after .updateServiceBroker) [] (words.map some) { args := words } := by
    cases words with
    | nil => exact .nil
    | cons word words => exact .args fun hclaims => hfirst word rfl (meansFlag_of_claims hclaims)
  have htail : readTail .updateServiceBroker (words.map some) = .ok { args := words } :=
    readLeading_eq_ok_iff.mpr hleading
  have hline : Line before (some "update-service-broker" :: words.map some)
      (ofParts before .updateServiceBroker { args := words }) := .command htail
  have hunforced : FlagWords (Place.beforeCommand.knows .force) beforeWords before := hbefore
  have hforce : Flag.force ∉ before ++ ({ args := words } : Tail).given := by
    rw [List.append_nil]
    exact fun hmem => Bool.false_ne_true (hunforced.knows _ hmem)
  rw [ofParts_eq_withFlags hforce, List.append_nil] at hline
  refine ⟨?_, rfl⟩
  rw [List.map_append, List.map_cons]
  exact readFrom_eq_ok_iff.mpr (Line.of_flagWords hbefore honce hline)

/-- A first word that begins like a flag, and words after it that are flags elsewhere. -/
theorem read_verbatim_password :
    let words := ["-qx", "--unknown", "-s3cret", "-", "", "--quiet", "--"]
    FlagWords false ["--no-interactive"] [.noInteractive] ∧ [Flag.noInteractive].Nodup ∧
      (∀ word, words.head? = some word → ¬MeansFlag word) ∧
      read (("--no-interactive" :: "update-service-broker" :: words).map some) =
        .ok (withFlags [.noInteractive] .updateServiceBroker words) := by
  intro words
  have hbefore : FlagWords false ["--no-interactive"] [.noInteractive] := .cons .noInteractive .nil
  have honce : [Flag.noInteractive].Nodup := by decide
  have hfirst : ∀ word, words.head? = some word → ¬MeansFlag word := by
    rintro word ⟨⟩ hmeans
    obtain ⟨first, hsame⟩ : ∃ first, first = "-qx" := ⟨_, rfl⟩
    rw [← hsame] at hmeans
    cases hmeans with
    | separator => exact absurd hsame (by decide)
    | long known =>
      subst hsame
      exact absurd known (by decide)
    | @valued name _ known value =>
      have hnone : ∀ name ∈ longFlags, ¬name.toList ++ ['='] <+: "-qx".toList := by decide
      exact hnone name known (hsame ▸ value)
    | letters dash _ known =>
      rw [hsame] at dash
      obtain rfl := (List.cons.inj dash).2
      exact absurd (known 'x' (by decide)) (by decide)
  exact ⟨hbefore, honce, hfirst, (read_verbatim hbefore honce hfirst).1⟩

end PlatformAdmin.CommandLine
