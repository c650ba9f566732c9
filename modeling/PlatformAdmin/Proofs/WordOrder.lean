import PlatformAdmin.Proofs.FlagPlaces

/-!
# The order of flags and arguments

After `delete-user` flags and arguments may come in any order.  `Interleaving` says that words are
those of two lists, each in its own order.  However the words for flags are put between the
arguments, and behind whatever flags before the command, the line is read, and what it comes to
does not depend on the places: `read_interleaved`.
-/

set_option autoImplicit false

namespace PlatformAdmin.CommandLine

variable {place : Place} {word : String} {given flags : List Flag}

/-! ## Lists of words -/

/-- The words of two lists, each in its own order. -/
inductive Interleaving : List String → List String → List String → Prop
  | nil : Interleaving [] [] []
  | left {word : String} {xs ys words : List String} (others : Interleaving xs ys words) :
      Interleaving (word :: xs) ys (word :: words)
  | right {word : String} {xs ys words : List String} (others : Interleaving xs ys words) :
      Interleaving xs (word :: ys) (word :: words)

/-- The words from the separator on, and the arguments among them.  Where there is no separator
there are none. -/
inductive FromSeparator : List String → List String → Prop
  | none : FromSeparator [] []
  | separator (args : List String) : FromSeparator ("--" :: args) args

/-- The command line that has these flags before `delete-user` and these after it. -/
def deletion (before after : List Flag) (args : List String) : CommandLine where
  debug := Flag.debug ∈ before ∨ Flag.debug ∈ after
  quiet := Flag.quiet ∈ before ∨ Flag.quiet ∈ after
  noInteractive := Flag.noInteractive ∈ before ∨ Flag.noInteractive ∈ after
  force := Flag.force ∈ after
  command := .deleteUser
  args := args

/-! ## Words around the command -/

/-- Words for flags before a line go before it. -/
theorem Line.of_flagWords {words : List String} {rest : List (Option String)} {line : CommandLine}
    (hwords : FlagWords false words flags) (honce : (given ++ flags).Nodup)
    (hline : Line (given ++ flags) rest line) : Line given (words.map some ++ rest) line := by
  have hknown : FlagWords (Place.beforeCommand.knows .force) words flags := hwords
  exact precede_of_flagWords (fun given words => Line given words line) .flags hknown honce hline

/-- An argument before the separator is a single dash, or does not begin with a dash. -/
theorem WordForm.of_eq_plain_of_argument (h : word = "-" ∨ word.toList.head? ≠ some '-') :
    of word = .plain := by
  obtain rfl | hhead := h
  · rfl
  · exact of_eq_plain hhead

/-- From the separator on, all words are arguments, and no flag stands among them. -/
theorem Mixed.of_fromSeparator {behind further : List String}
    (h : FromSeparator behind further) :
    Mixed place given (behind.map some) { given, args := further } := by
  cases h with
  | none => exact .nil
  | separator args => exact .separator

/-- With no words to put among them, words stay as they are. -/
theorem Interleaving.of_nil (words : List String) : Interleaving [] words words := by
  induction words with
  | nil => exact .nil
  | cons word words ih => exact .right ih

/-- Wherever words for flags stand between arguments, the flags are given and the arguments stay in
order. -/
theorem Mixed.of_interleaving {args flagWords words : List String} {rest : List (Option String)}
    {tail : Tail} (hwords : Interleaving args flagWords words)
    (hflags : FlagWords (place.knows .force) flagWords flags)
    (hargs : ∀ arg ∈ args, arg = "-" ∨ arg.toList.head? ≠ some '-')
    (honce : (given ++ flags).Nodup) (hrest : Mixed place (given ++ flags) rest tail) :
    Mixed place given (words.map some ++ rest) { tail with args := args ++ tail.args } := by
  induction hwords generalizing given flags with
  | nil =>
    cases hflags with
    | nil => rwa [List.append_nil] at hrest
  | left _ ih =>
    obtain ⟨harg, hothers⟩ := List.forall_mem_cons.mp hargs
    exact .arg (WordForm.of_eq_plain_of_argument harg) (ih hflags hothers honce hrest)
  | right _ ih =>
    cases hflags with
    | cons hword hothers =>
      rw [← List.append_assoc] at honce hrest
      exact .flags hword.spells (hword.takeEffect (List.nodup_append.mp honce).1)
        (ih hothers hargs honce hrest)

/-- A deletion is put together from the flags before the command and those after it. -/
theorem ofParts_eq_deletion {before after : List Flag} (args : List String)
    (hforce : Flag.force ∉ before) :
    ofParts before .deleteUser { given := after, args } = deletion before after args := by
  simp [ofParts, deletion, hforce]

/-- The order of the flags before the command, and of those after it, is the same to a deletion. -/
theorem deletion_of_perm {before before' after after' : List Flag} (hbefore : before'.Perm before)
    (hafter : after'.Perm after) (args : List String) :
    deletion before' after' args = deletion before after args := by
  simp only [deletion, hbefore.mem_iff, hafter.mem_iff]

/-- Any line that consists of flags, `delete-user`, and flags and arguments in any order is read. -/
theorem read_deletion {beforeWords afterWords args words behind further : List String}
    {before after : List Flag} (hbefore : FlagWords false beforeWords before)
    (hbeforeOnce : before.Nodup) (hafter : FlagWords true afterWords after)
    (hafterOnce : after.Nodup)
    (hargs : ∀ arg ∈ args, arg = "-" ∨ arg.toList.head? ≠ some '-')
    (hwords : Interleaving args afterWords words) (hbehind : FromSeparator behind further) :
    read ((beforeWords ++ "delete-user" :: (words ++ behind)).map some) =
      .ok (deletion before after (args ++ further)) := by
  have hknown : FlagWords ((Place.after .deleteUser).knows .force) afterWords after := hafter
  have honce : ([] ++ after).Nodup := hafterOnce
  have hmixed : Mixed (.after .deleteUser) [] (words.map some ++ behind.map some)
      { given := after, args := args ++ further } :=
    Mixed.of_interleaving hwords hknown hargs honce (.of_fromSeparator hbehind)
  have htail : readTail .deleteUser (words.map some ++ behind.map some) =
      .ok { given := after, args := args ++ further } := readMixed_eq_ok_iff.mpr hmixed
  have hline : Line before (some "delete-user" :: (words.map some ++ behind.map some))
      (ofParts before .deleteUser { given := after, args := args ++ further }) := .command htail
  have hunforced : FlagWords (Place.beforeCommand.knows .force) beforeWords before := hbefore
  have hforce : Flag.force ∉ before := fun hmem => Bool.false_ne_true (hunforced.knows _ hmem)
  rw [ofParts_eq_deletion _ hforce] at hline
  rw [List.map_append, List.map_cons, List.map_append]
  exact readFrom_eq_ok_iff.mpr (Line.of_flagWords hbefore hbeforeOnce hline)

/-- Flags and arguments of `delete-user` may come in any order.  Whatever flags are given, once each
before the command and once each after it, and wherever the words that spell them stand between the
arguments, the line is read, and it has these flags and the arguments in their order.  So two lines
that have the flags and arguments in another order come to the same, and behind the separator any
word can be a username. -/
theorem read_interleaved {beforeWords afterWords args words behind further : List String}
    {before after : List Flag} (hbefore : FlagWords false beforeWords before)
    (hbeforeOnce : before.Nodup) (hafter : FlagWords true afterWords after)
    (hafterOnce : after.Nodup)
    (hargs : ∀ arg ∈ args, arg = "-" ∨ arg.toList.head? ≠ some '-')
    (hwords : Interleaving args afterWords words) (hbehind : FromSeparator behind further) :
    read ((beforeWords ++ "delete-user" :: (words ++ behind)).map some) =
        .ok (deletion before after (args ++ further)) ∧
      (∀ before' beforeWords' after' afterWords' words', before'.Perm before →
        FlagWords false beforeWords' before' → after'.Perm after →
        FlagWords true afterWords' after' → Interleaving args afterWords' words' →
          read ((beforeWords' ++ "delete-user" :: (words' ++ behind)).map some) =
            read ((beforeWords ++ "delete-user" :: (words ++ behind)).map some)) ∧
      ∀ username,
        read ((beforeWords ++ "delete-user" :: (afterWords ++ ["--", username])).map some) =
          .ok (deletion before after [username]) := by
  have hread := read_deletion hbefore hbeforeOnce hafter hafterOnce hargs hwords hbehind
  refine ⟨hread, ?_, fun username => ?_⟩
  · intro before' beforeWords' after' afterWords' words' hsameBefore hbefore' hsameAfter hafter'
      hwords'
    have hread' := read_deletion hbefore' (hsameBefore.nodup_iff.mpr hbeforeOnce) hafter'
      (hsameAfter.nodup_iff.mpr hafterOnce) hargs hwords' hbehind
    rw [hread', hread, deletion_of_perm hsameBefore hsameAfter]
  · have hnone : ∀ arg ∈ ([] : List String), arg = "-" ∨ arg.toList.head? ≠ some '-' := nofun
    exact read_deletion hbefore hbeforeOnce hafter hafterOnce hnone (.of_nil afterWords)
      (.separator [username])

/-- Short flags behind one dash between an empty argument and a single dash, and arguments that look
like flags behind the separator. -/
theorem read_interleaved_fused :
    let beforeWords := ["-q", "--debug"]
    let before := [Flag.quiet, .debug]
    let afterWords := ["-fq", "--no-interactive"]
    let after := [Flag.force, .quiet, .noInteractive]
    let args := ["", "-"]
    let words := ["", "-fq", "-", "--no-interactive"]
    let behind := ["--", "-f", "--help"]
    FlagWords false beforeWords before ∧ before.Nodup ∧ FlagWords true afterWords after ∧
      after.Nodup ∧ (∀ arg ∈ args, arg = "-" ∨ arg.toList.head? ≠ some '-') ∧
      Interleaving args afterWords words ∧ FromSeparator behind ["-f", "--help"] ∧
      read ((beforeWords ++ "delete-user" :: (words ++ behind)).map some) =
        .ok (deletion before after ["", "-", "-f", "--help"]) := by
  intro beforeWords before afterWords after args words behind
  have hquiet : FlagWord false "-q" [.quiet] :=
    .letters rfl (List.cons_ne_nil _ _) (.cons (.inl ⟨rfl, rfl⟩) .nil)
  have hfused : FlagWord true "-fq" [.force, .quiet] :=
    .letters rfl (List.cons_ne_nil _ _)
      (.cons (.inr ⟨rfl, rfl, rfl⟩) (.cons (.inl ⟨rfl, rfl⟩) .nil))
  have hbefore : FlagWords false beforeWords before := .cons hquiet (.cons .debug .nil)
  have hafter : FlagWords true afterWords after := .cons hfused (.cons .noInteractive .nil)
  have hbeforeOnce : before.Nodup := by decide
  have hafterOnce : after.Nodup := by decide
  have hargs : ∀ arg ∈ args, arg = "-" ∨ arg.toList.head? ≠ some '-' := by decide
  have hwords : Interleaving args afterWords words := .left (.right (.left (.right .nil)))
  have hbehind : FromSeparator behind ["-f", "--help"] := .separator _
  obtain ⟨hread, -⟩ :=
    read_interleaved hbefore hbeforeOnce hafter hafterOnce hargs hwords hbehind
  exact ⟨hbefore, hbeforeOnce, hafter, hafterOnce, hargs, hwords, hbehind, hread⟩

end PlatformAdmin.CommandLine
