import PlatformAdmin.Http.ScriptedServer
import PlatformAdmin.Program
import PlatformAdmin.Proofs.Roles
import PlatformAdmin.Proofs.Traffic

/-!
# Where flags may stand

Some flags belong to no command in particular.  `read_flags_placed` says what becomes of them in
each of three places: before the command, between the command and its arguments, and behind the
arguments.  In the first two places they count for both commands.  Behind the arguments they count
for `delete-user` only; for `update-service-broker` they are arguments themselves, so that one flag
behind a broker's name, a username and a URL makes the URL a password and the flag a URL.
-/

set_option autoImplicit false

namespace PlatformAdmin.CommandLine

variable {place : Place} {word : String} {given flags : List Flag}

/-- A word for a flag that belongs to no command in particular. -/
inductive CommonFlag : String → Flag → Prop
  | debug : CommonFlag "--debug" .debug
  | quiet : CommonFlag "--quiet" .quiet
  | quietLetter : CommonFlag "-q" .quiet
  | noInteractive : CommonFlag "--no-interactive" .noInteractive

/-- The command line on which exactly these flags are given. -/
def withFlags (flags : List Flag) (command : CommandName) (args : List String) : CommandLine where
  debug := Flag.debug ∈ flags
  quiet := Flag.quiet ∈ flags
  noInteractive := Flag.noInteractive ∈ flags
  command := command
  args := args

/-- A word for a flag of all commands spells that flag alone. -/
theorem CommonFlag.flagWord {flag : Flag} (h : CommonFlag word flag) (canForce : Bool) :
    FlagWord canForce word [flag] := by
  cases h with
  | debug => exact .debug
  | quiet => exact .quiet
  | quietLetter => exact .letters rfl (List.cons_ne_nil _ _) (.cons (.inl ⟨rfl, rfl⟩) .nil)
  | noInteractive => exact .noInteractive

/-- Such words spell flags at every place. -/
theorem FlagWords.of_commonFlags {words : List String}
    (hwords : List.Forall₂ CommonFlag words flags) (canForce : Bool) :
    FlagWords canForce words flags := by
  induction hwords with
  | nil => exact .nil
  | cons hword _ ih => exact .cons (hword.flagWord canForce) ih

/-! ## Words without a dash -/

/-- A word that does not begin with a dash is plain. -/
theorem WordForm.of_eq_plain (h : word.toList.head? ≠ some '-') : of word = .plain := by
  unfold of
  split <;> rename_i hword
  case h_5 => rfl
  all_goals simp [hword] at h

/-- No place takes a plain word for flags. -/
theorem not_claims_of_plain (h : WordForm.of word = .plain) : ¬place.Claims word := by
  rintro (hform | ⟨hform, -⟩ | ⟨hform, -⟩) <;> rw [h] at hform <;> cases hform

/-- Plain words in front of what was read are arguments in front. -/
theorem Mixed.of_args {args : List String} {words : List (Option String)} {tail : Tail}
    (hplain : ∀ arg ∈ args, WordForm.of arg = .plain) (h : Mixed place given words tail) :
    Mixed place given (args.map some ++ words) { tail with args := args ++ tail.args } := by
  induction args with
  | nil => exact h
  | cons arg args ih =>
    rw [List.forall_mem_cons] at hplain
    exact .arg hplain.1 (ih hplain.2)

/-! ## The three places -/

section

variable {command : CommandName} {args words : List String}

/-- Plain words alone are read as arguments. -/
theorem readTail_args (hargs : args ≠ []) (hplain : ∀ arg ∈ args, WordForm.of arg = .plain) :
    readTail command (args.map some) = .ok { args } := by
  cases command with
  | deleteUser =>
    have hnil : Mixed (.after .deleteUser) [] [] {} := .nil
    refine readMixed_eq_ok_iff.mpr ?_
    simpa using Mixed.of_args hplain hnil
  | updateServiceBroker =>
    refine readLeading_eq_ok_iff.mpr ?_
    cases args with
    | nil => exact absurd rfl hargs
    | cons arg args => exact .args (not_claims_of_plain (hplain arg List.mem_cons_self))

/-- Right behind the command, flags are flags. -/
theorem readTail_flags_args (hargs : args ≠ [])
    (hplain : ∀ arg ∈ args, WordForm.of arg = .plain)
    (hwords : List.Forall₂ CommonFlag words flags) (honce : flags.Nodup) :
    readTail command (words.map some ++ args.map some) = .ok { given := flags, args } := by
  cases command with
  | deleteUser =>
    have hnil : Mixed (.after .deleteUser) flags [] { given := flags } := .nil
    have hrest : Mixed (.after .deleteUser) flags (args.map some) { given := flags, args } := by
      simpa using Mixed.of_args hplain hnil
    refine readMixed_eq_ok_iff.mpr ?_
    exact precede_of_flagWords (fun given words => Mixed _ given words _)
      .flags (.of_commonFlags hwords _) honce hrest
  | updateServiceBroker =>
    refine readLeading_eq_ok_iff.mpr ?_
    cases args with
    | nil => exact absurd rfl hargs
    | cons arg args =>
      exact precede_of_flagWords (fun given words => Leading _ given words _)
        .flags (.of_commonFlags hwords _) honce
        (.args (not_claims_of_plain (hplain arg List.mem_cons_self)))

/-- Behind the arguments of `delete-user` they are, too. -/
theorem readTail_deleteUser_args_flags (hplain : ∀ arg ∈ args, WordForm.of arg = .plain)
    (hwords : List.Forall₂ CommonFlag words flags) (honce : flags.Nodup) :
    readTail .deleteUser (args.map some ++ words.map some) = .ok { given := flags, args } := by
  have hflags : Mixed (.after .deleteUser) [] (words.map some ++ []) { given := flags } :=
    precede_of_flagWords (fun given words => Mixed _ given words _)
      .flags (.of_commonFlags hwords _) honce .nil
  rw [List.append_nil] at hflags
  refine readMixed_eq_ok_iff.mpr ?_
  simpa using Mixed.of_args hplain hflags

/-- Behind those of `update-service-broker` they are arguments. -/
theorem readTail_updateServiceBroker_args_flags (hargs : args ≠ [])
    (hplain : ∀ arg ∈ args, WordForm.of arg = .plain) (words : List String) :
    readTail .updateServiceBroker (args.map some ++ words.map some) =
      .ok { args := args ++ words } := by
  refine readLeading_eq_ok_iff.mpr ?_
  cases args with
  | nil => exact absurd rfl hargs
  | cons arg args =>
    have hclaims : ¬(Place.after .updateServiceBroker).Claims arg :=
      not_claims_of_plain (hplain arg List.mem_cons_self)
    rw [List.map_cons, List.cons_append, ← List.map_append]
    exact .args hclaims

/-- What follows the word of a command is read as the tail of that command. -/
theorem read_command {words : List (Option String)} {tail : Tail}
    (h : readTail command words = .ok tail) :
    read (some command.word :: words) = .ok (ofParts [] command tail) :=
  readFrom_eq_ok_iff.mpr (.command h)

/-- Flags make the same command line on either side of the command, if none of them forces. -/
theorem ofParts_eq_withFlags {before : List Flag} {tail : Tail}
    (hforce : Flag.force ∉ before ++ tail.given) :
    ofParts before command tail = withFlags (before ++ tail.given) command tail.args := by
  rw [List.mem_append] at hforce
  simp [ofParts, withFlags, hforce]

/-- None of the flags of all commands forces. -/
theorem force_not_mem_of_commonFlags (hwords : List.Forall₂ CommonFlag words flags) :
    Flag.force ∉ flags := by
  have hunforced : FlagWords (Place.beforeCommand.knows .force) words flags :=
    .of_commonFlags hwords _
  exact fun hmem => Bool.false_ne_true (hunforced.knows _ hmem)

/-- Flags that belong to no command in particular count before every command and right behind it.
Behind the arguments they count for `delete-user`, and are arguments of
`update-service-broker`. -/
theorem read_flags_placed (hargs : args ≠ [])
    (hplain : ∀ arg ∈ args, arg.toList.head? ≠ some '-')
    (hwords : List.Forall₂ CommonFlag words flags) (honce : flags.Nodup) :
    read ((words ++ command.word :: args).map some) = .ok (withFlags flags command args) ∧
      read ((command.word :: words ++ args).map some) = .ok (withFlags flags command args) ∧
      read ((command.word :: args ++ words).map some) = .ok
        (match command with
        | .deleteUser => withFlags flags .deleteUser args
        | .updateServiceBroker => withFlags [] .updateServiceBroker (args ++ words)) ∧
      ∀ name username url word, args = [name, username, url] → words = [word] →
        UpdateServiceBroker.Arguments.ofInvocation
          (withFlags [] .updateServiceBroker (args ++ words)).invocation =
            { name, username, password := some url, url := word } := by
  have hforms : ∀ arg ∈ args, WordForm.of arg = .plain :=
    fun arg harg => WordForm.of_eq_plain (hplain arg harg)
  have hforce := force_not_mem_of_commonFlags hwords
  refine ⟨?_, ?_, ?_, ?_⟩
  · have hline : Line flags (some command.word :: args.map some)
        (ofParts flags command { args }) := .command (readTail_args hargs hforms)
    have hread : Line [] (words.map some ++ some command.word :: args.map some)
        (ofParts flags command { args }) :=
      precede_of_flagWords (fun given words => Line given words _)
        .flags (.of_commonFlags hwords _) honce hline
    have hparts : ofParts flags command { args } = withFlags flags command args := by
      rw [ofParts_eq_withFlags (by simpa using hforce), List.append_nil]
    rw [List.map_append, List.map_cons, ← hparts]
    exact readFrom_eq_ok_iff.mpr hread
  · have htail : readTail command (words.map some ++ args.map some) =
        .ok { given := flags, args } := readTail_flags_args hargs hforms hwords honce
    rw [List.cons_append, List.map_cons, List.map_append, read_command htail,
      ofParts_eq_withFlags (by simpa using hforce), List.nil_append]
  · rw [List.cons_append, List.map_cons, List.map_append]
    cases command with
    | deleteUser =>
      have htail := readTail_deleteUser_args_flags hforms hwords honce
      rw [read_command htail, ofParts_eq_withFlags (by simpa using hforce), List.nil_append]
    | updateServiceBroker =>
      have htail := readTail_updateServiceBroker_args_flags hargs hforms words
      rw [read_command htail, ofParts_eq_withFlags List.not_mem_nil]
      rfl
  · rintro name username url word rfl rfl
    cases hwords with
    | cons hword _ => cases hword <;> rfl

end

/-- Two flags and a user whose name is empty. -/
theorem read_flags_placed_deletion :
    let args := [""]
    let words := ["--no-interactive", "-q"]
    let flags := [Flag.noInteractive, .quiet]
    args ≠ [] ∧ (∀ arg ∈ args, arg.toList.head? ≠ some '-') ∧
      List.Forall₂ CommonFlag words flags ∧ flags.Nodup ∧
      read ((words ++ "delete-user" :: args).map some) =
        .ok (withFlags flags .deleteUser args) ∧
      read (("delete-user" :: args ++ words).map some) =
        .ok (withFlags flags .deleteUser args) := by
  intro args words flags
  have hargs : args ≠ [] := by decide
  have hplain : ∀ arg ∈ args, arg.toList.head? ≠ some '-' := by decide
  have hwords : List.Forall₂ CommonFlag words flags :=
    .cons .noInteractive (.cons .quietLetter .nil)
  have honce : flags.Nodup := by decide
  obtain ⟨hbefore, -, hbehind, -⟩ :=
    @read_flags_placed flags .deleteUser args words hargs hplain hwords honce
  exact ⟨hargs, hplain, hwords, honce, hbefore, hbehind⟩

/-- Behind a broker's name, a username and a URL, a flag does not come to what it comes to before
the command: the URL is sent as the password, and the flag as the URL. -/
theorem read_flags_placed_astray :
    let before := ["--quiet", "update-service-broker", "n", "u", "https://b"].map some
    let behind := ["update-service-broker", "n", "u", "https://b", "--quiet"].map some
    let listing := "\x7b\"resources\":[\x7b\"guid\":\"g\",\"name\":\"n\"\x7d]\x7d"
    let server : Http.ScriptedServer :=
      { authority := "h"
        script := [{ body := Text.Utf8.encode listing }, {}] }
    let w : Surroundings :=
      { env := .ofList [(Config.homeVariable, "/home/cf"), ("CF_BROKER_PASSWORD", "secret")]
        configFile := .file
          (Text.Utf8.encode "api_endpoint = \"http://h\"\naccess_token = \"t\"\nuser = \"a\"") }
    let bodies := fun words =>
      (Program.run (Http.Network.logged Http.ScriptedServer.network) words w []
        (server, [])).remote.2.map (·.1.body)
    let settings := fun password url =>
      (PlatformClient.updateBody { username := "u", password := ⟨password⟩, url }).compact
    read before = .ok { quiet := true, command := .updateServiceBroker
                        args := ["n", "u", "https://b"] } ∧
      read behind = .ok { quiet := false, command := .updateServiceBroker
                          args := ["n", "u", "https://b", "--quiet"] } ∧
      bodies before = [none, some (settings "secret" "https://b")] ∧
      bodies behind = [none, some (settings "https://b" "--quiet")] := by
  refine ⟨by decide, by decide, ?_, ?_⟩
  · decide +kernel
  · decide +kernel

end PlatformAdmin.CommandLine
