import PlatformAdmin.Proofs.ConfigFiles
import PlatformAdmin.Proofs.NamedKeys

/-!
# Keys that a configuration does not know

A configuration file may name the fields of a configuration and, within a target, those of a target.
Any other key there is an error, however it is written and whatever else the file holds, and what is
loaded is valid (`load_strict`).
-/

set_option autoImplicit false

namespace PlatformAdmin.Config

open Toml (Value Entries Statement)

/-- Along these keys there is one that is no field: of a configuration, or of a target in it. -/
inductive IsUnknown : List String → Prop
  | field {key : String} {path : List String} (unknown : key ∉ keys) : IsUnknown (key :: path)
  | targetField {target key : String} {path : List String}
      (isTarget : target = "org" ∨ target = "space") (unknown : key ∉ targetKeys) :
      IsUnknown (target :: key :: path)

/-- No field is set to another value than its default one. -/
def SetsOnlyDefaults (entries : Entries) : Prop :=
  ∀ key v, entries.lookup key = some v → key = "skip_ssl_validation" ∧ v = .boolean false

variable {c : Config} {entries : Entries} {key : String} {v : Value} {named : List String}

/-! ## The fields of a table -/

/-- A key of a table that has known keys only is known. -/
theorem mem_of_hasOnly {known : List String} (h : hasOnly known entries = true)
    (hmem : key ∈ Entries.keys entries) : key ∈ known := by
  obtain ⟨entry, hentry, rfl⟩ := List.mem_map.mp hmem
  exact List.contains_iff_mem.mp (List.all_eq_true.mp h entry hentry)

/-- What is guarded holds where the guard lets through. -/
theorem of_guard {p : Prop} [Decidable p] {u : Unit} (h : guard p = some u) : p := by
  by_contra hp
  simp [guard, hp] at h

/-- What a table holds from which a configuration is read. -/
theorem fields_of_ofEntries? (h : ofEntries? entries = some c) :
    hasOnly keys entries = true ∧
      readKey Value.text? "api_endpoint" entries = some c.apiEndpoint ∧
      readKey Value.text? "access_token" entries = some c.accessToken ∧
      readKey Value.text? "user" entries = some c.user ∧
      (readKey Value.bool? "skip_ssl_validation" entries).map (·.getD false) =
        some c.skipSslValidation ∧
      readKey targetOfValue? "org" entries = some c.org ∧
      readKey targetOfValue? "space" entries = some c.space := by
  rw [ofEntries?] at h
  obtain ⟨_, honly, h⟩ := Option.bind_eq_some_iff.mp h
  obtain ⟨endpoint, hendpoint, h⟩ := Option.bind_eq_some_iff.mp h
  obtain ⟨token, htoken, h⟩ := Option.bind_eq_some_iff.mp h
  obtain ⟨user, huser, h⟩ := Option.bind_eq_some_iff.mp h
  obtain ⟨skip, hskip, h⟩ := Option.bind_eq_some_iff.mp h
  obtain ⟨org, horg, h⟩ := Option.bind_eq_some_iff.mp h
  obtain ⟨space, hspace, h⟩ := Option.bind_eq_some_iff.mp h
  obtain rfl := Option.some.inj h
  exact ⟨of_guard honly, hendpoint, htoken, huser, by rw [hskip]; rfl, horg, hspace⟩

/-- A target that is read from a table has no further keys in it. -/
theorem mem_targetKeys_of_leads {t : Target} {path : List String}
    (h : targetOfValue? v = some t) (hleads : v.Leads (key :: path)) : key ∈ targetKeys := by
  cases hleads with
  | step isTable found leads =>
    cases isTable with
    | single =>
      obtain ⟨_, honly, -⟩ := Option.bind_eq_some_iff.mp h
      exact mem_of_hasOnly (of_guard honly) (Entries.mem_keys_of_lookup found)
    | listed mem => cases h

/-- A key that is led along in a target is one of a target. -/
theorem mem_targetKeys_of_readKey {target? : Option Target} {target : String} {path : List String}
    (h : readKey targetOfValue? target entries = some target?)
    (hleads : entries.Leads (target :: key :: path)) : key ∈ targetKeys := by
  obtain ⟨v, found, leads⟩ := Entries.leads_cons_iff.mp hleads
  rw [readKey, found] at h
  obtain ⟨t, ht, -⟩ := Option.map_eq_some_iff.mp h
  exact mem_targetKeys_of_leads ht leads

/-- No configuration is read from a table with an unknown key in it. -/
theorem not_isUnknown_of_ofEntries? (h : ofEntries? entries = some c)
    (hleads : entries.Leads named) : ¬IsUnknown named := by
  obtain ⟨honly, -, -, -, -, horg, hspace⟩ := fields_of_ofEntries? h
  intro hunknown
  cases hunknown with
  | field unknown => exact unknown (mem_of_hasOnly honly (Entries.mem_keys_of_leads hleads))
  | targetField isTarget unknown =>
    obtain rfl | rfl := isTarget
    · exact unknown (mem_targetKeys_of_readKey horg hleads)
    · exact unknown (mem_targetKeys_of_readKey hspace hleads)

/-! ## The default configuration -/

/-- A key that reads as nothing is not there. -/
theorem lookup_of_readKey_eq_none {α : Type} {read : Value → Option α}
    (h : readKey read key entries = some none) : entries.lookup key = none := by
  rw [readKey] at h
  split at h
  · assumption
  · obtain ⟨a, -, ha⟩ := Option.map_eq_some_iff.mp h
    cases ha

/-- Only a table that sets no field to another value than its default one is read as the default
configuration. -/
theorem ofEntries?_eq_default_iff : ofEntries? entries = some {} ↔ SetsOnlyDefaults entries := by
  constructor
  · intro h key v found
    obtain ⟨honly, hendpoint, htoken, huser, hskip, horg, hspace⟩ := fields_of_ofEntries? h
    have hother : ∀ {α : Type} {read : Value → Option α},
        readKey read key entries ≠ some none := by
      intro α read hread
      rw [lookup_of_readKey_eq_none hread] at found
      cases found
    have hkey : key ∈ keys := mem_of_hasOnly honly (Entries.mem_keys_of_lookup found)
    simp only [keys, List.mem_cons, List.not_mem_nil, or_false] at hkey
    obtain rfl | rfl | rfl | rfl | rfl | rfl := hkey
    · exact absurd hendpoint hother
    · exact absurd htoken hother
    · exact absurd huser hother
    · refine ⟨rfl, ?_⟩
      rw [readKey, found] at hskip
      cases v with
      | boolean b =>
        obtain rfl : b = false := Option.some.inj hskip
        rfl
      | _ => cases hskip
    · exact absurd horg hother
    · exact absurd hspace hother
  · intro h
    have habsent : ∀ key, key ≠ "skip_ssl_validation" → entries.lookup key = none := by
      intro key hkey
      cases found : entries.lookup key with
      | none => rfl
      | some v => exact absurd (h key v found).1 hkey
    have honly : hasOnly keys entries = true := by
      rw [hasOnly, List.all_eq_true]
      intro entry hentry
      rw [List.contains_iff_mem]
      by_cases hkey : entry.1 = "skip_ssl_validation"
      · rw [hkey]
        decide
      · have hne := List.lookup_eq_none_iff.mp (habsent entry.1 hkey) entry hentry
        simp at hne
    have hread : ∀ {α : Type} (read : Value → Option α) key, key ≠ "skip_ssl_validation" →
        readKey read key entries = some none := by
      intro α read key hkey
      rw [readKey, habsent key hkey]
    obtain ⟨skip?, hskip, hfalse⟩ : ∃ skip?,
        readKey Value.bool? "skip_ssl_validation" entries = some skip? ∧
          skip?.getD false = false := by
      rw [readKey]
      cases found : entries.lookup "skip_ssl_validation" with
      | none => exact ⟨none, rfl, rfl⟩
      | some v =>
        obtain ⟨-, rfl⟩ := h _ v found
        exact ⟨some false, rfl, rfl⟩
    simp [ofEntries?, honly, hread, hskip, hfalse]

/-! ## The file -/

/-- A configuration that passes the check has a proper endpoint and named targets. -/
theorem isProper_of_validate (h : c.validate = .ok ()) :
    (∀ endpoint, c.apiEndpoint = some endpoint →
        "http://".toList <+: endpoint.toList ∨ "https://".toList <+: endpoint.toList) ∧
      (∀ org, c.org = some org → org.name ≠ "") ∧
      (∀ space, c.space = some space → space.name ≠ "") := by
  have hname : ∀ {what : String} {target? : Option Target} {u : Unit},
      validateTarget what target? = .ok u → ∀ target, target? = some target → target.name ≠ "" := by
    rintro what - u htarget target rfl hempty
    rw [validateTarget, Target.validate, if_pos hempty] at htarget
    cases htarget
  rw [validate] at h
  cases hscheme : validateEndpoint c.apiEndpoint with
  | error e =>
    rw [hscheme] at h
    cases h
  | ok u =>
    cases horg : validateTarget "org" c.org with
    | error e =>
      rw [hscheme, horg] at h
      cases h
    | ok u =>
      rw [hscheme, horg] at h
      refine ⟨fun endpoint hendpoint => ?_, hname horg, hname h⟩
      rw [hendpoint, validateEndpoint] at hscheme
      split at hscheme
      · rename_i hweb
        simpa [hasWebScheme] using hweb
      · cases hscheme

/-- A configuration is loaded where there is no file, or from a document of the right form that
passes the check. -/
theorem load_eq_ok_iff {path : String} {file : FileState} :
    load path file = .ok c ↔
      file = .absent ∧ c = {} ∨
        ∃ bytes text entries, file = .file bytes ∧ Text.Utf8.decode? bytes = some text ∧
          Toml.Document.read? text = some entries ∧ ofEntries? entries = some c ∧
            c.validate = .ok () := by
  constructor
  · intro h
    cases file with
    | absent => exact .inl ⟨rfl, (Except.ok.inj h).symm⟩
    | directory => cases h
    | unreadable cause => cases h
    | file bytes =>
      rw [load] at h
      split at h
      · cases h
      · rename_i text hdecode
        split at h
        · cases h
        · rename_i config hconfig
          obtain ⟨entries, hread, hentries⟩ := Option.bind_eq_some_iff.mp hconfig
          split at h
          · rename_i hvalid
            obtain rfl := Except.ok.inj h
            exact .inr ⟨bytes, text, entries, rfl, hdecode, hread, hentries, hvalid⟩
          · cases h
  · rintro (⟨rfl, rfl⟩ | ⟨bytes, text, entries, rfl, hdecode, hread, hentries, hvalid⟩)
    · rfl
    · have hconfig : ofText? text = some c := by
        rw [ofText?, hread]
        exact hentries
      simp only [load, hdecode, hconfig, hvalid]

/-- A document with an unknown key in it is refused. -/
theorem load_of_unknown (path : String) {text : String}
    (h : ∀ statements, Statement.readAll text.toList = some statements →
      ∃ named, Statement.Gives statements named ∧ IsUnknown named) :
    ∃ detail, load path (.file (Text.Utf8.encode text)) = .error (.parse path detail) := by
  have hnone : ofText? text = none := by
    rw [ofText?, Option.bind_eq_bind, Option.bind_eq_none_iff]
    intro entries hread
    obtain ⟨statements, hstatements, hbuilt⟩ := Option.bind_eq_some_iff.mp hread
    obtain ⟨named, hgives, hunknown⟩ := h statements hstatements
    have hleads := Toml.Document.leads_of_gives hbuilt hgives
    rw [Option.eq_none_iff_forall_ne_some]
    intro c hc
    exact not_isUnknown_of_ofEntries? hc hleads hunknown
  refine ⟨"it is not a configuration", ?_⟩
  simp only [load, Text.Utf8.decode?_encode, hnone]

/-- An unknown key is an error wherever it stands: in a document that is read, and behind whole
lines whatever follows it.  What is loaded is valid, and it is the default configuration only if
there is no file or the file sets no field to another value. -/
theorem load_strict (path : String) :
    (∀ text statements named, Statement.readAll text.toList = some statements →
        Statement.Gives statements named → IsUnknown named →
          ∃ detail, load path (.file (Text.Utf8.encode text)) = .error (.parse path detail)) ∧
      (∀ before statements w named rest, Toml.WholeLines statements before →
        Toml.WritesKeys (Statement.placeBehind statements) named w → IsUnknown named →
          ∃ detail, load path
              (.file (Text.Utf8.encode (String.ofList (before ++ (w ++ rest))))) =
            .error (.parse path detail)) ∧
      (∀ file c, load path file = .ok c →
        c.validate = .ok () ∧
          (∀ endpoint, c.apiEndpoint = some endpoint →
            "http://".toList <+: endpoint.toList ∨ "https://".toList <+: endpoint.toList) ∧
          (∀ org, c.org = some org → org.name ≠ "") ∧
          (∀ space, c.space = some space → space.name ≠ "")) ∧
      (∀ file, load path file = .ok {} ↔
        file = .absent ∨
          ∃ bytes text entries, file = .file bytes ∧ Text.Utf8.decode? bytes = some text ∧
            Toml.Document.read? text = some entries ∧ SetsOnlyDefaults entries) := by
  have hdefault : validate {} = .ok () := rfl
  refine ⟨?_, ?_, ?_, ?_⟩
  · intro text statements named hread hgives hunknown
    refine load_of_unknown path fun statements' hread' => ?_
    obtain rfl := Option.some.inj (hread.symm.trans hread')
    exact ⟨named, hgives, hunknown⟩
  · intro before statements w named rest hlines hkeys hunknown
    refine load_of_unknown path fun all hread => ?_
    rw [String.toList_ofList] at hread
    exact ⟨named, Statement.gives_of_writesKeys hlines hkeys hread, hunknown⟩
  · intro file c h
    have hvalid : c.validate = .ok () := by
      obtain ⟨-, rfl⟩ | ⟨_, _, _, -, -, -, -, hvalid⟩ := load_eq_ok_iff.mp h
      · exact hdefault
      · exact hvalid
    exact ⟨hvalid, isProper_of_validate hvalid⟩
  · intro file
    rw [load_eq_ok_iff]
    simp only [ofEntries?_eq_default_iff, hdefault, and_true]

/-- A quoted key that differs from a field by its case, a key with dots within braces behind a pair
that holds a brace, and files with an endpoint and with nothing but a default. -/
theorem load_strict_quoted :
    let text := "[org]\n\"Name\" = \"o\""
    let statements : List Statement := [.header ["org"], .assign ["Name"] (.string "o")]
    let before := "\uFEFF# mine\r\n".toList
    let w := "space = \x7b name = \"\x7d,\", \"id\" . user =".toList
    let rest := " [1,\n2] \x7d\nuser".toList
    let endpoint := "api_endpoint = 'http://h'"
    let default := "skip_ssl_validation = false"
    (Statement.readAll text.toList = some statements ∧
        Statement.Gives statements ["org", "Name"] ∧ IsUnknown ["org", "Name"] ∧
        ∃ detail, load "c" (.file (Text.Utf8.encode text)) = .error (.parse "c" detail)) ∧
      (Toml.WholeLines [] before ∧ Toml.WritesKeys [] ["space", "id", "user"] w ∧
        IsUnknown ["space", "id", "user"] ∧
        ∃ detail, load "c" (.file (Text.Utf8.encode (String.ofList (before ++ (w ++ rest))))) =
          .error (.parse "c" detail)) ∧
      (load "c" (.file (Text.Utf8.encode endpoint)) = .ok { apiEndpoint := some "http://h" } ∧
        validate { apiEndpoint := some "http://h" } = .ok ()) ∧
      load "c" (.file (Text.Utf8.encode default)) = .ok {} := by
  intro text statements before w rest endpoint default
  obtain ⟨hread, hbegun, hvalid, hdefault⟩ := load_strict "c"
  have hnil : Toml.Blanks [] := by decide
  have hblank : Toml.Blanks [' '] := by decide
  have hstatements : Statement.readAll text.toList = some statements := by
    simp only [text, String.reduceToList]
    rfl
  have hgives : Statement.Gives statements ["org", "Name"] :=
    ⟨[.header ["org"]], .assign ["Name"] (.string "o"), [], rfl,
      (.assign .here : Statement.Names ["org"] _ (["org"] ++ (["Name"] ++ [])))⟩
  have hName : IsUnknown ["org", "Name"] := .targetField (.inl rfl) (by decide)
  have hcomment : Statement.readAll "\uFEFF# mine".toList = some [] := by
    simp only [String.reduceToList]
    rfl
  have hlines : Toml.WholeLines [] before := .ended hcomment (by decide) .both
  have hpair : Statement.pair (Statement.value (Toml.maxDepth - 1))
      (Statement.unifyLines " name = \"\x7d,\"".toList) =
        some ((["name"], .string "\x7d,"), []) := by
    simp only [String.reduceToList]
    rfl
  have hpairs : Toml.WholePairs " name = \"\x7d,\",".toList := .cons hpair hnil .none
  have hspace : Toml.PathText ["space"] ([] ++ ("space".toList ++ [' '])) :=
    .last hnil (keyText_of_mem (by decide)) hblank
  have huser : Toml.PathText ["user"] ([' '] ++ ("user".toList ++ [' '])) :=
    .last hblank (keyText_of_mem (by decide)) hblank
  have hquoted : Toml.KeyText "id" ('\x22' :: ("id".toList ++ ['\x22'])) :=
    .basic (.quoted (.of_plain (by decide) (by decide) (by decide)))
  have hw : Toml.WritesKeys [] ["space", "id", "user"] w := by
    obtain ⟨w', heq, hbraces⟩ : ∃ w', w' = w ∧
        Toml.WritesKeys [] ([] ++ (["space"] ++ ["id", "user"])) w' :=
      ⟨_, by decide +kernel, .braces hspace hblank hpairs (.cons hblank hquoted hblank huser)⟩
    rw [← heq]
    exact hbraces
  have hid : IsUnknown ["space", "id", "user"] := .targetField (.inr rfl) (by decide)
  have hentry : Toml.Document.read? endpoint = some [("api_endpoint", .string "http://h")] := by
    rw [Toml.Document.read?]
    simp only [endpoint, String.reduceToList]
    rfl
  have hproper : validate { apiEndpoint := some "http://h" } = .ok () := by
    refine validate_eq_ok ?_ ?_ ?_
    · rintro endpoint ⟨⟩
      exact .inl (by decide)
    · rintro org ⟨⟩
    · rintro space ⟨⟩
  have hendpoint : load "c" (.file (Text.Utf8.encode endpoint)) =
      .ok { apiEndpoint := some "http://h" } :=
    load_eq_ok_iff.mpr (.inr ⟨_, endpoint, _, rfl, Text.Utf8.decode?_encode endpoint, hentry, rfl,
      hproper⟩)
  have hskip : Toml.Document.read? default = some [("skip_ssl_validation", .boolean false)] := by
    rw [Toml.Document.read?]
    simp only [default, String.reduceToList]
    rfl
  have hloaded : load "c" (.file (Text.Utf8.encode default)) = .ok {} := by
    refine (hdefault _).mpr
      (.inr ⟨_, default, _, rfl, Text.Utf8.decode?_encode default, hskip, ?_⟩)
    intro key v found
    have hkey : key = "skip_ssl_validation" := by
      simpa [Entries.keys] using Entries.mem_keys_of_lookup found
    subst hkey
    exact ⟨rfl, (Option.some.inj found).symm⟩
  exact ⟨⟨hstatements, hgives, hName, hread text statements _ hstatements hgives hName⟩,
    ⟨hlines, hw, hid, hbegun before [] w _ rest hlines hw hid⟩,
    ⟨hendpoint, (hvalid _ _ hendpoint).1⟩, hloaded⟩

end PlatformAdmin.Config
