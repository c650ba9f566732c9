import PlatformAdmin.Config.File
import PlatformAdmin.Proofs.Decoding
import PlatformAdmin.Proofs.WrittenDocuments

/-!
# Configurations that were written to a file

A configuration may be written in many ways: its fields in any order, a target within braces or
under a header, and the document in any of the forms that `Toml.DocumentText` lists.
`Config.WrittenAs` says so, and `Config.load_writtenAs` that each of these files is loaded as the
configuration that was written.

A table is described by its fields, of which some may be left out (`Toml.Entries.given`).  In any
order of them a look-up finds a field if it is given, and nothing if not
(`Toml.Entries.lookup_given`); what the readers of targets and configurations do follows from that
alone.
-/

set_option autoImplicit false

namespace PlatformAdmin

namespace Toml.Entries

/-! ## Tables with fields that may be left out -/

/-- The entries of the fields that are given. -/
def given (fields : List (String × Option Value)) : Entries :=
  fields.filterMap fun field => field.2.map fun v => (field.1, v)

variable {fields : List (String × Option Value)} {entries : Entries} {key : String} {v : Value}

/-- The entries that are given are those of the fields that have a value. -/
theorem mem_given_iff : (key, v) ∈ given fields ↔ (key, some v) ∈ fields := by
  simp only [given, List.mem_filterMap, Option.map_eq_some_iff, Prod.mk.injEq]
  constructor
  · rintro ⟨⟨key, v?⟩, hfield, v, rfl, rfl, rfl⟩
    exact hfield
  · intro hfield
    exact ⟨(key, some v), hfield, v, rfl, rfl, rfl⟩

/-- The keys that are given are keys of the fields, in their order. -/
theorem keys_given_sublist (fields : List (String × Option Value)) :
    (keys (given fields)).Sublist (fields.map (·.1)) := by
  induction fields with
  | nil => exact .slnil
  | cons field fields ih =>
    obtain ⟨key, v?⟩ := field
    cases v? with
    | none => exact ih.cons key
    | some v => exact ih.cons_cons key

/-- Entries in another order have their keys in another order. -/
theorem keys_perm {entries' : Entries} (h : entries.Perm entries') :
    (keys entries).Perm (keys entries') :=
  h.map Prod.fst

/-- Fields with keys of their own make a table without repeated keys. -/
theorem nodup_keys_given (horder : entries.Perm (given fields))
    (hkeys : (fields.map (·.1)).Nodup) : (keys entries).Nodup :=
  (keys_perm horder).nodup_iff.mpr (hkeys.sublist (keys_given_sublist fields))

/-- In whatever order the fields are given, a look-up finds what is given for its key. -/
theorem lookup_given {v? : Option Value} (horder : entries.Perm (given fields))
    (hkeys : (fields.map (·.1)).Nodup) (hfield : (key, v?) ∈ fields) :
    entries.lookup key = v? := by
  cases v? with
  | some v =>
    have hmem : (key, v) ∈ entries := horder.mem_iff.mpr (mem_given_iff.mpr hfield)
    exact lookup_of_mem (nodup_keys_given horder hkeys) hmem
  | none =>
    refine lookup_of_not_mem fun hmem => ?_
    obtain ⟨⟨key, v⟩, hentry, rfl⟩ := List.mem_map.mp hmem
    have hfield' : (key, some v) ∈ fields := mem_given_iff.mp (horder.mem_iff.mp hentry)
    have hsame := List.inj_on_of_nodup_map hkeys hfield hfield' rfl
    cases hsame

/-- Given entries have no keys but those of the fields. -/
theorem hasOnly_given (horder : entries.Perm (given fields)) :
    Config.hasOnly (fields.map (·.1)) entries = true := by
  rw [Config.hasOnly, List.all_eq_true]
  intro entry hentry
  rw [List.contains_iff_mem]
  exact (keys_given_sublist fields).subset
    ((keys_perm horder).mem_iff.mp (List.mem_map_of_mem hentry))

end Toml.Entries

open Toml (Value Entries)
open Toml.Entries (given)

/-! ## Ways to write a configuration -/

/-- A field with this value is given, or left out if the value is the default one. -/
inductive LeftOutIf (isDefault : Prop) (v : Value) : Option Value → Prop
  | given : LeftOutIf isDefault v (some v)
  | leftOut (default : isDefault) : LeftOutIf isDefault v none

/-- These entries are the fields of a target, in any order. -/
inductive Target.InEntries (t : Target) (entries : Entries) : Prop
  | fields {guid : Option Value} (guidField : LeftOutIf (t.guid = "") (.string t.guid) guid)
      (order : entries.Perm (given [("name", some (.string t.name)), ("guid", guid)]))

/-- A target is given as a table, and no target is left out. -/
inductive TargetField : Option Target → Option Value → Prop
  | absent : TargetField none none
  | table {t : Target} {origin : Toml.Origin} {entries : Entries}
      (inEntries : t.InEntries entries) : TargetField (some t) (some (.table origin entries))

namespace Config

/-- The fields of a configuration, with these values for the ones that are not texts. -/
def fields (c : Config) (skip org space : Option Value) : List (String × Option Value) :=
  [("api_endpoint", c.apiEndpoint.map .string),
    ("access_token", c.accessToken.map .string),
    ("user", c.user.map .string),
    ("skip_ssl_validation", skip),
    ("org", org),
    ("space", space)]

/-- These entries are the fields of a configuration, in any order. -/
inductive InEntries (c : Config) (entries : Entries) : Prop
  | fields {skip org space : Option Value}
      (skipField : LeftOutIf (c.skipSslValidation = false) (.boolean c.skipSslValidation) skip)
      (orgField : TargetField c.org org) (spaceField : TargetField c.space space)
      (order : entries.Perm (given (c.fields skip org space)))

/-- A text is a document with the fields of a configuration: some of them on lines of their own, and
after these the others under headers. -/
inductive WrittenAs (c : Config) (text : String) : Prop
  | document {top : Entries} {sections : List (String × Entries)}
      (inEntries : c.InEntries (top ++ Toml.Document.tablesOf sections))
      (documentText : Toml.DocumentText (Toml.Document.layout top sections) text.toList)

/-- No key of a configuration stands for two fields. -/
theorem keys_fields_nodup (c : Config) (skip org space : Option Value) :
    ((c.fields skip org space).map (·.1)).Nodup := by
  have hkeys : keys.Nodup := by decide
  exact hkeys

/-- What a configuration has in its file is a text, or one of the three values that are given. -/
theorem mem_fields {c : Config} {skip org space : Option Value} {key : String} {v : Value}
    (h : (key, some v) ∈ c.fields skip org space) :
    key ∈ keys ∧ ((∃ s, v = .string s) ∨ skip = some v ∨ org = some v ∨ space = some v) := by
  have htext : ∀ s? : Option String, some v = s?.map Value.string → ∃ s, v = .string s := by
    intro s? hs
    obtain ⟨s, -, rfl⟩ := Option.map_eq_some_iff.mp hs.symm
    exact ⟨s, rfl⟩
  refine ⟨List.mem_map_of_mem (f := Prod.fst) h, ?_⟩
  simp only [fields, List.mem_cons, Prod.mk.injEq, List.not_mem_nil, or_false] at h
  obtain ⟨-, heq⟩ | ⟨-, heq⟩ | ⟨-, heq⟩ | ⟨-, heq⟩ | ⟨-, heq⟩ | ⟨-, heq⟩ := h
  · exact .inl (htext _ heq)
  · exact .inl (htext _ heq)
  · exact .inl (htext _ heq)
  · exact .inr (.inl heq.symm)
  · exact .inr (.inr (.inl heq.symm))
  · exact .inr (.inr (.inr heq.symm))

/-! ## Every configuration can be written -/

/-- The keys of a configuration can be written bare. -/
theorem keyText_of_mem {key : String} (h : key ∈ keys ++ targetKeys) :
    Toml.KeyText key key.toList := by
  have hbare : ∀ key ∈ keys ++ targetKeys, key ≠ "" ∧
      key.toList.all Toml.Statement.isBareKeyChar = true := by decide
  refine .bare (hbare key h).1 fun c hc => ?_
  exact Toml.isBareKeyChar_iff.mp (List.all_eq_true.mp (hbare key h).2 c hc)

end Config

namespace Target

/-- A target within braces. -/
def inBraces (t : Target) : Value :=
  .table .braces [("name", .string t.name), ("guid", .string t.guid)]

/-- A target in braces is a way to write a target. -/
theorem targetField_inBraces (target : Option Target) :
    TargetField target (target.map inBraces) := by
  cases target with
  | none => exact .absent
  | some t => exact .table (.fields .given (.refl _))

/-- A target can be written in braces. -/
theorem exists_valueText_inBraces (t : Target) : ∃ w, Toml.ValueText t.inBraces w := by
  have hdistinct : Config.targetKeys.Nodup := by decide
  have hpair : ∀ key ∈ Config.targetKeys, ∀ s,
      ∃ w, Toml.PairText Toml.ScalarText (key, .string s) w := by
    intro key hkey s
    obtain ⟨w, scalarText⟩ := Toml.exists_scalarText_string s
    exact ⟨_, .of_value (Config.keyText_of_mem (List.mem_append_right _ hkey)) scalarText⟩
  have hpairs : ∀ p ∈ [("name", Value.string t.name), ("guid", Value.string t.guid)],
      ∃ w, Toml.PairText Toml.ScalarText p w := by
    rw [List.forall_mem_cons, List.forall_mem_singleton]
    exact ⟨hpair "name" (by decide) t.name, hpair "guid" (by decide) t.guid⟩
  obtain ⟨w, pairsText⟩ := Toml.exists_pairsText (List.cons_ne_nil _ _) hpairs
  exact ⟨_, .braces pairsText hdistinct⟩

end Target

namespace Config

/-- The entries of a configuration with all fields that are present, and with targets in braces. -/
def entries (c : Config) : Entries :=
  given (c.fields (some (.boolean c.skipSslValidation)) (c.org.map Target.inBraces)
    (c.space.map Target.inBraces))

/-- Whatever a configuration has in its file can be written. -/
theorem exists_valueText_of_mem_entries {c : Config} {key : String} {v : Value}
    (h : (key, v) ∈ c.entries) : key ∈ keys ∧ ∃ w, Toml.ValueText v w := by
  have htarget : ∀ target : Option Target, target.map Target.inBraces = some v →
      ∃ w, Toml.ValueText v w := by
    intro target hv
    obtain ⟨t, -, rfl⟩ := Option.map_eq_some_iff.mp hv
    exact t.exists_valueText_inBraces
  obtain ⟨hkey, hv⟩ := mem_fields (Entries.mem_given_iff.mp h)
  refine ⟨hkey, ?_⟩
  obtain ⟨s, rfl⟩ | hskip | horg | hspace := hv
  · obtain ⟨w, scalarText⟩ := Toml.exists_scalarText_string s
    exact ⟨w, .scalar scalarText⟩
  · obtain rfl := Option.some.inj hskip
    obtain ⟨w, scalarText⟩ := Toml.exists_scalarText_boolean c.skipSslValidation
    exact ⟨w, .scalar scalarText⟩
  · exact htarget c.org horg
  · exact htarget c.space hspace

/-- There is a way to write every configuration. -/
theorem exists_writtenAs (c : Config) : ∃ text, c.WrittenAs text := by
  have hpairs : ∀ p ∈ c.entries, ∃ w, Toml.PairText Toml.ValueText p w := by
    intro p hp
    obtain ⟨hkey, w, valueText⟩ := exists_valueText_of_mem_entries hp
    exact ⟨_, .of_value (keyText_of_mem (List.mem_append_left targetKeys hkey)) valueText⟩
  have hentries : c.InEntries (c.entries ++ Toml.Document.tablesOf []) := by
    refine .fields .given (Target.targetField_inBraces c.org)
      (Target.targetField_inBraces c.space) ?_
    simp [entries, Toml.Document.tablesOf]
  obtain ⟨w, documentText⟩ := Toml.exists_documentText hpairs
  refine ⟨String.ofList w, .document hentries ?_⟩
  rw [String.toList_ofList]
  exact documentText

/-! ## What is read -/

/-- A field of the file reads as its value, if it has one, and as nothing else. -/
theorem readKey_given {α : Type} {read : Value → Option α} {key : String} {v? : Option Value}
    {x? : Option α} {fields : List (String × Option Value)} {entries : Entries}
    (horder : entries.Perm (given fields)) (hkeys : (fields.map (·.1)).Nodup)
    (hfield : (key, v?) ∈ fields) (hread : v?.map read = x?.map some) :
    readKey read key entries = some x? := by
  rw [readKey, Entries.lookup_given horder hkeys hfield]
  cases v? with
  | none =>
    cases x? with
    | none => rfl
    | some x => cases hread
  | some v =>
    cases x? with
    | none => cases hread
    | some x =>
      have hv : read v = some x := Option.some.inj hread
      simp [hv]

/-- A text of the file reads as itself. -/
theorem readKey_text {key : String} {s? : Option String} {fields : List (String × Option Value)}
    {entries : Entries} (horder : entries.Perm (given fields)) (hkeys : (fields.map (·.1)).Nodup)
    (hfield : (key, s?.map Value.string) ∈ fields) :
    readKey Value.text? key entries = some s? := by
  refine readKey_given horder hkeys hfield ?_
  cases s? <;> rfl

/-- What is read for a field that may be left out, up to the default. -/
theorem exists_read_of_leftOutIf {α : Type} {read : Value → Option α} {x default : α} {v : Value}
    {v? : Option Value} (h : LeftOutIf (x = default) v v?) (hread : read v = some x) :
    ∃ x? : Option α, v?.map read = x?.map some ∧ x?.getD default = x := by
  cases h with
  | given => exact ⟨some x, by simp [hread], rfl⟩
  | leftOut hdefault => exact ⟨none, rfl, hdefault.symm⟩

/-- The entries of a target read as the target, wherever the table came from. -/
theorem targetOfValue?_of_inEntries {t : Target} {entries : Entries} (h : t.InEntries entries)
    (origin : Toml.Origin) : targetOfValue? (.table origin entries) = some t := by
  obtain @⟨guid, guidField, order⟩ := h
  have hkeys : (["name", "guid"]).Nodup := by decide
  have honly : hasOnly targetKeys entries = true := Entries.hasOnly_given order
  have hname : readKey Value.text? "name" entries = some (some t.name) :=
    readKey_text order hkeys (by simp)
  have htext : Value.text? (.string t.guid) = some t.guid := rfl
  obtain ⟨guid?, hread, hdefault⟩ := exists_read_of_leftOutIf guidField htext
  have hguid : readKey Value.text? "guid" entries = some guid? :=
    readKey_given order hkeys (by simp) hread
  simp [targetOfValue?, targetOfFields, honly, hname, hguid, hdefault]

/-- However a target is written, it reads as itself. -/
theorem read_of_targetField {target : Option Target} {v? : Option Value}
    (h : TargetField target v?) : v?.map targetOfValue? = target.map some := by
  cases h with
  | absent => rfl
  | table inEntries => exact congrArg some (targetOfValue?_of_inEntries inEntries _)

/-- A configuration is read from its fields. -/
theorem ofEntries?_of_inEntries {c : Config} {entries : Entries} (h : c.InEntries entries) :
    ofEntries? entries = some c := by
  obtain @⟨skip, org, space, skipField, orgField, spaceField, order⟩ := h
  have hkeys := keys_fields_nodup c skip org space
  have honly : hasOnly keys entries = true := Entries.hasOnly_given order
  have hendpoint : readKey Value.text? "api_endpoint" entries = some c.apiEndpoint :=
    readKey_text order hkeys (by simp [fields])
  have htoken : readKey Value.text? "access_token" entries = some c.accessToken :=
    readKey_text order hkeys (by simp [fields])
  have huser : readKey Value.text? "user" entries = some c.user :=
    readKey_text order hkeys (by simp [fields])
  have htruth : Value.bool? (.boolean c.skipSslValidation) = some c.skipSslValidation := rfl
  obtain ⟨skip?, hread, hdefault⟩ := exists_read_of_leftOutIf skipField htruth
  have hskip : readKey Value.bool? "skip_ssl_validation" entries = some skip? :=
    readKey_given order hkeys (by simp [fields]) hread
  have horg : readKey targetOfValue? "org" entries = some c.org :=
    readKey_given order hkeys (by simp [fields]) (read_of_targetField orgField)
  have hspace : readKey targetOfValue? "space" entries = some c.space :=
    readKey_given order hkeys (by simp [fields]) (read_of_targetField spaceField)
  simp [ofEntries?, honly, hendpoint, htoken, huser, hskip, horg, hspace, hdefault]

/-! ## The tables of a written configuration -/

/-- A target has no key twice. -/
theorem nodup_keys_of_targetField {target : Option Target} {origin : Toml.Origin}
    {entries : Entries} (h : TargetField target (some (.table origin entries))) :
    (Entries.keys entries).Nodup := by
  obtain _ | ⟨⟨_, order⟩⟩ := h
  have hkeys : targetKeys.Nodup := by decide
  exact Entries.nodup_keys_given order hkeys

/-- A configuration has no key twice. -/
theorem nodup_keys_of_inEntries {c : Config} {entries : Entries} (h : c.InEntries entries) :
    (Entries.keys entries).Nodup := by
  obtain ⟨_, _, _, order⟩ := h
  exact Entries.nodup_keys_given order (keys_fields_nodup c _ _ _)

/-- The only tables among the fields are targets. -/
theorem nodup_keys_of_table {c : Config} {entries below : Entries} {key : String}
    {origin : Toml.Origin} (h : c.InEntries entries)
    (htable : (key, Value.table origin below) ∈ entries) : (Entries.keys below).Nodup := by
  obtain @⟨skip, org, space, skipField, orgField, spaceField, order⟩ := h
  obtain ⟨-, hv⟩ := mem_fields (Entries.mem_given_iff.mp (order.mem_iff.mp htable))
  obtain ⟨s, hs⟩ | rfl | rfl | rfl := hv
  · cases hs
  · cases skipField
  · exact nodup_keys_of_targetField orgField
  · exact nodup_keys_of_targetField spaceField

/-! ## The file -/

/-- The text of a written configuration is read as that configuration. -/
theorem ofText?_of_writtenAs {c : Config} {text : String} (h : c.WrittenAs text) :
    ofText? text = some c := by
  obtain @⟨top, sections, inEntries, documentText⟩ := h
  have hfields : ∀ s ∈ sections, (Entries.keys s.2).Nodup := by
    intro s hs
    have htable : (s.1, Value.table .header s.2) ∈ Toml.Document.tablesOf sections :=
      List.mem_map_of_mem hs
    exact nodup_keys_of_table inEntries (List.mem_append_right top htable)
  have hstatements := Toml.Statement.readAll_of_documentText documentText
  have htable := Toml.Document.ofStatements?_layout (nodup_keys_of_inEntries inEntries) hfields
  simp [ofText?, Toml.Document.read?, hstatements, htable, ofEntries?_of_inEntries inEntries]

/-- A configuration with a proper endpoint and named targets passes the check. -/
theorem validate_eq_ok {c : Config}
    (hendpoint : ∀ endpoint, c.apiEndpoint = some endpoint →
      "http://".toList <+: endpoint.toList ∨ "https://".toList <+: endpoint.toList)
    (horg : ∀ org, c.org = some org → org.name ≠ "")
    (hspace : ∀ space, c.space = some space → space.name ≠ "") : c.validate = .ok () := by
  have htarget : ∀ (what : String) (target? : Option Target),
      (∀ target, target? = some target → target.name ≠ "") →
        validateTarget what target? = .ok () := by
    intro what target? hname
    cases target? with
    | none => rfl
    | some target => rw [validateTarget, Target.validate, if_neg (hname target rfl)]
  have hscheme : validateEndpoint c.apiEndpoint = .ok () := by
    cases hc : c.apiEndpoint with
    | none => rfl
    | some endpoint =>
      have hweb : hasWebScheme endpoint = true := by
        simpa [hasWebScheme] using hendpoint endpoint hc
      rw [validateEndpoint, if_pos hweb]
  rw [validate, hscheme, htarget "org" c.org horg, htarget "space" c.space hspace]
  rfl

/-- A proper configuration can be written to a file, and in whatever way it is written, it is loaded
from there again. -/
theorem load_writtenAs {c : Config}
    (hendpoint : ∀ endpoint, c.apiEndpoint = some endpoint →
      "http://".toList <+: endpoint.toList ∨ "https://".toList <+: endpoint.toList)
    (horg : ∀ org, c.org = some org → org.name ≠ "")
    (hspace : ∀ space, c.space = some space → space.name ≠ "") (path : String) :
    (∃ text, c.WrittenAs text) ∧
      ∀ text, c.WrittenAs text → load path (.file (Text.Utf8.encode text)) = .ok c := by
  refine ⟨c.exists_writtenAs, fun text hwritten => ?_⟩
  have hread : ofText? text = some c := ofText?_of_writtenAs hwritten
  have hvalid : c.validate = .ok () := validate_eq_ok hendpoint horg hspace
  simp only [load, Text.Utf8.decode?_encode, hread, hvalid]

/-- A byte order mark, line ends of both kinds, a comment, escapes, and a target of each form. -/
theorem load_writtenAs_mixed :
    let c : Config :=
      { apiEndpoint := some "http://h", user := some "\u00e9"
        org := some { name := "o\n" }, space := some { name := "s", guid := "g" } }
    let text := "\uFEFF# mine\r\nuser = \"\\u00E9\"\n\napi_endpoint=\"http://h\"\r\n" ++
      "org = \x7b guid=\"\", name=\"o\\n\" \x7d\n[space] # here\nguid=\"g\"\nname=\"s\""
    (∀ endpoint, c.apiEndpoint = some endpoint →
        "http://".toList <+: endpoint.toList ∨ "https://".toList <+: endpoint.toList) ∧
      (∀ org, c.org = some org → org.name ≠ "") ∧
      (∀ space, c.space = some space → space.name ≠ "") ∧
      c.WrittenAs text ∧ load "config.toml" (.file (Text.Utf8.encode text)) = .ok c := by
  intro c text
  have hendpoint : ∀ endpoint, c.apiEndpoint = some endpoint →
      "http://".toList <+: endpoint.toList ∨ "https://".toList <+: endpoint.toList := by
    rintro endpoint ⟨⟩
    exact .inl (by decide)
  have horg : ∀ org, c.org = some org → org.name ≠ "" := by
    rintro org ⟨⟩
    decide
  have hspace : ∀ space, c.space = some space → space.name ≠ "" := by
    rintro space ⟨⟩
    decide
  have hkey : ∀ key ∈ keys ++ targetKeys, Toml.KeyText key key.toList := fun _ => keyText_of_mem
  have hescaped : Toml.BasicChars "\u00e9".toList "\\u00E9".toList := by
    have hdigits : Toml.HexNumeral "00E9".toList 0xE9 := by
      refine ⟨[0, 0, 14, 9], rfl, ?_⟩
      simp only [String.reduceToList, List.forall₂_cons, List.forall₂_nil_left_iff]
      decide
    exact .cons (c := '\u00e9') (.four rfl hdigits) .nil
  have hbroken : Toml.BasicChars "o\n".toList "o\\n".toList := by
    have hbreak : Toml.BasicChar '\n' ['\\', 'n'] := .short (by decide)
    exact .cons (c := 'o') (.itself (by decide) (by decide) (by decide)) (.cons hbreak .nil)
  have hplain : ∀ key ∈ keys ++ targetKeys, ∀ s ∈ ["", "g", "s", "http://h"],
      Toml.PairText Toml.ScalarText (key, .string s)
        (key.toList ++ '=' :: '\x22' :: (s.toList ++ ['\x22'])) := by
    have hchars : ∀ s ∈ ["", "g", "s", "http://h"],
        Toml.OnOneLine s.toList ∧ '\x22' ∉ s.toList ∧ '\\' ∉ s.toList := by decide
    intro key hkey s hs
    obtain ⟨hline, hmark, hescape⟩ := hchars s hs
    exact .of_value (keyText_of_mem hkey) (.of_plain hline hmark hescape)
  have hbraces : Toml.ValueText (.table .braces [("guid", .string ""), ("name", .string "o\n")])
      "\x7b guid=\"\", name=\"o\\n\" \x7d".toList := by
    have hname := Toml.PairText.of_value (hkey "name" (by decide))
      (Toml.ScalarText.string (.quoted hbroken))
    exact .braces (.cons (b := [' ']) (by decide) (hplain "guid" (by decide) "" (by decide))
      (a := []) (by decide)
      (.last (b := [' ']) (by decide) hname (a := [' ']) (by decide))) (by decide)
  have huser : Toml.LineText (some (.assign ["user"] (.string "\u00e9")))
      "user = \"\\u00E9\"".toList :=
    .of_statementText (.assign (.pair (b := [' ']) (a := [' ']) (hkey "user" (by decide))
      (by decide) (by decide) (.scalar (.string (.quoted hescaped)))))
  have horgLine : Toml.LineText (some (.assign ["org"] (.table .braces
      [("guid", .string ""), ("name", .string "o\n")])))
      "org = \x7b guid=\"\", name=\"o\\n\" \x7d".toList :=
    .of_statementText (.assign (.pair (b := [' ']) (a := [' ']) (hkey "org" (by decide))
      (by decide) (by decide) hbraces))
  have hheader : Toml.LineText (some (.header ["space"])) "[space] # here".toList :=
    .statement (b := []) (by decide)
      (.header (b := []) (by decide) (hkey "space" (by decide)) (a := []) (by decide))
      (a := [' ']) (by decide) (.text (s := " here".toList) (by decide))
  have hline : ∀ key ∈ keys ++ targetKeys, ∀ s ∈ ["", "g", "s", "http://h"],
      Toml.LineText (some (.assign [key] (.string s)))
        (key.toList ++ '=' :: '\x22' :: (s.toList ++ ['\x22'])) :=
    fun key hkey s hs => .of_statementText (.assign (.of_scalarText (hplain key hkey s hs)))
  have hcomment : Toml.LineText none "# mine".toList :=
    .empty (b := []) (by decide) (.text (s := " mine".toList) (by decide))
  have hempty : Toml.LineText none [] := .empty (b := []) (by decide) .none
  have hlines := Toml.LinesText.cons hcomment .both (.cons huser .lineFeed
    (.cons hempty .lineFeed
    (.cons (hline "api_endpoint" (by decide) "http://h" (by decide)) .both
    (.cons horgLine .lineFeed (.cons hheader .lineFeed
    (.cons (hline "guid" (by decide) "g" (by decide)) .lineFeed
    (.last (hline "name" (by decide) "s" (by decide)))))))))
  have hentries : c.InEntries ([("user", .string "\u00e9"), ("api_endpoint", .string "http://h"),
      ("org", .table .braces [("guid", .string ""), ("name", .string "o\n")])] ++
        Toml.Document.tablesOf [("space", [("guid", .string "g"), ("name", .string "s")])]) :=
    .fields (.leftOut rfl) (.table (.fields .given (.swap _ _ _)))
      (.table (.fields .given (.swap _ _ _))) (.swap _ _ _)
  have hwritten : c.WrittenAs text := by
    obtain ⟨w, hw, documentText⟩ : ∃ w, w = text.toList ∧ Toml.DocumentText _ w :=
      ⟨_, by decide +kernel, .marked hlines⟩
    rw [hw] at documentText
    exact .document hentries documentText
  exact ⟨hendpoint, horg, hspace, hwritten,
    (load_writtenAs hendpoint horg hspace "config.toml").2 text hwritten⟩

end Config

end PlatformAdmin
