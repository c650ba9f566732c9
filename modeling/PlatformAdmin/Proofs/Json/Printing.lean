import PlatformAdmin.Proofs.Json.Reading

/-!
# What is printed spells the value

A value is printed by the grammar: `WellFormed.spells` says that what is printed spells the value,
whatever characters its strings hold.  So every reader of JSON gets the value back, and values that
are printed alike are the same.  All that is asked is that the numbers are numbers, since they are
kept as they are written.
-/

set_option autoImplicit false

namespace PlatformAdmin.Json

/-- The numbers within a value are written as numbers. -/
inductive WellFormed : Json → Prop
  | null : WellFormed .null
  | bool (b : Bool) : WellFormed (.bool b)
  | number {w : List Char} (numberText : NumberText w) : WellFormed (.number (String.ofList w))
  | string (text : Option String) : WellFormed (.string text)
  | array {items : List Json} (wellFormed : ∀ v ∈ items, WellFormed v) : WellFormed (.array items)
  | object {members : List (Option String × Json)}
      (wellFormed : ∀ m ∈ members, WellFormed m.2) : WellFormed (.object members)

/-- An object of well-formed members is well formed. -/
theorem WellFormed.ofMembers {members : List (String × Json)}
    (h : ∀ m ∈ members, m.2.WellFormed) : (ofMembers members).WellFormed := by
  apply WellFormed.object
  intro m hm
  obtain ⟨m', hm', rfl⟩ := List.mem_map.mp hm
  exact h m' hm'

/-! ## Strings -/

/-- A control character is written by its number. -/
theorem unitText_control {c : Char} (h : c.toNat < 0x20) :
    UnitText c.toNat [some '\\', some 'u', some '0', some '0',
      some (Text.hexDigit (c.toNat / 16)), some (Text.hexDigit (c.toNat % 16))] := by
  have hzero : Text.hexValue? '0' = some 0 := by decide
  refine .digits hzero hzero (Text.hexValue?_hexDigit (by omega))
    (Text.hexValue?_hexDigit (by omega)) ?_
  omega

/-- A character is written as the grammar wants it, whatever follows. -/
theorem stringChars_printChar (c : Char) {cs w : List (Option Char)} (h : StringChars cs w) :
    StringChars (some c :: cs) ((printChar c).map some ++ w) := by
  have hshort : ∀ letter, (letter, c) ∈ shortEscapes →
      StringChars (some c :: cs) (some '\\' :: some letter :: w) := fun _ hescape =>
    .short hescape h
  unfold printChar
  split_ifs with hmark hbackslash hline hreturn htab hback hfeed hcontrol
  · exact hshort '\x22' (by simp [shortEscapes, hmark])
  · exact hshort '\\' (by simp [shortEscapes, hbackslash])
  · exact hshort 'n' (by simp [shortEscapes, hline])
  · exact hshort 'r' (by simp [shortEscapes, hreturn])
  · exact hshort 't' (by simp [shortEscapes, htab])
  · apply hshort 'b'
    rw [← Char.ofNat_toNat c, hback]
    simp [shortEscapes]
  · apply hshort 'f'
    rw [← Char.ofNat_toNat c, hfeed]
    simp [shortEscapes]
  · have hhigh : ¬IsHigh c.toNat := by
      rintro ⟨habove, -⟩
      omega
    have hlow : ¬IsLow c.toNat := by
      rintro ⟨habove, -⟩
      omega
    have hunit := StringChars.unit (unitText_control hcontrol) hhigh hlow h
    rw [Char.ofNat_toNat] at hunit
    exact hunit
  · exact .itself hmark hbackslash (by omega) h

/-- The characters of a printed string spell those of the string. -/
theorem stringChars_print (s : List Char) :
    StringChars (s.map some) ((s.flatMap printChar).map some) := by
  induction s with
  | nil => exact .nil
  | cons c s ih =>
    rw [List.map_cons, List.flatMap_cons, List.map_append]
    exact stringChars_printChar c ih

/-- A string that is printed spells the string. -/
theorem stringText_printString (text : Option String) :
    StringText text ((printString text).map some) := by
  cases text with
  | none =>
    -- a lone surrogate is all that the string holds, so nothing pairs with it
    have hunit : UnitText 0xD800 [some '\\', some 'u', some 'd', some '8', some '0', some '0'] :=
      .digits (i := 13) (j := 8) (k := 0) (l := 0) rfl rfl rfl rfl rfl
    have hunpaired : ¬BeginsLow [] := by
      rintro ⟨u, e, rest, -, he, hnil⟩
      cases he
      cases hnil
    exact .quoted (.lone hunit (.inl ⟨by decide, by decide⟩) (fun _ => hunpaired) .nil)
  | some s =>
    have hquoted := StringText.quoted (stringChars_print s.toList)
    rw [Text.Utf8.text?_map_some, String.ofList_toList] at hquoted
    simpa [printString] using hquoted

/-! ## Values -/

/-- No blanks are blanks. -/
theorem blanks_nil : Blanks [] := nofun

/-- Items that are printed one after the other are the items between two brackets. -/
theorem exists_itemsText {v : Json} {vs : List Json}
    (h : ∀ u ∈ v :: vs, Spells u (u.print.map some)) :
    ∃ w, (v.print ++ printItems vs).map some = w ++ [some ']'] ∧ ItemsText (v :: vs) w := by
  induction vs generalizing v with
  | nil =>
    have hlast := ItemsText.last blanks_nil (h v List.mem_cons_self) blanks_nil
    exact ⟨_, by simp [printItems], hlast⟩
  | cons v' vs ih =>
    obtain ⟨w, hw, hitems⟩ := ih fun u hu => h u (List.mem_cons_of_mem v hu)
    have hcons := ItemsText.cons blanks_nil (h v List.mem_cons_self) blanks_nil hitems
    refine ⟨_, ?_, hcons⟩
    rw [printItems, List.map_append, List.map_cons, hw]
    simp

/-- A member that is printed spells the member if its value does. -/
theorem memberText_printMember {m : Option String × Json} (h : Spells m.2 (m.2.print.map some)) :
    MemberText m ((printMember m).map some) := by
  obtain ⟨key, v⟩ := m
  have hmember := MemberText.member blanks_nil (stringText_printString key) blanks_nil blanks_nil h
    blanks_nil
  simpa [printMember] using hmember

/-- So are members, between two braces. -/
theorem exists_membersText {m : Option String × Json} {ms : List (Option String × Json)}
    (h : ∀ m' ∈ m :: ms, Spells m'.2 (m'.2.print.map some)) :
    ∃ w, (printMember m ++ printMembers ms).map some = w ++ [some '\x7d'] ∧
      MembersText (m :: ms) w := by
  induction ms generalizing m with
  | nil =>
    have hlast := MembersText.last (memberText_printMember (h m List.mem_cons_self))
    exact ⟨_, by simp [printMembers], hlast⟩
  | cons m' ms ih =>
    obtain ⟨w, hw, hmembers⟩ := ih fun u hu => h u (List.mem_cons_of_mem m hu)
    have hcons := MembersText.cons (memberText_printMember (h m List.mem_cons_self)) hmembers
    refine ⟨_, ?_, hcons⟩
    rw [printMembers, List.map_append, List.map_cons, hw]
    simp

/-- What is printed spells the value. -/
theorem WellFormed.spells {v : Json} (h : v.WellFormed) : Spells v (v.print.map some) := by
  induction h with
  | null =>
    have hword : (['n', 'u', 'l', 'l'], .null) ∈ words := by simp [words]
    exact .word hword
  | bool b =>
    cases b with
    | false =>
      have hword : (['f', 'a', 'l', 's', 'e'], .bool false) ∈ words := by simp [words]
      exact .word hword
    | true =>
      have hword : (['t', 'r', 'u', 'e'], .bool true) ∈ words := by simp [words]
      exact .word hword
  | number numberText =>
    rw [print, String.toList_ofList]
    exact .number numberText
  | string text => exact .string (stringText_printString text)
  | @array items _ ih =>
    cases items with
    | nil => exact .emptyArray blanks_nil
    | cons v vs =>
      obtain ⟨w, hw, hitems⟩ := exists_itemsText ih
      rw [print, List.map_cons, hw]
      exact .array hitems
  | @object members _ ih =>
    cases members with
    | nil => exact .emptyObject blanks_nil
    | cons m ms =>
      obtain ⟨w, hw, hmembers⟩ := exists_membersText ih
      rw [print, List.map_cons, hw]
      exact .object hmembers

/-- The compact text of a value is a text of that value, and of no other. -/
theorem WellFormed.isText_compact_iff {v : Json} (h : v.WellFormed) (v' : Json) :
    v'.IsText (v.compact.toList.map some) ↔ v' = v := by
  have htext : v.IsText (v.compact.toList.map some) := by
    have htext := IsText.text blanks_nil h.spells blanks_nil
    rw [List.nil_append, List.append_nil] at htext
    rw [compact, String.toList_ofList]
    exact htext
  constructor
  · intro h'
    exact h'.unique htext
  · rintro rfl
    exact htext

end PlatformAdmin.Json
