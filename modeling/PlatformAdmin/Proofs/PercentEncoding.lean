import PlatformAdmin.Text.Utf8
import PlatformAdmin.Url.Percent

/-!
# What percent-encoding keeps

To decode is to read each percent sign that two hexadecimal digits follow as a byte, and any other
character as its UTF-8 form.  An encoding that leaves percent signs and hexadecimal digits alone
therefore changes nothing about what a text decodes to: `decode_encodeExcept`.  The text itself is
what it decodes to exactly if it holds no such escape: `decode_eq_iff`.  A form encodes percent
signs as well, so what it holds is read back as it was: `formDecode_formEncode`.
-/

set_option autoImplicit false

namespace PlatformAdmin

/-- Texts with the same UTF-8 form are the same. -/
theorem Text.Utf8.encode_inj {s t : String} (h : encode s = encode t) : s = t := by
  have hbytes : s.toList.utf8Encode = t.toList.utf8Encode := congrArg List.toByteArray h
  rw [← String.toByteArray_ofList, ← String.toByteArray_ofList, String.toByteArray_inj,
    String.ofList_toList, String.ofList_toList] at hbytes
  exact hbytes

namespace Url

/-! ## Bytes -/

/-- The number of bytes of the UTF-8 form. -/
def byteCount (s : List Char) : Nat := (s.flatMap String.utf8EncodeChar).length

/-- The bytes of a text are those of its characters one by one. -/
theorem byteCount_cons (c : Char) (s : List Char) :
    byteCount (c :: s) = (String.utf8EncodeChar c).length + byteCount s := by
  simp only [byteCount, List.flatMap_cons, List.length_append]

/-- A character has a byte at least. -/
theorem utf8EncodeChar_length_pos (c : Char) : 0 < (String.utf8EncodeChar c).length := by
  rw [String.length_utf8EncodeChar]
  exact c.utf8Size_pos

/-- What is left of a text has no more bytes than the text. -/
theorem byteCount_le_of_sublist {s t : List Char} (h : s.Sublist t) :
    byteCount s ≤ byteCount t := by
  induction h with
  | slnil => exact Nat.le_refl _
  | cons c _ ih =>
    rw [byteCount_cons]
    omega
  | cons_cons c _ ih =>
    rw [byteCount_cons, byteCount_cons]
    omega

/-- A part of a text has fewer bytes, unless it is the whole. -/
theorem eq_of_sublist_of_byteCount_le {s t : List Char} (h : s.Sublist t)
    (hle : byteCount t ≤ byteCount s) : s = t := by
  induction h with
  | slnil => rfl
  | cons c htail _ =>
    have hpos := utf8EncodeChar_length_pos c
    have hsmaller := byteCount_le_of_sublist htail
    rw [byteCount_cons] at hle
    omega
  | cons_cons c _ ih =>
    rw [byteCount_cons, byteCount_cons] at hle
    rw [ih (by omega)]

/-! ## Decoding -/

/-- Two hexadecimal digits come first. -/
def StartsWithDigits (s : List Char) : Prop :=
  ∃ a b rest, s = a :: b :: rest ∧ (Text.hexValue? a).isSome = true ∧
    (Text.hexValue? b).isSome = true

/-- Somewhere a percent sign is followed by two hexadecimal digits. -/
def HasEscape (s : List Char) : Prop :=
  ∃ before after, s = before ++ '%' :: after ∧ StartsWithDigits after

variable {a b c : Char} {s rest : List Char}

/-- Two characters are the digits of an escape if both have a value. -/
theorem startsWithDigits_cons_cons :
    StartsWithDigits (a :: b :: rest) ↔
      (Text.hexValue? a).isSome = true ∧ (Text.hexValue? b).isSome = true := by
  constructor
  · rintro ⟨a', b', rest', h, ha, hb⟩
    rw [List.cons.injEq, List.cons.injEq] at h
    obtain ⟨rfl, rfl, -⟩ := h
    exact ⟨ha, hb⟩
  · rintro ⟨ha, hb⟩
    exact ⟨a, b, rest, rfl, ha, hb⟩

/-- An escape begins at the first character, or stands behind it. -/
theorem hasEscape_cons : HasEscape (c :: s) ↔ c = '%' ∧ StartsWithDigits s ∨ HasEscape s := by
  constructor
  · rintro ⟨before, after, h, hdigits⟩
    cases before with
    | nil =>
      obtain ⟨rfl, rfl⟩ := List.cons.inj h
      exact .inl ⟨rfl, hdigits⟩
    | cons d before =>
      obtain ⟨rfl, rfl⟩ := List.cons.inj h
      exact .inr ⟨before, after, rfl, hdigits⟩
  · rintro (⟨rfl, hdigits⟩ | ⟨before, after, rfl, hdigits⟩)
    · exact ⟨[], s, rfl, hdigits⟩
    · exact ⟨c :: before, after, rfl, hdigits⟩

/-- A percent sign and two digits decode to one byte. -/
theorem decode_byte {high low : Nat} (ha : Text.hexValue? a = some high)
    (hb : Text.hexValue? b = some low) (rest : List Char) :
    decode ('%' :: a :: b :: rest) = UInt8.ofNat (high * 16 + low) :: decode rest := by
  simp only [decode, ha, hb]

/-- A percent sign without digits decodes to itself. -/
theorem decode_percent (h : ¬StartsWithDigits s) : decode ('%' :: s) = 0x25 :: decode s := by
  match s with
  | [] => rfl
  | [a] => rfl
  | a :: b :: rest =>
    rw [startsWithDigits_cons_cons] at h
    rw [decode]
    cases ha : Text.hexValue? a with
    | none => rfl
    | some high =>
      cases hb : Text.hexValue? b with
      | none => rfl
      | some low =>
        rw [ha, hb] at h
        exact absurd ⟨rfl, rfl⟩ h

/-- Any other character decodes to its own bytes. -/
theorem decode_cons_of_ne (h : c ≠ '%') (s : List Char) :
    decode (c :: s) = String.utf8EncodeChar c ++ decode s := by
  rw [decode]
  intro a b rest hc
  exact absurd hc h

/-- A character that begins no escape is decoded by itself. -/
theorem decode_cons (h : ¬(c = '%' ∧ StartsWithDigits s)) :
    decode (c :: s) = String.utf8EncodeChar c ++ decode s := by
  by_cases hc : c = '%'
  · subst hc
    exact decode_percent fun hs => h ⟨rfl, hs⟩
  · exact decode_cons_of_ne hc s

/-- What holds of the empty text, and of a text with an escape or with any other character in
front, holds of all texts. -/
@[elab_as_elim]
theorem escapeInduction {motive : List Char → Prop} (nil : motive [])
    (escape : ∀ a b high low rest, Text.hexValue? a = some high → Text.hexValue? b = some low →
      motive rest → motive ('%' :: a :: b :: rest))
    (plain : ∀ c s, ¬(c = '%' ∧ StartsWithDigits s) → motive s → motive (c :: s))
    (s : List Char) : motive s := by
  -- an escape is three characters at once, so the recursion is on the length
  induction hn : s.length using Nat.strongRecOn generalizing s with
  | ind n ih =>
    match s with
    | [] => exact nil
    | c :: s =>
      rw [List.length_cons] at hn
      by_cases h : c = '%' ∧ StartsWithDigits s
      · obtain ⟨rfl, a, b, rest, rfl, ha, hb⟩ := h
        obtain ⟨high, ha⟩ := Option.isSome_iff_exists.mp ha
        obtain ⟨low, hb⟩ := Option.isSome_iff_exists.mp hb
        rw [List.length_cons, List.length_cons] at hn
        exact escape a b high low rest ha hb (ih rest.length (by omega) rest rfl)
      · exact plain c s h (ih s.length (by omega) s rfl)

/-- A text without escapes decodes to its own bytes. -/
theorem decode_of_not_hasEscape (h : ¬HasEscape s) :
    decode s = s.flatMap String.utf8EncodeChar := by
  induction s with
  | nil => rfl
  | cons c s ih =>
    rw [hasEscape_cons, not_or] at h
    rw [decode_cons h.1, ih h.2, List.flatMap_cons]

/-- To decode makes a text shorter if there is an escape, and never longer. -/
theorem decode_length (s : List Char) :
    (decode s).length ≤ byteCount s ∧ (HasEscape s → (decode s).length < byteCount s) := by
  induction s using escapeInduction with
  | nil =>
    refine ⟨Nat.le_refl _, ?_⟩
    rintro ⟨before, after, h, -⟩
    simp at h
  | escape a b high low rest ha hb ih =>
    have hlt : (decode ('%' :: a :: b :: rest)).length < byteCount ('%' :: a :: b :: rest) := by
      have hapos := utf8EncodeChar_length_pos a
      have hbpos := utf8EncodeChar_length_pos b
      rw [decode_byte ha hb, byteCount_cons, byteCount_cons, byteCount_cons, List.length_cons]
      omega
    exact ⟨Nat.le_of_lt hlt, fun _ => hlt⟩
  | plain c s hplain ih =>
    rw [decode_cons hplain, List.length_append, byteCount_cons, hasEscape_cons]
    refine ⟨by omega, ?_⟩
    rintro (hescape | hescape)
    · exact absurd hescape hplain
    · have hlt := ih.2 hescape
      omega

/-- A text decodes to its own bytes exactly if it holds no escape. -/
theorem decode_eq_iff : decode s = s.flatMap String.utf8EncodeChar ↔ ¬HasEscape s := by
  refine ⟨fun h hescape => ?_, decode_of_not_hasEscape⟩
  have hlt := (decode_length s).2 hescape
  rw [h] at hlt
  exact absurd hlt (Nat.lt_irrefl _)

/-! ## Encoding -/

/-- The class of an encoding leaves escapes alone: it has the percent sign and the digits. -/
structure KeepsEscapes (keeps : Char → Bool) : Prop where
  percent : keeps '%' = true
  digit : ∀ c, (Text.hexValue? c).isSome = true → keeps c = true

/-- An encoded byte decodes to the byte. -/
theorem decode_percentByte (b : UInt8) (rest : List Char) :
    decode (percentByte b ++ rest) = b :: decode rest := by
  have hb : b.toNat < 256 := b.toNat_lt
  have hhigh : b.toNat / 16 < 16 := by omega
  have hlow : b.toNat % 16 < 16 := by omega
  have hvalue : b.toNat / 16 * 16 + b.toNat % 16 = b.toNat := by omega
  change decode ('%' :: Text.upperHexDigit (b.toNat / 16) :: Text.upperHexDigit (b.toNat % 16) ::
    rest) = _
  rw [decode_byte (Text.hexValue?_upperHexDigit hhigh) (Text.hexValue?_upperHexDigit hlow), hvalue,
    UInt8.ofNat_toNat]

/-- An encoded character decodes to its bytes. -/
theorem decode_percentChar (c : Char) (rest : List Char) :
    decode (percentChar c ++ rest) = String.utf8EncodeChar c ++ decode rest := by
  have hbytes : ∀ bytes : List UInt8,
      decode (bytes.flatMap percentByte ++ rest) = bytes ++ decode rest := by
    intro bytes
    induction bytes with
    | nil => rfl
    | cons b bytes ih =>
      rw [List.flatMap_cons, List.append_assoc, decode_percentByte, ih, List.cons_append]
  exact hbytes _

/-- A text is encoded character by character. -/
theorem encodeExcept_cons (keeps : Char → Bool) (c : Char) (s : List Char) :
    encodeExcept keeps (c :: s) =
      (if keeps c then [c] else percentChar c) ++ encodeExcept keeps s := by
  simp only [encodeExcept, List.flatMap_cons]

/-- An encoded character begins with a percent sign and two digits. -/
theorem exists_percentChar_eq (c : Char) :
    ∃ x y rest, percentChar c = '%' :: Text.upperHexDigit x :: Text.upperHexDigit y :: rest := by
  cases hbytes : String.utf8EncodeChar c with
  | nil =>
    have hpos := utf8EncodeChar_length_pos c
    rw [hbytes] at hpos
    exact absurd hpos (Nat.lt_irrefl 0)
  | cons b bytes =>
    refine ⟨b.toNat / 16, b.toNat % 16, bytes.flatMap percentByte, ?_⟩
    rw [percentChar, hbytes, List.flatMap_cons]
    rfl

/-- An encoded character does not begin with the digits of an escape. -/
theorem not_startsWithDigits_percentChar (c : Char) (rest : List Char) :
    ¬StartsWithDigits (percentChar c ++ rest) := by
  obtain ⟨x, y, more, hc⟩ := exists_percentChar_eq c
  rw [hc, List.cons_append, List.cons_append, startsWithDigits_cons_cons]
  rintro ⟨hpercent, -⟩
  revert hpercent
  decide

/-- No digits of an escape reach into an encoded character. -/
theorem not_startsWithDigits_cons_percentChar (a c : Char) (rest : List Char) :
    ¬StartsWithDigits (a :: (percentChar c ++ rest)) := by
  obtain ⟨x, y, more, hc⟩ := exists_percentChar_eq c
  rw [hc, List.cons_append, startsWithDigits_cons_cons]
  rintro ⟨-, hpercent⟩
  revert hpercent
  decide

variable {keeps : Char → Bool}

/-- An encoding puts no digits where there were none. -/
theorem startsWithDigits_of_encodeExcept (h : StartsWithDigits (encodeExcept keeps s)) :
    StartsWithDigits s := by
  -- what is escaped starts with a percent sign, so two digits in front were both kept
  cases s with
  | nil =>
    obtain ⟨a, b, rest, hnil, -⟩ := h
    cases hnil
  | cons a s =>
    rw [encodeExcept_cons] at h
    by_cases ha : keeps a = true
    · rw [if_pos ha] at h
      cases s with
      | nil =>
        obtain ⟨a', b', rest, hnil, -⟩ := h
        cases hnil
      | cons b s =>
        rw [encodeExcept_cons] at h
        by_cases hb : keeps b = true
        · rw [if_pos hb] at h
          exact startsWithDigits_cons_cons.mpr (startsWithDigits_cons_cons.mp h)
        · rw [if_neg hb] at h
          exact absurd h (not_startsWithDigits_cons_percentChar a b _)
    · rw [if_neg ha] at h
      exact absurd h (not_startsWithDigits_percentChar a _)

/-- An encoding that leaves escapes alone does not change what a text decodes to. -/
theorem decode_encodeExcept (hkeeps : KeepsEscapes keeps) (s : List Char) :
    decode (encodeExcept keeps s) = decode s := by
  induction s using escapeInduction with
  | nil => rfl
  | escape a b high low rest ha hb ih =>
    have hkeepsa : keeps a = true := hkeeps.digit a (by rw [ha]; rfl)
    have hkeepsb : keeps b = true := hkeeps.digit b (by rw [hb]; rfl)
    have hencoded : encodeExcept keeps ('%' :: a :: b :: rest) =
        '%' :: a :: b :: encodeExcept keeps rest := by
      rw [encodeExcept_cons, encodeExcept_cons, encodeExcept_cons, if_pos hkeeps.percent,
        if_pos hkeepsa, if_pos hkeepsb]
      rfl
    rw [hencoded, decode_byte ha hb, decode_byte ha hb, ih]
  | plain c s hplain ih =>
    rw [encodeExcept_cons, decode_cons hplain]
    by_cases hc : keeps c = true
    · have hplain' : ¬(c = '%' ∧ StartsWithDigits (encodeExcept keeps s)) := fun h =>
        hplain ⟨h.1, startsWithDigits_of_encodeExcept h.2⟩
      rw [if_pos hc, List.singleton_append, decode_cons hplain', ih]
    · rw [if_neg hc, decode_percentChar, ih]

/-! ## Forms -/

/-- An encoded character is made of percent signs and of characters that a form keeps. -/
theorem mem_percentChar {d : Char} (h : d ∈ percentChar c) : d = '%' ∨ formKeeps d = true := by
  have hdigit : ∀ n < 16, formKeeps (Text.upperHexDigit n) = true := by decide
  obtain ⟨b, -, hb⟩ := List.mem_flatMap.mp h
  have hbyte : b.toNat < 256 := b.toNat_lt
  obtain rfl | rfl | rfl : d = '%' ∨ d = Text.upperHexDigit (b.toNat / 16) ∨
      d = Text.upperHexDigit (b.toNat % 16) := by simpa [percentByte] using hb
  · exact .inl rfl
  · exact .inr (hdigit _ (by omega))
  · exact .inr (hdigit _ (by omega))

/-- A form holds nothing but plus signs, percent signs and characters that stand for themselves. -/
theorem mem_formEncode {d : Char} (h : d ∈ formEncode s) :
    d = '+' ∨ d = '%' ∨ formKeeps d = true := by
  obtain ⟨c, -, hc⟩ := List.mem_flatMap.mp h
  by_cases hspace : c = ' '
  · rw [if_pos hspace, List.mem_singleton] at hc
    exact .inl hc
  · rw [if_neg hspace] at hc
    by_cases hkeeps : formKeeps c = true
    · rw [if_pos hkeeps, List.mem_singleton] at hc
      rw [hc]
      exact .inr (.inr hkeeps)
    · rw [if_neg hkeeps] at hc
      exact .inr (mem_percentChar hc)

/-- The marks between the parts of a query, and the one that ends it, are not among them. -/
theorem ne_mark_of_mem_formEncode {d : Char} (h : d ∈ formEncode s) :
    d ≠ '=' ∧ d ≠ '&' ∧ d ≠ '#' := by
  have hform := mem_formEncode h
  refine ⟨?_, ?_, ?_⟩
  all_goals
    rintro rfl
    revert hform
    decide

/-- What is encoded for a form decodes to its own bytes. -/
theorem formDecode_formEncode (s : List Char) :
    formDecode (formEncode s) = s.flatMap String.utf8EncodeChar := by
  have hplus : formKeeps '+' = false := by decide
  have hpercent : formKeeps '%' = false := by decide
  induction s with
  | nil => rfl
  | cons c s ih =>
    have hcons : formEncode (c :: s) =
        (if c = ' ' then ['+'] else if formKeeps c then [c] else percentChar c) ++
          formEncode s := by
      rw [formEncode, List.flatMap_cons, ← formEncode]
    rw [formDecode] at ih
    rw [hcons, formDecode, List.map_append, List.flatMap_cons]
    by_cases hspace : c = ' '
    · rw [if_pos hspace, hspace, ← ih]
      exact decode_cons_of_ne (by decide) _
    · rw [if_neg hspace]
      by_cases hkeeps : formKeeps c = true
      · have hc : c ≠ '%' := by
          rintro rfl
          rw [hpercent] at hkeeps
          cases hkeeps
        have hc' : c ≠ '+' := by
          rintro rfl
          rw [hplus] at hkeeps
          cases hkeeps
        rw [if_pos hkeeps, List.map_singleton, if_neg hc', List.singleton_append,
          decode_cons_of_ne hc, ih]
      · have hsame : ∀ d ∈ percentChar c, (if d = '+' then ' ' else d) = d := by
          intro d hd
          refine if_neg ?_
          rintro rfl
          obtain hd | hd := mem_percentChar hd
          · exact absurd hd (by decide)
          · rw [hplus] at hd
            cases hd
        rw [if_neg hkeeps, List.map_congr_left hsame, List.map_id', decode_percentChar, ih]

end Url

end PlatformAdmin
