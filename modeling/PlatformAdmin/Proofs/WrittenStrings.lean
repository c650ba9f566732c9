import Mathlib.Data.List.Forall2
import Mathlib.Data.Nat.Digits.Defs
import PlatformAdmin.Toml.Quotation

/-!
# How TOML strings are written

A basic string stands between double quotation marks.  A character of it is written as itself, by
a short escape, or by its number in four or eight hexadecimal digits: `BasicChar` lists these ways,
and `BasicString` strings them together.  However a string is written, the reader gets it back,
whatever follows the closing mark: `text_of_basicChars`.  Every string can be written, and on one
line.
-/

set_option autoImplicit false

namespace PlatformAdmin.Toml

/-! ## The written forms -/

/-- A character that may stand in a comment or between quotation marks: any but the control
characters, of which only the tab is allowed. -/
def IsTextChar (c : Char) : Prop :=
  c = '\t' ∨ 0x20 ≤ c.toNat ∧ c.toNat ≠ 0x7F

/-- A text of such characters. -/
def OnOneLine (s : List Char) : Prop :=
  ∀ c ∈ s, IsTextChar c

/-- A number in hexadecimal digits, the highest first, each in lower or upper case. -/
def HexNumeral (digits : List Char) (n : Nat) : Prop :=
  ∃ values : List Nat, n = Nat.ofDigits 16 values.reverse ∧
    List.Forall₂ (fun value digit => value < 16 ∧
      (digit = Text.hexDigit value ∨ digit = Text.upperHexDigit value)) values digits

/-- The letters of the short escapes, with the characters that they stand for. -/
def shortEscapes : List (Char × Char) :=
  [('b', Char.ofNat 8), ('t', '\t'), ('n', '\n'), ('f', Char.ofNat 12), ('r', '\r'),
    ('\x22', '\x22'), ('\\', '\\')]

/-- A character, and a way to write it in a basic string. -/
inductive BasicChar (c : Char) : List Char → Prop
  | itself (text : IsTextChar c) (noMark : c ≠ '\x22') (noEscape : c ≠ '\\') : BasicChar c [c]
  | short {letter : Char} (escape : (letter, c) ∈ shortEscapes) : BasicChar c ['\\', letter]
  | four {digits : List Char} (length : digits.length = 4) (number : HexNumeral digits c.toNat) :
      BasicChar c ('\\' :: 'u' :: digits)
  | eight {digits : List Char} (length : digits.length = 8) (number : HexNumeral digits c.toNat) :
      BasicChar c ('\\' :: 'U' :: digits)

/-- Characters, and a way to write them in a basic string. -/
inductive BasicChars : List Char → List Char → Prop
  | nil : BasicChars [] []
  | cons {c : Char} {cs w ws : List Char} (first : BasicChar c w) (others : BasicChars cs ws) :
      BasicChars (c :: cs) (w ++ ws)

/-- A text, and a way to write it as a basic string. -/
inductive BasicString (s : String) : List Char → Prop
  | quoted {w : List Char} (chars : BasicChars s.toList w) :
      BasicString s ('\x22' :: (w ++ ['\x22']))

/-! ## They are read back -/

/-- The scanner takes for text just the characters that may stand on a line. -/
theorem isTextChar_iff {c : Char} : isTextChar c = true ↔ IsTextChar c := by
  simp [isTextChar, IsTextChar]

instance (c : Char) : Decidable (IsTextChar c) :=
  decidable_of_iff _ isTextChar_iff

instance (s : List Char) : Decidable (OnOneLine s) :=
  List.decidableBAll _ s

namespace Quotation

variable {mark : Char} {raw : Bool} {done : List Char} {rest : List Char}

/-- A hexadecimal digit, in either case, is read as its value. -/
theorem hexValue?_of_digit {value : Nat} {digit : Char}
    (h : value < 16 ∧ (digit = Text.hexDigit value ∨ digit = Text.upperHexDigit value)) :
    Text.hexValue? digit = some value := by
  obtain ⟨hvalue, rfl | rfl⟩ := h
  · exact Text.hexValue?_hexDigit hvalue
  · exact Text.hexValue?_upperHexDigit hvalue

/-- The number of a character stands for it. -/
theorem scalar?_toNat (c : Char) : scalar? c.toNat = some c := by
  have hvalid : c.toNat.isValidChar := c.valid
  rw [scalar?, if_pos hvalid, Char.ofNat_toNat]

/-- The digits of an escape add up to the number of a character. -/
theorem lineRest_digits {values : List Nat} {digits : List Char} {value : Nat} {c : Char}
    (hdigits : List.Forall₂ (fun value digit => value < 16 ∧
      (digit = Text.hexDigit value ∨ digit = Text.upperHexDigit value)) values digits)
    (hsome : digits ≠ [])
    (hnumber : value * 16 ^ values.length + Nat.ofDigits 16 values.reverse = c.toNat) :
    lineRest mark raw (.digits digits.length value) done (digits ++ rest) =
      lineRest mark raw .plain (c :: done) rest := by
  induction hdigits generalizing value with
  | nil => exact absurd rfl hsome
  | @cons v digit values digits hdigit hothers ih =>
    rw [List.reverse_cons, Nat.ofDigits_append, Nat.ofDigits_singleton, List.length_reverse,
      List.length_cons] at hnumber
    rw [List.cons_append, lineRest]
    cases digits with
    | nil =>
      obtain rfl : values = [] := by cases hothers; rfl
      have hc : value * 16 + v = c.toNat := by simpa using hnumber
      simp [stepDigit, hexValue?_of_digit hdigit, hc, scalar?_toNat]
    | cons next digits =>
      have hmore : ¬(digit :: next :: digits).length = 1 := by simp
      have hstep : stepDigit (digit :: next :: digits).length value done digit =
          some (.digits (next :: digits).length (value * 16 + v), done) := by
        simp [stepDigit, hexValue?_of_digit hdigit]
      rw [hstep]
      refine ih (List.cons_ne_nil _ _) ?_
      rw [← hnumber]
      ring

/-- A short escape adds the character that it stands for. -/
theorem stepEscape_short {letter c : Char} (h : (letter, c) ∈ shortEscapes) :
    stepEscape done letter = some (.plain, c :: done) := by
  simp only [shortEscapes, List.mem_cons, Prod.mk.injEq, List.not_mem_nil, or_false] at h
  rcases h with ⟨rfl, rfl⟩ | ⟨rfl, rfl⟩ | ⟨rfl, rfl⟩ | ⟨rfl, rfl⟩ | ⟨rfl, rfl⟩ | ⟨rfl, rfl⟩ |
    ⟨rfl, rfl⟩ <;> rfl

/-- A backslash and its letter are one step of the scan. -/
theorem lineRest_escape (letter : Char) {place : Place} {done' : List Char}
    (h : stepEscape done letter = some (place, done')) :
    lineRest '\x22' false .plain done ('\\' :: letter :: rest) =
      lineRest '\x22' false place done' rest := by
  have hmark : '\\' ≠ '\x22' := by decide
  rw [lineRest, if_neg hmark, if_pos ⟨rfl, rfl⟩, lineRest, h]
  · nofun
  · nofun

/-- A numbered escape adds the character of its number. -/
theorem lineRest_number {letter c : Char} {digits : List Char} (hsome : digits ≠ [])
    (hletter : stepEscape done letter = some (.digits digits.length 0, done))
    (hnumber : HexNumeral digits c.toNat) :
    lineRest '\x22' false .plain done ('\\' :: letter :: (digits ++ rest)) =
      lineRest '\x22' false .plain (c :: done) rest := by
  obtain ⟨values, hvalue, hdigits⟩ := hnumber
  rw [lineRest_escape letter hletter, lineRest_digits hdigits hsome]
  rw [hvalue, Nat.zero_mul, Nat.zero_add]

/-- A character is read in whichever way it is written. -/
theorem lineRest_basicChar {c : Char} {w : List Char} (h : BasicChar c w) :
    lineRest '\x22' false .plain done (w ++ rest) =
      lineRest '\x22' false .plain (c :: done) rest := by
  cases h with
  | itself text noMark noEscape =>
    rw [List.singleton_append, lineRest, if_neg noMark, if_neg (by simp [noEscape]),
      if_pos (isTextChar_iff.mpr text)]
    · nofun
    · nofun
  | short escape => exact lineRest_escape _ (stepEscape_short escape)
  | @four digits length number =>
    have hsome : digits ≠ [] := List.ne_nil_of_length_eq_add_one length
    exact lineRest_number hsome (by rw [length]; rfl) number
  | @eight digits length number =>
    have hsome : digits ≠ [] := List.ne_nil_of_length_eq_add_one length
    exact lineRest_number hsome (by rw [length]; rfl) number

/-- Characters that are written are read up to the closing quotation mark, behind those that are
done. -/
theorem lineRest_basicChars {cs w : List Char} (h : BasicChars cs w) :
    lineRest '\x22' false .plain done (w ++ '\x22' :: rest) = some (done.reverse ++ cs, rest) := by
  induction h generalizing done with
  | nil =>
    rw [List.nil_append, lineRest, if_pos rfl, List.append_nil]
    · nofun
    · nofun
  | cons first _ ih =>
    rw [List.append_assoc, lineRest_basicChar first, ih, List.reverse_cons, List.append_assoc,
      List.singleton_append]

/-- A basic string that is written is read up to its closing quotation mark. -/
theorem line_of_basicChars (rest : List Char) {cs w : List Char} (h : BasicChars cs w) :
    line '\x22' (w ++ '\x22' :: rest) = some (cs, rest) :=
  lineRest_basicChars h

/-- A text between quotation marks is read back.  No third mark may follow them, since two marks and
a third open a text on several lines. -/
theorem text_of_basicChars {cs w : List Char} (h : BasicChars cs w)
    (hrest : rest.head? ≠ some '\x22') :
    text '\x22' (w ++ '\x22' :: rest) = some (cs, rest) := by
  have hline : text '\x22' (w ++ '\x22' :: rest) = line '\x22' (w ++ '\x22' :: rest) := by
    cases h with
    | nil =>
      cases rest with
      | nil => rfl
      | cons next rest =>
        have hnext : next ≠ '\x22' := by simpa using hrest
        rw [List.nil_append, text, if_neg (fun hmarks => hnext hmarks.2)]
    | @cons c cs w ws first others =>
      obtain ⟨a, w', rfl, ha⟩ : ∃ a w', w = a :: w' ∧ a ≠ '\x22' := by
        cases first with
        | itself _ noMark _ => exact ⟨c, [], rfl, noMark⟩
        | short _ => exact ⟨_, _, rfl, by decide⟩
        | four _ _ => exact ⟨_, _, rfl, by decide⟩
        | eight _ _ => exact ⟨_, _, rfl, by decide⟩
      have hsplit : ∃ b more, a :: w' ++ ws ++ '\x22' :: rest = a :: b :: more := by
        cases hmore : w' ++ ws ++ '\x22' :: rest with
        | nil => simp at hmore
        | cons b more => exact ⟨b, more, by rw [← hmore]; simp⟩
      obtain ⟨b, more, hsplit⟩ := hsplit
      rw [hsplit, text, if_neg (fun hmarks => ha hmarks.1)]
  rw [hline, line_of_basicChars rest h]

/-- Between single marks every character stands for itself. -/
theorem line_of_literal (rest : List Char) {cs : List Char}
    (h : ∀ c ∈ cs, IsTextChar c ∧ c ≠ '\x27') :
    line '\x27' (cs ++ '\x27' :: rest) = some (cs, rest) := by
  have hrest : ∀ done, lineRest '\x27' true .plain done (cs ++ '\x27' :: rest) =
      some (done.reverse ++ cs, rest) := by
    induction cs with
    | nil =>
      intro done
      rw [List.nil_append, lineRest, if_pos rfl, List.append_nil]
      · nofun
      · nofun
    | cons c cs ih =>
      intro done
      rw [List.forall_mem_cons] at h
      rw [List.cons_append, lineRest, if_neg h.1.2, if_neg (by simp),
        if_pos (isTextChar_iff.mpr h.1.1), ih h.2, List.reverse_cons, List.append_assoc,
        List.singleton_append]
      · nofun
      · nofun
  exact hrest []

end Quotation

/-! ## They are written on one line -/

namespace OnOneLine

variable {s rest : List Char}

/-- Nothing is on one line. -/
theorem nil : OnOneLine [] := by
  intro x hx
  cases hx

/-- A text character in front of what is on one line is on one line. -/
theorem cons {x : Char} (hx : IsTextChar x) (hs : OnOneLine s) : OnOneLine (x :: s) :=
  List.forall_mem_cons.mpr ⟨hx, hs⟩

/-- What is on one line, in front of what is too, is on one line. -/
theorem append (hs : OnOneLine s) (hrest : OnOneLine rest) : OnOneLine (s ++ rest) :=
  List.forall_mem_append.mpr ⟨hs, hrest⟩

end OnOneLine

/-- A hexadecimal digit is a text character. -/
theorem isTextChar_of_digit {value : Nat} {digit : Char}
    (h : value < 16 ∧ (digit = Text.hexDigit value ∨ digit = Text.upperHexDigit value)) :
    IsTextChar digit := by
  have hdigits : ∀ value < 16,
      IsTextChar (Text.hexDigit value) ∧ IsTextChar (Text.upperHexDigit value) := by decide
  obtain ⟨hvalue, rfl | rfl⟩ := h
  · exact (hdigits value hvalue).1
  · exact (hdigits value hvalue).2

/-- A number in hexadecimal digits is on one line. -/
theorem HexNumeral.onOneLine {digits : List Char} {n : Nat} (h : HexNumeral digits n) :
    OnOneLine digits := by
  obtain ⟨values, -, hdigits⟩ := h
  induction hdigits with
  | nil => exact .nil
  | cons hdigit _ ih => exact .cons (isTextChar_of_digit hdigit) ih

/-- A character is written on one line. -/
theorem BasicChar.onOneLine {c : Char} {w : List Char} (h : BasicChar c w) : OnOneLine w := by
  cases h with
  | itself text _ _ => exact .cons text .nil
  | short escape =>
    have hletters : ∀ pair ∈ shortEscapes, IsTextChar pair.1 := by decide
    exact .cons (by decide) (.cons (hletters _ escape) .nil)
  | four _ number => exact .cons (by decide) (.cons (by decide) number.onOneLine)
  | eight _ number => exact .cons (by decide) (.cons (by decide) number.onOneLine)

/-- Characters are written on one line. -/
theorem BasicChars.onOneLine {cs w : List Char} (h : BasicChars cs w) : OnOneLine w := by
  induction h with
  | nil => exact .nil
  | cons first _ ih => exact .append first.onOneLine ih

/-- A basic string is on one line. -/
theorem BasicString.onOneLine {s : String} {w : List Char} (h : BasicString s w) :
    OnOneLine w := by
  obtain ⟨chars⟩ := h
  exact .cons (by decide) (.append chars.onOneLine (.cons (by decide) .nil))

/-! ## Every text can be written -/

/-- A number that fits has a numeral of that length. -/
theorem exists_hexNumeral (length : Nat) {n : Nat} (h : n < 16 ^ length) :
    ∃ digits, digits.length = length ∧ HexNumeral digits n := by
  induction length generalizing n with
  | zero =>
    obtain rfl : n = 0 := by simpa using h
    exact ⟨[], rfl, [], rfl, .nil⟩
  | succ length ih =>
    have hlast : n % 16 < 16 := Nat.mod_lt n (by decide)
    have hhigh : n / 16 < 16 ^ length := by
      rw [Nat.pow_succ] at h
      omega
    obtain ⟨digits, hlength, values, hnumber, hdigits⟩ := ih hhigh
    refine ⟨digits ++ [Text.hexDigit (n % 16)], by simp [hlength], values ++ [n % 16], ?_, ?_⟩
    · rw [List.reverse_append, List.reverse_singleton, List.singleton_append, Nat.ofDigits_cons,
        ← hnumber]
      omega
    · exact List.rel_append hdigits (.cons ⟨hlast, .inl rfl⟩ .nil)

/-- Every character can be written. -/
theorem exists_basicChar (c : Char) : ∃ w, BasicChar c w := by
  have hbound : c.toNat < 16 ^ 8 := by
    have hvalid : c.toNat < 0xD800 ∨ 0xDFFF < c.toNat ∧ c.toNat < 0x110000 := c.valid
    omega
  obtain ⟨digits, hlength, hnumber⟩ := exists_hexNumeral 8 hbound
  exact ⟨_, .eight hlength hnumber⟩

/-- Every text can be written as a basic string. -/
theorem exists_basicString (s : String) : ∃ w, BasicString s w := by
  have hchars : ∀ cs, ∃ w, BasicChars cs w := by
    intro cs
    induction cs with
    | nil => exact ⟨[], .nil⟩
    | cons c cs ih =>
      obtain ⟨w, hfirst⟩ := exists_basicChar c
      obtain ⟨ws, hothers⟩ := ih
      exact ⟨w ++ ws, .cons hfirst hothers⟩
  obtain ⟨w, hchars⟩ := hchars s.toList
  exact ⟨_, .quoted hchars⟩

/-- A text without marks, backslashes and control characters may be written as it is. -/
theorem BasicChars.of_plain {cs : List Char} (hline : OnOneLine cs) (hmark : '\x22' ∉ cs)
    (hescape : '\\' ∉ cs) : BasicChars cs cs := by
  induction cs with
  | nil => exact .nil
  | cons c cs ih =>
    obtain ⟨htext, hothers⟩ := List.forall_mem_cons.mp hline
    rw [List.mem_cons, not_or] at hmark hescape
    exact .cons (.itself htext (Ne.symm hmark.1) (Ne.symm hescape.1))
      (ih hothers hmark.2 hescape.2)

end PlatformAdmin.Toml
