import Mathlib.Tactic.SplitIfs
import PlatformAdmin.Text.Utf8

/-!
# Reading what was encoded

The UTF-8 form of a text is read back as that text.  A character is one lead byte with up to three
further bytes; `Scan.lead` tells from the first how many are missing and in which range the next
has to lie, and each of them adds six bits.  `decodeFrom_utf8EncodeChar` takes one character of any
length, whatever follows it, and `decode?_encode` is the whole text.
-/

set_option autoImplicit false

namespace PlatformAdmin.Text.Utf8

variable {b value missing low high n : Nat} {rest : List UInt8}

/-! ## Lead bytes -/

/-- A byte of ASCII is a character of its own. -/
theorem Scan.lead_one (h : b < 0x80) : lead b = (.between, [some (Char.ofNat b)]) := by
  rw [lead, if_pos h]

/-- A lead byte of two has one more to come. -/
theorem Scan.lead_two (hlow : 0xC2 ≤ b) (hhigh : b < 0xE0) :
    lead b = (.within (b - 0xC0) 1 0x80 0xBF, []) := by
  rw [lead, if_neg (by omega), if_neg (by omega), if_pos hhigh]

/-- The first of three bytes; the second may not make the form overlong, or a surrogate. -/
theorem Scan.lead_three (hlow : 0xE0 ≤ b) (hhigh : b < 0xF0) :
    lead b = (.within (b - 0xE0) 2 (if b = 0xE0 then 0xA0 else 0x80)
      (if b = 0xED then 0x9F else 0xBF), []) := by
  rw [lead, if_neg (by omega), if_neg (by omega), if_neg (by omega)]
  by_cases h0 : b = 0xE0
  · subst h0
    rfl
  · by_cases hD : b = 0xED
    · subst hD
      rfl
    · rw [if_neg h0, if_neg hD, if_pos hhigh, if_neg h0, if_neg hD]

/-- The first of four bytes; the second may not make the form overlong, or the number too great. -/
theorem Scan.lead_four (hlow : 0xF0 ≤ b) (hhigh : b ≤ 0xF4) :
    lead b = (.within (b - 0xF0) 3 (if b = 0xF0 then 0x90 else 0x80)
      (if b = 0xF4 then 0x8F else 0xBF), []) := by
  rw [lead, if_neg (by omega), if_neg (by omega), if_neg (by omega), if_neg (by omega),
    if_neg (by omega), if_neg (by omega)]
  by_cases h0 : b = 0xF0
  · subst h0
    rfl
  · by_cases h4 : b = 0xF4
    · subst h4
      rfl
    · rw [if_neg h0, if_pos (by omega), if_neg h0, if_neg h4]

/-! ## Bytes in a row -/

/-- A number that fits into a byte is kept in it. -/
theorem toNat_ofNat_of_lt (h : n < 256) : (UInt8.ofNat n).toNat = n := by
  rw [UInt8.toNat_ofNat', Nat.mod_eq_of_lt h]

/-- Between characters the next byte is taken as a lead byte. -/
theorem decodeFrom_lead (h : n < 256) :
    decodeFrom .between (UInt8.ofNat n :: rest) =
      (Scan.lead n).2 ++ decodeFrom (Scan.lead n).1 rest := by
  rw [decodeFrom, toNat_ofNat_of_lt h, Scan.step]

/-- Any byte but the last adds its bits. -/
theorem decodeFrom_within (hlow : low ≤ n + 0x80) (hhigh : n + 0x80 ≤ high) (hbits : n < 64) :
    decodeFrom (.within value (missing + 2) low high) (UInt8.ofNat (n + 0x80) :: rest) =
      decodeFrom (.within (value * 64 + n) (missing + 1) 0x80 0xBF) rest := by
  rw [decodeFrom, toNat_ofNat_of_lt (by omega), Scan.step, if_pos ⟨hlow, hhigh⟩]
  simp

/-- The last byte completes the character. -/
theorem decodeFrom_last (hlow : low ≤ n + 0x80) (hhigh : n + 0x80 ≤ high) (hbits : n < 64) :
    decodeFrom (.within value 1 low high) (UInt8.ofNat (n + 0x80) :: rest) =
      some (Char.ofNat (value * 64 + n)) :: decodeFrom .between rest := by
  rw [decodeFrom, toNat_ofNat_of_lt (by omega), Scan.step, if_pos ⟨hlow, hhigh⟩]
  simp

/-- A character is read back, whatever follows it. -/
theorem decodeFrom_utf8EncodeChar (c : Char) (rest : List UInt8) :
    decodeFrom .between (String.utf8EncodeChar c ++ rest) = some c :: decodeFrom .between rest := by
  have hc : ∀ n, n = c.toNat → some (Char.ofNat n) :: decodeFrom .between rest =
      some c :: decodeFrom .between rest := by
    rintro n rfl
    rw [Char.ofNat_toNat]
  have hvalid : c.toNat < 0xD800 ∨ 0xDFFF < c.toNat ∧ c.toNat < 0x110000 := c.valid
  have hval : c.val.toNat = c.toNat := rfl
  unfold String.utf8EncodeChar
  simp only [hval]
  generalize c.toNat = v at hc hvalid
  split_ifs with h1 h2 h3
  · rw [List.singleton_append, decodeFrom_lead (by omega), Scan.lead_one (by omega)]
    exact hc v rfl
  · rw [List.cons_append, List.singleton_append, decodeFrom_lead (by omega),
      Scan.lead_two (by omega) (by omega), List.nil_append,
      decodeFrom_last (by omega) (by omega) (by omega)]
    exact hc _ (by omega)
  · rw [List.cons_append, List.cons_append, List.singleton_append, decodeFrom_lead (by omega),
      Scan.lead_three (by omega) (by omega), List.nil_append,
      decodeFrom_within (by split_ifs <;> omega) (by split_ifs <;> omega) (by omega),
      decodeFrom_last (by omega) (by omega) (by omega)]
    exact hc _ (by omega)
  · rw [List.cons_append, List.cons_append, List.cons_append, List.singleton_append,
      decodeFrom_lead (by omega), Scan.lead_four (by omega) (by omega), List.nil_append,
      decodeFrom_within (by split_ifs <;> omega) (by split_ifs <;> omega) (by omega),
      decodeFrom_within (by omega) (by omega) (by omega),
      decodeFrom_last (by omega) (by omega) (by omega)]
    exact hc _ (by omega)

/-- Characters that were spelled one by one are read again one by one. -/
theorem decode_flatMap_utf8EncodeChar (s : List Char) :
    decode (s.flatMap String.utf8EncodeChar) = s.map some := by
  unfold decode
  induction s with
  | nil => rfl
  | cons c s ih => rw [List.flatMap_cons, decodeFrom_utf8EncodeChar, ih, List.map_cons]

/-- A text is what its UTF-8 form is read as. -/
theorem decode?_encode (text : String) : decode? (encode text) = some text := by
  rw [decode?, encode, decode_flatMap_utf8EncodeChar, text?_map_some, String.ofList_toList]

end PlatformAdmin.Text.Utf8
