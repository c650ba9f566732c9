/-!
# Hexadecimal numerals

Escapes of several formats write a character or a byte by its number in base sixteen.  Digits
are written in lower or upper case, and read in either.
-/

set_option autoImplicit false

namespace PlatformAdmin.Text

/-- One digit, in lower case. -/
def hexDigit (n : Nat) : Char :=
  if n < 10 then Char.ofNat (0x30 + n) else Char.ofNat (0x61 + (n - 10))

/-- One digit, in upper case. -/
def upperHexDigit (n : Nat) : Char :=
  if n < 10 then Char.ofNat (0x30 + n) else Char.ofNat (0x41 + (n - 10))

/-- A number in lower case, with at least one digit. -/
def hexNumber (n : Nat) : List Char :=
  if n < 16 then [hexDigit n] else hexNumber (n / 16) ++ [hexDigit (n % 16)]
termination_by n

/-- The value of a digit. -/
def hexValue? (c : Char) : Option Nat :=
  if '0' ≤ c ∧ c ≤ '9' then some (c.toNat - 0x30)
  else if 'a' ≤ c ∧ c ≤ 'f' then some (c.toNat - 0x61 + 10)
  else if 'A' ≤ c ∧ c ≤ 'F' then some (c.toNat - 0x41 + 10)
  else none

/-- A digit in lower case reads as what was written. -/
@[simp] theorem hexValue?_hexDigit {n : Nat} (h : n < 16) : hexValue? (hexDigit n) = some n := by
  revert n
  decide

/-- A digit in upper case reads as what was written. -/
@[simp] theorem hexValue?_upperHexDigit {n : Nat} (h : n < 16) :
    hexValue? (upperHexDigit n) = some n := by
  revert n
  decide

end PlatformAdmin.Text
