/-!
# Reading bytes as text

Bytes come from files, from standard input, from the environment and from the network.
`decode` reads them as UTF-8: each character that the bytes spell is `some`, and each longest
run of bytes that can begin a character but does not complete one, and each byte that begins
none, is one `none`.  A strict reader (`text?`) refuses a `none`; a lenient one (`lenient`)
puts U+FFFD in its place.

The reader is a scan over the bytes, so it is total by recursion on them.
-/

set_option autoImplicit false

namespace PlatformAdmin.Text.Utf8

/-- Where the scan stands: between characters, or within one, with the value read so far, the
number of bytes that are still missing and the range in which the next byte has to lie.  The
range is narrower than `0x80` to `0xBF` after the four lead bytes whose full range would spell
an overlong form, a surrogate or a value past `0x10FFFF`. -/
inductive Scan
  | between
  | within (value missing low high : Nat)
  deriving DecidableEq, Repr

/-- A byte read between characters: a character of its own, a lead byte, or neither. -/
def Scan.lead (b : Nat) : Scan × List (Option Char) :=
  if b < 0x80 then (.between, [some (Char.ofNat b)])
  else if b < 0xC2 then (.between, [none])
  else if b < 0xE0 then (.within (b - 0xC0) 1 0x80 0xBF, [])
  else if b = 0xE0 then (.within 0 2 0xA0 0xBF, [])
  else if b = 0xED then (.within 0xD 2 0x80 0x9F, [])
  else if b < 0xF0 then (.within (b - 0xE0) 2 0x80 0xBF, [])
  else if b = 0xF0 then (.within 0 3 0x90 0xBF, [])
  else if b < 0xF4 then (.within (b - 0xF0) 3 0x80 0xBF, [])
  else if b = 0xF4 then (.within 4 3 0x80 0x8F, [])
  else (.between, [none])

/-- One byte of the scan, with what it completes.  A byte that does not continue the character
it was expected in ends it, and is then read afresh. -/
def Scan.step : Scan → Nat → Scan × List (Option Char)
  | .between, b => Scan.lead b
  | .within value missing low high, b =>
    if low ≤ b ∧ b ≤ high then
      let value := value * 64 + (b - 0x80)
      if missing = 1 then (.between, [some (Char.ofNat value)])
      else (.within value (missing - 1) 0x80 0xBF, [])
    else
      let (s, out) := Scan.lead b
      (s, none :: out)

/-- The characters that the bytes spell from where the scan stands; input that ends within a
character leaves one `none`. -/
def decodeFrom : Scan → List UInt8 → List (Option Char)
  | .between, [] => []
  | .within _ _ _ _, [] => [none]
  | s, b :: bs => (s.step b.toNat).2 ++ decodeFrom (s.step b.toNat).1 bs

/-- The characters that the bytes spell, with `none` for each part that spells none. -/
def decode (bytes : List UInt8) : List (Option Char) :=
  decodeFrom .between bytes

/-- The text that characters make up, if each of them is one. -/
def text? (chars : List (Option Char)) : Option String :=
  (chars.mapM id).map String.ofList

/-- The text that characters make up, with U+FFFD where there is none. -/
def lenient (chars : List (Option Char)) : String :=
  String.ofList (chars.map (·.getD '\uFFFD'))

/-- The text that the bytes spell, if they are valid. -/
def decode? (bytes : List UInt8) : Option String :=
  text? (decode bytes)

/-- The bytes that spell a text. -/
def encode (s : String) : List UInt8 :=
  s.toList.flatMap String.utf8EncodeChar

/-- A text is the text of its characters. -/
theorem text?_map_some (s : List Char) : text? (s.map some) = some (String.ofList s) := by
  have h : (s.map some).mapM id = some s := by
    induction s with
    | nil => rfl
    | cons c s ih => simp [List.mapM_cons, ih]
  simp [text?, h]

end PlatformAdmin.Text.Utf8
