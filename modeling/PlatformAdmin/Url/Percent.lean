import PlatformAdmin.Text.Hexadecimal

/-!
# Percent-encoding

A URL writes what it cannot hold as it is by the bytes of its UTF-8 form, each as a percent
sign and two upper-case hexadecimal digits.  What a part of a URL can hold is a class of
characters; `encodeExcept` writes the others in this way.  A form, which is how a query lists
named values, writes a space as a plus sign besides.

`decode` undoes the encoding: it yields the bytes that a text stands for.
-/

set_option autoImplicit false

namespace PlatformAdmin.Url

/-- A byte, percent-encoded. -/
def percentByte (b : UInt8) : List Char :=
  ['%', Text.upperHexDigit (b.toNat / 16), Text.upperHexDigit (b.toNat % 16)]

/-- A character, percent-encoded. -/
def percentChar (c : Char) : List Char :=
  (String.utf8EncodeChar c).flatMap percentByte

/-- A text in which the characters of a class stand for themselves. -/
def encodeExcept (keeps : Char → Bool) (s : List Char) : List Char :=
  s.flatMap fun c => if keeps c then [c] else percentChar c

/-- The characters that stand for themselves in a form. -/
def formKeeps (c : Char) : Bool :=
  c.isAlphanum || c == '*' || c == '-' || c == '.' || c == '_'

/-- A name or value in a form. -/
def formEncode (s : List Char) : List Char :=
  s.flatMap fun c => if c = ' ' then ['+'] else if formKeeps c then [c] else percentChar c

/-- The bytes that a percent-encoded text stands for.  A percent sign that two hexadecimal
digits do not follow stands for itself. -/
def decode : List Char → List UInt8
  | [] => []
  | '%' :: a :: b :: rest =>
    match Text.hexValue? a, Text.hexValue? b with
    | some high, some low => UInt8.ofNat (high * 16 + low) :: decode rest
    | _, _ => 0x25 :: decode (a :: b :: rest)
  | c :: rest => String.utf8EncodeChar c ++ decode rest

/-- The bytes that a name or value in a form stands for. -/
def formDecode (s : List Char) : List UInt8 :=
  decode (s.map fun c => if c = '+' then ' ' else c)

end PlatformAdmin.Url
