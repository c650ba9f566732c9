/-!
# Blank characters and trimming

The program trims what a user typed, what a token holds and what a warning header lists.
A blank is a character with the Unicode property `White_Space`; `trim` takes the blanks off
both ends of a text and `dropTrailing` takes any kind of character off the end alone.
-/

set_option autoImplicit false

namespace PlatformAdmin.Text

/-- A blank is a character that has the Unicode property `White_Space`. -/
def isBlank (c : Char) : Bool :=
  let n := c.toNat
  (9 ≤ n && n ≤ 13) || n == 0x20 || n == 0x85 || n == 0xA0 || n == 0x1680
    || (0x2000 ≤ n && n ≤ 0x200A) || n == 0x2028 || n == 0x2029 || n == 0x202F
    || n == 0x205F || n == 0x3000

/-- What remains of a list once the longest ending of elements that satisfy `p` is gone. -/
def dropTrailing {α : Type} (p : α → Bool) (s : List α) : List α :=
  (s.reverse.dropWhile p).reverse

/-- What remains of a list once such elements are gone from both ends. -/
def dropAround {α : Type} (p : α → Bool) (s : List α) : List α :=
  dropTrailing p (s.dropWhile p)

/-- A text without the blanks at its two ends. -/
def trim (s : String) : String :=
  String.ofList (dropAround isBlank s.toList)

end PlatformAdmin.Text
