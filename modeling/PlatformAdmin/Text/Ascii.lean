/-!
# Text compared without regard to ASCII case

Answers to questions, names of headers and the scheme of an access token are compared with
the letters `A` to `Z` counted as their lower-case forms and every other character as itself.
-/

set_option autoImplicit false

namespace PlatformAdmin.Text

/-- The characters with the ASCII letters in lower case. -/
def lowerAscii (s : List Char) : List Char :=
  s.map Char.toLower

/-- Whether two texts agree but for the case of ASCII letters. -/
def equalsIgnoringCase (s t : String) : Bool :=
  lowerAscii s.toList == lowerAscii t.toList

end PlatformAdmin.Text
