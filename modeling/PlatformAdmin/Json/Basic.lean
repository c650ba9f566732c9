import PlatformAdmin.Text.Hexadecimal

/-!
# JSON values and their compact text

A JSON value as it travels in messages.  A string usually denotes a text; one that holds a lone
surrogate or bytes that are no character denotes none, which matters only to those who ask for
its text.  A number is kept as it is written.  Members of an object keep their order and may
repeat a key.

`Json.print` writes a value without blanks.
-/

set_option autoImplicit false

namespace PlatformAdmin

/-- A JSON value. -/
inductive Json
  | null
  | bool (b : Bool)
  | number (lexeme : String)
  | string (text : Option String)
  | array (items : List Json)
  | object (members : List (Option String × Json))
  deriving Repr

namespace Json

/-- The string that denotes a text. -/
def ofText (s : String) : Json := .string (some s)

/-- The object with these members. -/
def ofMembers (members : List (String × Json)) : Json :=
  .object (members.map fun m => (some m.1, m.2))

/-- How a character is written in a string: quotation mark, backslash and control characters
are escaped, and everything else stands for itself. -/
def printChar (c : Char) : List Char :=
  if c = '\x22' then ['\\', '\x22']
  else if c = '\\' then ['\\', '\\']
  else if c = '\n' then ['\\', 'n']
  else if c = '\r' then ['\\', 'r']
  else if c = '\t' then ['\\', 't']
  else if c.toNat = 8 then ['\\', 'b']
  else if c.toNat = 12 then ['\\', 'f']
  else if c.toNat < 0x20 then
    ['\\', 'u', '0', '0', Text.hexDigit (c.toNat / 16), Text.hexDigit (c.toNat % 16)]
  else [c]

/-- A string; one that denotes no text is written as a lone surrogate. -/
def printString : Option String → List Char
  | some s => '\x22' :: s.toList.flatMap printChar ++ ['\x22']
  | none => '\x22' :: ['\\', 'u', 'd', '8', '0', '0'] ++ ['\x22']

mutual

/-- A value, without blanks. -/
def print : Json → List Char
  | .null => ['n', 'u', 'l', 'l']
  | .bool true => ['t', 'r', 'u', 'e']
  | .bool false => ['f', 'a', 'l', 's', 'e']
  | .number lexeme => lexeme.toList
  | .string text => printString text
  | .array [] => ['[', ']']
  | .array (item :: items) => '[' :: (print item ++ printItems items)
  | .object [] => ['\x7b', '\x7d']
  | .object (member :: members) => '\x7b' :: (printMember member ++ printMembers members)

/-- The further items of an array, with its end. -/
def printItems : List Json → List Char
  | [] => [']']
  | item :: items => ',' :: (print item ++ printItems items)

/-- A member of an object. -/
def printMember : Option String × Json → List Char
  | (key, value) => printString key ++ ':' :: print value

/-- The further members of an object, with its end. -/
def printMembers : List (Option String × Json) → List Char
  | [] => ['\x7d']
  | member :: members => ',' :: (printMember member ++ printMembers members)

end

/-- The compact text of a value. -/
def compact (v : Json) : String := String.ofList v.print

end Json

end PlatformAdmin
