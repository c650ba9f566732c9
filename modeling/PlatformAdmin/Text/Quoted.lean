import PlatformAdmin.Text.Hexadecimal
import PlatformAdmin.Text.Unprintable

/-!
# Quoted text and described records

Descriptions of values, such as those a log shows, write a text between quotation marks and a
record as its name with its fields in braces.  Within quotation marks the quotation mark, the
backslash and the usual control characters have escapes of two characters, any other
unprintable character is written by its number, and everything else stands for itself.
-/

set_option autoImplicit false

namespace PlatformAdmin.Text

/-- How a character is written between quotation marks. -/
def quotedChar (c : Char) : List Char :=
  if c = '\x22' then ['\\', '\x22']
  else if c = '\\' then ['\\', '\\']
  else if c = '\n' then ['\\', 'n']
  else if c = '\r' then ['\\', 'r']
  else if c = '\t' then ['\\', 't']
  else if c = '\x00' then ['\\', '0']
  else if isUnprintable c then ['\\', 'u', '\x7b'] ++ hexNumber c.toNat ++ ['\x7d']
  else [c]

/-- A text between quotation marks. -/
def quoted (s : String) : String :=
  String.ofList ('\x22' :: s.toList.flatMap quotedChar ++ ['\x22'])

/-- An optional value, described: `None`, or the description in `Some(…)`. -/
def describeOption (value : Option String) : String :=
  match value with
  | none => "None"
  | some text => "Some(" ++ text ++ ")"

/-- A truth value, described. -/
def describeBool (b : Bool) : String :=
  if b then "true" else "false"

/-- A record, described: its name and its fields with their described values, in order. -/
def describeRecord (name : String) (fields : List (String × String)) : String :=
  name ++ " \x7b " ++ ", ".intercalate (fields.map fun f => f.1 ++ ": " ++ f.2) ++ " \x7d"

end PlatformAdmin.Text
