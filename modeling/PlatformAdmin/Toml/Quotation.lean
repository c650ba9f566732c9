import PlatformAdmin.Text.Hexadecimal

/-!
# Quoted TOML text

Text is quoted in four ways: between double or single quotation marks, on one line or, between
tripled marks, on several.  Within double marks a backslash begins an escape; within single
marks it stands for itself.  On several lines one or two marks may stand in the text, also right
before the closing ones, a line end after the opening marks is dropped, and between double marks
a backslash at the end of a line takes the line end and all blanks after it along.

Line ends have been made single line feeds before text is read.
-/

set_option autoImplicit false

namespace PlatformAdmin.Toml

/-- A part of the reading of a text: what was read, and what follows it. -/
abbrev Reader (α : Type) : Type := List Char → Option (α × List Char)

/-- A blank within a line. -/
def isBlank (c : Char) : Bool :=
  c == ' ' || c == '\t'

/-- A character of a comment or of quoted text: none of the control characters but the tab. -/
def isTextChar (c : Char) : Bool :=
  c == '\t' || (0x20 ≤ c.toNat && c.toNat != 0x7F)

namespace Quotation

/-- The character that an escape of two characters stands for. -/
def escaped? (c : Char) : Option Char :=
  if c = 'b' then some (Char.ofNat 8)
  else if c = 't' then some '\t'
  else if c = 'n' then some '\n'
  else if c = 'f' then some (Char.ofNat 12)
  else if c = 'r' then some '\r'
  else if c = '\x22' then some '\x22'
  else if c = '\\' then some '\\'
  else none

/-- The character of a number, if it is one. -/
def scalar? (n : Nat) : Option Char :=
  if n.isValidChar then some (Char.ofNat n) else none

/-- Where the reading of quoted text stands. -/
inductive Place
  | plain
  /-- So many quotation marks were read in a row. -/
  | marks (count : Nat)
  /-- A backslash was read. -/
  | escape
  /-- So many hexadecimal digits are missing, after digits with this value. -/
  | digits (missing value : Nat)
  /-- A backslash and blanks were read; the line has to end. -/
  | lineEnd
  /-- The blanks at the beginning of the next lines are skipped. -/
  | margin
  deriving DecidableEq, Repr

/-- The second character of an escape. -/
def stepEscape (done : List Char) (c : Char) : Option (Place × List Char) :=
  if c = 'u' then some (.digits 4 0, done)
  else if c = 'U' then some (.digits 8 0, done)
  else (escaped? c).map fun e => (.plain, e :: done)

/-- A digit of an escape by number. -/
def stepDigit (missing value : Nat) (done : List Char) (c : Char) :
    Option (Place × List Char) := do
  let d ← Text.hexValue? c
  let value := value * 16 + d
  if missing = 1 then (scalar? value).map fun e => (.plain, e :: done)
  else some (.digits (missing - 1) value, done)

/-- The rest of a text on one line, after its opening mark.  `done` is what was read, last
first, and `raw` says that a backslash stands for itself. -/
def lineRest (mark : Char) (raw : Bool) : Place → List Char → Reader (List Char)
  | _, _, [] => none
  | .escape, done, c :: rest =>
    match stepEscape done c with
    | some (place, done) => lineRest mark raw place done rest
    | none => none
  | .digits missing value, done, c :: rest =>
    match stepDigit missing value done c with
    | some (place, done) => lineRest mark raw place done rest
    | none => none
  | _, done, c :: rest =>
    if c = mark then some (done.reverse, rest)
    else if c = '\\' ∧ raw = false then lineRest mark raw .escape done rest
    else if isTextChar c then lineRest mark raw .plain (c :: done) rest
    else none

/-- A character of a text on several lines that continues no escape and no row of marks. -/
def stepPlain (mark : Char) (raw : Bool) (done : List Char) (c : Char) :
    Option (Place × List Char) :=
  if c = mark then some (.marks 1, done)
  else if c = '\\' ∧ raw = false then some (.escape, done)
  else if isTextChar c ∨ c = '\n' then some (.plain, c :: done)
  else none

/-- The text that ends in a row of marks, of which the last three close it. -/
def closed (mark : Char) (count : Nat) (done : List Char) : List Char :=
  (List.replicate (count - 3) mark ++ done).reverse

/-- Whether a row of marks closes a text: the last three do, and two more may belong to it. -/
def closes (count : Nat) : Bool :=
  3 ≤ count && count ≤ 5

/-- The rest of a text on several lines, after its opening marks. -/
def blockRest (mark : Char) (raw : Bool) : Place → List Char → Reader (List Char)
  | .marks count, done, [] => if closes count then some (closed mark count done, []) else none
  | _, _, [] => none
  | .plain, done, c :: rest =>
    match stepPlain mark raw done c with
    | some (place, done) => blockRest mark raw place done rest
    | none => none
  | .marks count, done, c :: rest =>
    if c = mark then blockRest mark raw (.marks (count + 1)) done rest
    else if closes count then some (closed mark count done, c :: rest)
    else if count < 3 then
      match stepPlain mark raw (List.replicate count mark ++ done) c with
      | some (place, done) => blockRest mark raw place done rest
      | none => none
    else none
  | .escape, done, c :: rest =>
    if c = '\n' then blockRest mark raw .margin done rest
    else if isBlank c then blockRest mark raw .lineEnd done rest
    else
      match stepEscape done c with
      | some (place, done) => blockRest mark raw place done rest
      | none => none
  | .digits missing value, done, c :: rest =>
    match stepDigit missing value done c with
    | some (place, done) => blockRest mark raw place done rest
    | none => none
  | .lineEnd, done, c :: rest =>
    if c = '\n' then blockRest mark raw .margin done rest
    else if isBlank c then blockRest mark raw .lineEnd done rest
    else none
  | .margin, done, c :: rest =>
    if c = '\n' ∨ isBlank c then blockRest mark raw .margin done rest
    else
      match stepPlain mark raw done c with
      | some (place, done) => blockRest mark raw place done rest
      | none => none

/-- A text on one line whose opening mark has been read. -/
def line (mark : Char) : Reader (List Char) :=
  lineRest mark (mark == '\x27') .plain []

/-- A text on several lines whose opening marks have been read. -/
def block (mark : Char) : Reader (List Char)
  | '\n' :: rest => blockRest mark (mark == '\x27') .plain [] rest
  | rest => blockRest mark (mark == '\x27') .plain [] rest

/-- Whether a character opens quoted text. -/
def isMark (c : Char) : Bool :=
  c == '\x22' || c == '\x27'

/-- A quoted text, on one line or several, whose first mark has been read. -/
def text (mark : Char) : Reader (List Char)
  | a :: b :: rest =>
    if a = mark ∧ b = mark then block mark rest else line mark (a :: b :: rest)
  | rest => line mark rest

end Quotation

end PlatformAdmin.Toml
