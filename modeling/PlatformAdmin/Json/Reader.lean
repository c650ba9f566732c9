import PlatformAdmin.Json.Basic
import PlatformAdmin.Text.Hexadecimal
import PlatformAdmin.Text.Utf8

/-!
# Reading JSON

The reader takes one character after another, and keeps what it has read of the values that
are still open on a stack; so it is total by recursion on the text, and depth costs it nothing.
It accepts exactly one JSON value with blanks around it.  A character that is `none` stands for
bytes that spell none; it may stand in a string, which then denotes no text.
-/

set_option autoImplicit false

namespace PlatformAdmin.Json

/-! ## Strings -/

/-- What an escape still lacks. -/
inductive Escape
  /-- No escape has begun. -/
  | plain
  /-- A backslash was read. -/
  | begun
  /-- So many hexadecimal digits are missing, after digits with this value. -/
  | hex (missing value : Nat)
  deriving DecidableEq, Repr

/-- A string of which part has been read. -/
structure StringScan where
  /-- What was read, last first. -/
  done : List (Option Char) := []
  /-- An escaped high surrogate that waits for its other half. -/
  high : Option Nat := none
  escape : Escape := .plain
  deriving DecidableEq, Repr

namespace StringScan

/-- What was read, last first; a high surrogate that stayed alone is no character. -/
def settled (s : StringScan) : List (Option Char) :=
  match s.high with
  | none => s.done
  | some _ => none :: s.done

/-- The scan with one character more. -/
def push (s : StringScan) (c : Option Char) : StringScan :=
  { done := c :: s.settled }

/-- The scan with one escaped UTF-16 unit more. -/
def pushUnit (s : StringScan) (u : Nat) : StringScan :=
  if 0xDC00 ≤ u ∧ u ≤ 0xDFFF then
    match s.high with
    | some h =>
      { done := some (Char.ofNat (0x10000 + (h - 0xD800) * 0x400 + (u - 0xDC00))) :: s.done }
    | none => s.push none
  else if 0xD800 ≤ u ∧ u ≤ 0xDBFF then { done := s.settled, high := some u }
  else s.push (some (Char.ofNat u))

/-- The character that an escape of two characters stands for. -/
def escaped? (c : Char) : Option Char :=
  if c = '\x22' then some '\x22'
  else if c = '\\' then some '\\'
  else if c = '/' then some '/'
  else if c = 'b' then some (Char.ofNat 8)
  else if c = 'f' then some (Char.ofNat 12)
  else if c = 'n' then some '\n'
  else if c = 'r' then some '\r'
  else if c = 't' then some '\t'
  else none

/-- One character of a string, before its end: the scan goes on, or the text is no JSON. -/
def step (s : StringScan) (c : Option Char) : Option StringScan :=
  match s.escape, c with
  | .plain, none => some (s.push none)
  | .plain, some c =>
    if c = '\\' then some { s with escape := .begun }
    else if c.toNat < 0x20 then none
    else some (s.push (some c))
  | .begun, some c =>
    if c = 'u' then some { s with escape := .hex 4 0 }
    else (escaped? c).map fun e => s.push (some e)
  | .hex missing value, some c =>
    (Text.hexValue? c).map fun d =>
      if missing = 1 then s.pushUnit (value * 16 + d)
      else { s with escape := .hex (missing - 1) (value * 16 + d) }
  | _, none => none

/-- Whether a character ends the string. -/
def isEnd (s : StringScan) (c : Option Char) : Bool :=
  s.escape = .plain && c == some '\x22'

/-- The text that the string denotes, if it denotes one. -/
def text (s : StringScan) : Option String :=
  Text.Utf8.text? s.settled.reverse

end StringScan

/-! ## Numbers -/

/-- How much of a number has been read. -/
inductive NumberPart
  | sign
  | zero
  | whole
  | point
  | fraction
  | exponentMark
  | exponentSign
  | exponent
  deriving DecidableEq, Repr

namespace NumberPart

/-- How much has been read with one character more, if the number goes on. -/
def next : NumberPart → Char → Option NumberPart
  | .sign, c => if c = '0' then some .zero else if c.isDigit then some .whole else none
  | .zero, c =>
    if c = '.' then some .point else if c = 'e' ∨ c = 'E' then some .exponentMark else none
  | .whole, c =>
    if c.isDigit then some .whole
    else if c = '.' then some .point
    else if c = 'e' ∨ c = 'E' then some .exponentMark
    else none
  | .point, c => if c.isDigit then some .fraction else none
  | .fraction, c =>
    if c.isDigit then some .fraction
    else if c = 'e' ∨ c = 'E' then some .exponentMark
    else none
  | .exponentMark, c =>
    if c.isDigit then some .exponent
    else if c = '+' ∨ c = '-' then some .exponentSign
    else none
  | .exponentSign, c => if c.isDigit then some .exponent else none
  | .exponent, c => if c.isDigit then some .exponent else none

/-- Whether the number may end here. -/
def isComplete : NumberPart → Bool
  | .zero => true
  | .whole => true
  | .fraction => true
  | .exponent => true
  | _ => false

end NumberPart

/-! ## Values -/

/-- What has been read of a value that is still open, last first. -/
inductive Frame
  /-- An array with these items. -/
  | items (done : List Json)
  /-- An object with these members. -/
  | members (done : List (Option String × Json))
  /-- An object with these members that waits for the value of a key. -/
  | member (done : List (Option String × Json)) (key : Option String)
  deriving Repr

/-- What the reader expects, or is in the middle of. -/
inductive Mode
  /-- A value has to follow. -/
  | value
  /-- A value or the end of an array has to follow. -/
  | firstItem
  /-- A key or the end of an object has to follow. -/
  | firstKey
  /-- A key has to follow. -/
  | key
  /-- A colon has to follow this key. -/
  | colon (key : Option String)
  /-- A value within an array or object is complete. -/
  | afterValue
  /-- The outermost value is complete. -/
  | finished (v : Json)
  | string (isKey : Bool) (scan : StringScan)
  /-- The characters of the number, last first. -/
  | number (part : NumberPart) (done : List Char)
  /-- These letters are missing before the value is complete. -/
  | word (missing : List Char) (v : Json)
  deriving Repr

/-- The state of the reader; the innermost open value comes first. -/
structure State where
  mode : Mode := .value
  stack : List Frame := []
  deriving Repr

/-- A value is complete: it goes into the open value around it. -/
def State.complete (stack : List Frame) (v : Json) : Option State :=
  match stack with
  | [] => some ⟨.finished v, []⟩
  | .items done :: rest => some ⟨.afterValue, .items (v :: done) :: rest⟩
  | .member done key :: rest => some ⟨.afterValue, .members ((key, v) :: done) :: rest⟩
  | .members _ :: _ => none

/-- A blank between tokens. -/
def isSpace (c : Char) : Bool :=
  c == ' ' || c == '\t' || c == '\n' || c == '\r'

/-- The first character of a value. -/
def State.stepValue (stack : List Frame) (c : Char) : Option State :=
  if c = '[' then some ⟨.firstItem, .items [] :: stack⟩
  else if c = '\x7b' then some ⟨.firstKey, .members [] :: stack⟩
  else if c = '\x22' then some ⟨.string false {}, stack⟩
  else if c = '-' then some ⟨.number .sign [c], stack⟩
  else if c = 't' then some ⟨.word ['r', 'u', 'e'] (.bool true), stack⟩
  else if c = 'f' then some ⟨.word ['a', 'l', 's', 'e'] (.bool false), stack⟩
  else if c = 'n' then some ⟨.word ['u', 'l', 'l'] .null, stack⟩
  else (NumberPart.sign.next c).map fun part => ⟨.number part [c], stack⟩

/-- The first character of a key. -/
def State.stepKey (stack : List Frame) (c : Char) : Option State :=
  if c = '\x22' then some ⟨.string true {}, stack⟩ else none

/-- A character after a complete value within an array or object. -/
def State.stepAfter (stack : List Frame) (c : Char) : Option State :=
  match stack with
  | .items done :: rest =>
    if c = ',' then some ⟨.value, stack⟩
    else if c = ']' then complete rest (.array done.reverse)
    else none
  | .members done :: rest =>
    if c = ',' then some ⟨.key, stack⟩
    else if c = '\x7d' then complete rest (.object done.reverse)
    else none
  | _ => none

/-- A character between tokens. -/
def State.stepBetween (mode : Mode) (stack : List Frame) (c : Char) : Option State :=
  if isSpace c then some ⟨mode, stack⟩
  else
    match mode with
    | .value => stepValue stack c
    | .firstItem => if c = ']' then stepAfter stack c else stepValue stack c
    | .firstKey => if c = '\x7d' then stepAfter stack c else stepKey stack c
    | .key => stepKey stack c
    | .colon key =>
      match stack with
      | .members done :: rest =>
        if c = ':' then some ⟨.value, .member done key :: rest⟩ else none
      | _ => none
    | .afterValue => stepAfter stack c
    | _ => none

/-- One character of the text. -/
def State.step (s : State) (c : Option Char) : Option State :=
  match s.mode, c with
  | .string isKey scan, c =>
    if scan.isEnd c then
      if isKey then some ⟨.colon scan.text, s.stack⟩ else complete s.stack (.string scan.text)
    else (scan.step c).map fun scan => ⟨.string isKey scan, s.stack⟩
  | .number part done, some c =>
    match part.next c with
    | some part => some ⟨.number part (c :: done), s.stack⟩
    | none =>
      if part.isComplete then do
        let s ← complete s.stack (.number (String.ofList done.reverse))
        stepBetween s.mode s.stack c
      else none
  | .word missing v, some c =>
    match missing with
    | [] => none
    | [last] => if c = last then complete s.stack v else none
    | m :: missing => if c = m then some ⟨.word missing v, s.stack⟩ else none
  | mode, some c => stepBetween mode s.stack c
  | _, none => none

/-- The value that was read, if the text ends here. -/
def State.value? (s : State) : Option Json :=
  match s.mode, s.stack with
  | .finished v, _ => some v
  | .number part done, [] =>
    if part.isComplete then some (.number (String.ofList done.reverse)) else none
  | _, _ => none

/-- Reads a JSON text. -/
def read? (text : List (Option Char)) : Option Json := do
  let s ← text.foldlM State.step {}
  s.value?

/-- Reads a JSON text from its bytes. -/
def ofBytes? (bytes : List UInt8) : Option Json :=
  read? (Text.Utf8.decode bytes)

end PlatformAdmin.Json
