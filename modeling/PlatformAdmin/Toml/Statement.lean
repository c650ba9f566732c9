import PlatformAdmin.Toml.Lexeme
import PlatformAdmin.Toml.Quotation

/-!
# TOML statements

A document is a list of statements, one to a line: a key with its value, the header of a table,
or the header of one more table of a list.  Blanks may stand around tokens and a comment at the
end of each line; within square brackets line ends and comments count as blanks.

The reader is total: loops are bounded by the length of what is left, and nested values by
`maxDepth`, which is part of what is accepted.
-/

set_option autoImplicit false

namespace PlatformAdmin.Toml

/-- A statement. -/
inductive Statement
  | assign (path : List String) (v : Value)
  | header (path : List String)
  | nextHeader (path : List String)
  deriving Repr

/-- The limit on the number of keys in a path, and on the depth of nested values. -/
def limit : Nat := 80

/-- The greatest depth to which arrays and tables in braces may nest. -/
def maxDepth : Nat := limit - 1

namespace Statement

/-- A text whose line ends are single line feeds. -/
def unifyLines : List Char → List Char
  | '\r' :: '\n' :: rest => '\n' :: unifyLines rest
  | c :: rest => c :: unifyLines rest
  | [] => []

/-- What follows the blanks. -/
def skipBlanks (s : List Char) : List Char :=
  s.dropWhile isBlank

/-- What follows blanks, comments and line ends. -/
def skipLines (inComment : Bool) : List Char → List Char
  | [] => []
  | c :: rest =>
    if c = '\n' then skipLines false rest
    else if inComment then
      if isTextChar c then skipLines true rest else c :: rest
    else if isBlank c then skipLines false rest
    else if c = '#' then skipLines true rest
    else c :: rest

/-- What follows the end of a line, before which there may be blanks and a comment. -/
def endLine? (s : List Char) : Option (List Char) :=
  let afterComment :=
    match skipBlanks s with
    | '#' :: rest => rest.dropWhile isTextChar
    | rest => rest
  match afterComment with
  | [] => some []
  | c :: rest => if c = '\n' then some rest else none

/-! ## Keys -/

/-- A character of a bare key. -/
def isBareKeyChar (c : Char) : Bool :=
  c.isAlphanum || c == '-' || c == '_'

/-- A single key, bare or quoted on one line. -/
def simpleKey : Reader String
  | [] => none
  | c :: rest =>
    if Quotation.isMark c then
      (Quotation.line c rest).map fun r => (String.ofList r.1, r.2)
    else
      let bare := (c :: rest).takeWhile isBareKeyChar
      if bare.isEmpty then none else some (String.ofList bare, (c :: rest).drop bare.length)

/-- A path of keys with dots between them, in so many steps at most. -/
def pathWithin : Nat → Reader (List String)
  | 0, _ => none
  | fuel + 1, s => do
    let (key, s) ← simpleKey (skipBlanks s)
    match skipBlanks s with
    | '.' :: s => do
      let (path, s) ← pathWithin fuel s
      some (key :: path, s)
    | s => some ([key], s)

/-- A path of keys, with the blanks around them. -/
def path : Reader (List String) := pathWithin maxDepth

/-! ## Values -/

/-- The items of an array after its opening bracket, in so many steps at most. -/
def itemsWithin (value : Reader Value) : Nat → Reader (List Value)
  | 0, _ => none
  | fuel + 1, s =>
    match skipLines false s with
    | ']' :: s => some ([], s)
    | s => do
      let (v, s) ← value s
      match skipLines false s with
      | ',' :: s => do
        let (vs, s) ← itemsWithin value fuel s
        some (v :: vs, s)
      | ']' :: s => some ([v], s)
      | _ => none

/-- A key with its value. -/
def pair (value : Reader Value) : Reader (List String × Value) := fun s => do
  let (keys, s) ← path s
  match s with
  | '=' :: s => do
    let (v, s) ← value (skipBlanks s)
    some ((keys, v), s)
  | _ => none

/-- The pairs of a table in braces, in so many steps at most. -/
def pairsWithin (value : Reader Value) : Nat → Reader (List (List String × Value))
  | 0, _ => none
  | fuel + 1, s => do
    let (p, s) ← pair value s
    match skipBlanks s with
    | ',' :: s => do
      let (ps, s) ← pairsWithin value fuel s
      some (p :: ps, s)
    | '\x7d' :: s => some ([p], s)
    | _ => none

/-- A table in braces, after the opening brace. -/
def inlineTable (value : Reader Value) : Reader Value := fun s =>
  match skipBlanks s with
  | '\x7d' :: s => some (.table .braces [], s)
  | s => do
    let (pairs, s) ← pairsWithin value s.length s
    let entries ← Entries.ofPairs pairs
    some (.table .braces entries, s)

/-- A bare value. -/
def bareValue : Reader Value := fun s =>
  let token := s.takeWhile Lexeme.isBareValueChar
  let rest := s.drop token.length
  let time := (rest.drop 1).takeWhile Lexeme.isBareValueChar
  if Lexeme.isDate token ∧ rest.head? = some ' ' ∧ time ≠ [] then
    if Lexeme.isTimeWithOffset time then
      some (.moment (String.ofList (token ++ ' ' :: time)), rest.drop (1 + time.length))
    else none
  else (Lexeme.value? token).map fun v => (v, rest)

/-- A value in which arrays and tables in braces nest to a depth at most. -/
def value : Nat → Reader Value
  | _, [] => none
  | depth, c :: rest =>
    if Quotation.isMark c then
      (Quotation.text c rest).map fun r => (.string (String.ofList r.1), r.2)
    else if c = '[' then
      match depth with
      | 0 => none
      | depth + 1 =>
        (itemsWithin (value depth) (rest.length + 1) rest).map fun r => (.array r.1, r.2)
    else if c = '\x7b' then
      match depth with
      | 0 => none
      | depth + 1 => inlineTable (value depth) rest
    else bareValue (c :: rest)

/-! ## Statements -/

/-- A path and the bracket that closes a header. -/
def closedPath (s : List Char) : Option (List String × List Char) := do
  let (keys, s) ← path s
  match s with
  | ']' :: s => some (keys, s)
  | _ => none

/-- A statement, up to the end of its line. -/
def read : Reader Statement
  | '[' :: '[' :: s => do
    let (keys, s) ← closedPath s
    match s with
    | ']' :: s => some (.nextHeader keys, s)
    | _ => none
  | '[' :: s => do
    let (keys, s) ← closedPath s
    some (.header keys, s)
  | s => do
    let ((keys, v), s) ← pair (value maxDepth) s
    some (.assign keys v, s)

/-- The statements of a document, in so many lines at most. -/
def linesWithin : Nat → List Char → Option (List Statement)
  | _, [] => some []
  | 0, _ => none
  | fuel + 1, s =>
    match endLine? s with
    | some rest => linesWithin fuel rest
    | none => do
      let (statement, s) ← read (skipBlanks s)
      let s ← endLine? s
      let statements ← linesWithin fuel s
      some (statement :: statements)

/-- The text without the byte order mark that it may begin with. -/
def withoutMark : List Char → List Char
  | '\uFEFF' :: rest => rest
  | s => s

/-- The statements of a document. -/
def readAll (text : List Char) : Option (List Statement) :=
  let s := unifyLines (withoutMark text)
  linesWithin (s.length + 1) s

end Statement

end PlatformAdmin.Toml
