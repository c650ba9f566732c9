/-!
# TOML values and tables

A TOML document is a table: keys with values, in the order of their first appearance.  How a
table came to be decides what may still be added to it, so a table remembers its origin.

* A table with a header of its own may be written once.
* A table that is only implied by longer headers may still get a header.
* A table that is made by dotted keys may get further dotted keys.
* A table within braces is closed.

`put` and `openTable` add to a table as these rules allow, and fail otherwise.
-/

set_option autoImplicit false

namespace PlatformAdmin.Toml

/-- How a table came to be. -/
inductive Origin
  | header
  | implied
  | dotted
  | braces
  deriving DecidableEq, Repr

/-- A TOML value.  Fractional numbers and dates are kept as they are written. -/
inductive Value
  | string (s : String)
  | integer (n : Int)
  | float (lexeme : String)
  | boolean (b : Bool)
  | moment (lexeme : String)
  | array (items : List Value)
  | table (origin : Origin) (entries : List (String × Value))
  /-- Tables under headers in double brackets, the last one first. -/
  | tables (all : List (List (String × Value)))
  deriving Repr

/-- The keys of a table with their values. -/
abbrev Entries : Type := List (String × Value)

namespace Entries

/-- The entries with the value of a key replaced, or with the key at the end if it is new. -/
def set (key : String) (v : Value) : Entries → Entries
  | [] => [(key, v)]
  | entry :: rest => if entry.1 = key then (key, v) :: rest else entry :: set key v rest

/-- Puts a value under a path of keys, which have to lead through dotted tables to a key that
is free. -/
def put : List String → Value → Entries → Option Entries
  | [], _, _ => none
  | [key], v, entries =>
    match entries.lookup key with
    | none => some (entries ++ [(key, v)])
    | some _ => none
  | key :: path, v, entries =>
    match entries.lookup key with
    | none => do
      let below ← put path v []
      some (entries ++ [(key, .table .dotted below)])
    | some (.table .dotted below) => do
      let below ← put path v below
      some (entries.set key (.table .dotted below))
    | some _ => none

/-- Changes the table at the end of a path of headers.  A table that is missing on the way is
implied, and of tables in double brackets the last one is meant. -/
def change (f : Entries → Option Entries) : List String → Entries → Option Entries
  | [], entries => f entries
  | key :: path, entries =>
    match entries.lookup key with
    | none => do
      let below ← change f path []
      some (entries ++ [(key, .table .implied below)])
    | some (.table origin below) =>
      if origin = .braces then none
      else do
        let below ← change f path below
        some (entries.set key (.table origin below))
    | some (.tables (last :: others)) => do
      let last ← change f path last
      some (entries.set key (.tables (last :: others)))
    | some _ => none

/-- Opens the table of a header: a new one, or one that was only implied. -/
def openTable (key : String) (entries : Entries) : Option Entries :=
  match entries.lookup key with
  | none => some (entries ++ [(key, .table .header [])])
  | some (.table .implied below) => some (entries.set key (.table .header below))
  | some _ => none

/-- Opens one more table of a header in double brackets. -/
def openNextTable (key : String) (entries : Entries) : Option Entries :=
  match entries.lookup key with
  | none => some (entries ++ [(key, .tables [[]])])
  | some (.tables all) => some (entries.set key (.tables ([] :: all)))
  | some _ => none

/-- Puts pairs of a path and a value into an empty table, in order. -/
def ofPairs (pairs : List (List String × Value)) : Option Entries :=
  pairs.foldlM (fun entries pair => put pair.1 pair.2 entries) []

end Entries

end PlatformAdmin.Toml
