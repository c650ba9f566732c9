import PlatformAdmin.Toml.Statement

/-!
# TOML documents

Statements build a table: a key with its value goes into the table of the last header before
it, or into the document's own table if there is none.  `Document.read?` reads the table of a
whole document, or fails.
-/

set_option autoImplicit false

namespace PlatformAdmin.Toml

/-- A document of which part has been built. -/
structure Document where
  entries : Entries := []
  /-- The path of the last header. -/
  place : List String := []
  deriving Repr

namespace Document

/-- Opens the table at the end of a path with the help of `openLast`. -/
def openAt (openLast : String → Entries → Option Entries) (path : List String) (d : Document) :
    Option Document := do
  let key ← path.getLast?
  let entries ← d.entries.change (openLast key) path.dropLast
  some { entries, place := path }

/-- Adds a statement. -/
def add (d : Document) : Statement → Option Document
  | .assign path v => do
    let entries ← d.entries.change (Entries.put path v) d.place
    some { d with entries }
  | .header path => openAt Entries.openTable path d
  | .nextHeader path => openAt Entries.openNextTable path d

/-- The table that statements build. -/
def ofStatements? (statements : List Statement) : Option Entries :=
  (statements.foldlM add {}).map Document.entries

/-- Reads a document. -/
def read? (text : String) : Option Entries := do
  ofStatements? (← Statement.readAll text.toList)

end Document

end PlatformAdmin.Toml
