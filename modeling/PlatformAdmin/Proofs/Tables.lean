import Mathlib.Data.List.Nodup
import PlatformAdmin.Toml.Document

/-!
# The tables of a document

A document that gives each key once builds the table that one would expect: its keys come in the
order of the statements, and those behind a header are in the table of that header.  `layout` is
such a document, and `ofStatements?_layout` what it builds.  In a table without repeated keys a
look-up finds what the table holds, in whatever order (`lookup_of_mem`).
-/

set_option autoImplicit false

namespace PlatformAdmin.Toml

namespace Entries

variable {entries below : Entries} {key : String} {v : Value}

/-- The keys of a table, in order. -/
def keys (entries : Entries) : List String :=
  entries.map (·.1)

/-- A key that is none of the keys has no value. -/
theorem lookup_of_not_mem (h : key ∉ keys entries) : entries.lookup key = none := by
  rw [List.lookup_eq_none_iff]
  intro p hp
  have hne : key ≠ p.1 := fun heq => h (heq ▸ List.mem_map_of_mem hp)
  simpa using hne

/-- A key that is there once has the value that is there for it. -/
theorem lookup_of_mem (hkeys : (keys entries).Nodup) (h : (key, v) ∈ entries) :
    entries.lookup key = some v := by
  obtain ⟨before, after, rfl⟩ := List.append_of_mem h
  rw [keys, List.map_append, List.map_cons, List.nodup_append] at hkeys
  have hbefore : key ∉ keys before := by
    intro hmem
    exact hkeys.2.2 key hmem key List.mem_cons_self rfl
  rw [List.lookup_append, lookup_of_not_mem hbefore]
  simp

/-- A new key is put last. -/
theorem put_new (h : key ∉ keys entries) (v : Value) :
    put [key] v entries = some (entries ++ [(key, v)]) := by
  rw [put, lookup_of_not_mem h]

/-- A new table is opened last. -/
theorem openTable_new (h : key ∉ keys entries) :
    openTable key entries = some (entries ++ [(key, .table .header [])]) := by
  rw [openTable, lookup_of_not_mem h]

/-- A key that comes last is set there. -/
theorem set_last (h : key ∉ keys entries) (old v : Value) :
    set key v (entries ++ [(key, old)]) = entries ++ [(key, v)] := by
  induction entries with
  | nil => simp [set]
  | cons entry entries ih =>
    rw [keys, List.map_cons, List.mem_cons, not_or] at h
    rw [List.cons_append, set, if_neg (Ne.symm h.1), ih h.2, List.cons_append]

/-- What is changed in the last table is changed there and nowhere else. -/
theorem change_last {f : Entries → Option Entries} {below' : Entries}
    (h : key ∉ keys entries) (hf : f below = some below') :
    change f [key] (entries ++ [(key, .table .header below)]) =
      some (entries ++ [(key, .table .header below')]) := by
  have hlookup : (entries ++ [(key, Value.table .header below)]).lookup key =
      some (.table .header below) := by
    rw [List.lookup_append, lookup_of_not_mem h]
    simp
  simp [change, hlookup, hf, set_last h]

/-- Without double keys the key of an entry is none of those before it. -/
theorem nodup_keys_concat (h : (keys (entries ++ (key, v) :: below)).Nodup) :
    key ∉ keys entries := by
  rw [keys, List.map_append, List.map_cons, List.nodup_append] at h
  intro hmem
  exact h.2.2 key hmem key List.mem_cons_self rfl

/-- Pairs of distinct keys make the table that has them, in their order. -/
theorem foldlM_put (entries ps : Entries) (h : (keys (entries ++ ps)).Nodup) :
    (ps.map fun p => ([p.1], p.2)).foldlM
      (fun entries pair => put pair.1 pair.2 entries) entries = some (entries ++ ps) := by
  induction ps generalizing entries with
  | nil => simp
  | cons p ps ih =>
    have hput := put_new (nodup_keys_concat h) p.2
    have hrest := ih (entries ++ [p]) (by simpa using h)
    rw [List.map_cons, List.foldlM_cons, hput, Option.bind_eq_bind, Option.bind_some, hrest]
    simp

/-- Pairs with different keys make the table that they list. -/
theorem ofPairs_of_distinct {ps : Entries} (h : (keys ps).Nodup) :
    ofPairs (ps.map fun p => ([p.1], p.2)) = some ps :=
  foldlM_put [] ps h

end Entries

namespace Document

open Entries (keys)

/-- The statements that give these pairs. -/
def assignments (ps : Entries) : List Statement :=
  ps.map fun p => .assign [p.1] p.2

/-- The statements that give pairs, and then further ones under headers. -/
def layout (top : Entries) (sections : List (String × Entries)) : List Statement :=
  assignments top ++ sections.flatMap fun s => .header [s.1] :: assignments s.2

/-- The tables that stand under headers. -/
def tablesOf (sections : List (String × Entries)) : Entries :=
  sections.map fun s => (s.1, .table .header s.2)

/-- Assignments are made one by one. -/
theorem assignments_cons (p : String × Value) (ps : Entries) :
    assignments (p :: ps) = .assign [p.1] p.2 :: assignments ps :=
  rfl

/-- Assignments before any header are put into the document itself. -/
theorem foldlM_assignments_top (entries ps : Entries) (h : (keys (entries ++ ps)).Nodup) :
    (assignments ps).foldlM add { entries } = some { entries := entries ++ ps } := by
  induction ps generalizing entries with
  | nil => simp [assignments]
  | cons p ps ih =>
    have hadd : add { entries } (.assign [p.1] p.2) =
        some { entries := entries ++ [p] } := by
      have hput := Entries.put_new (Entries.nodup_keys_concat h) p.2
      simp [add, Entries.change, hput]
    have hrest := ih (entries ++ [p]) (by simpa using h)
    rw [assignments_cons, List.foldlM_cons, hadd, Option.bind_eq_bind, Option.bind_some]
    simpa using hrest

/-- Assignments behind a header are put into the table that it opened. -/
theorem foldlM_assignments_last {key : String} {entries : Entries} (hkey : key ∉ keys entries)
    (below ps : Entries) (h : (keys (below ++ ps)).Nodup) :
    (assignments ps).foldlM add
        { entries := entries ++ [(key, .table .header below)], place := [key] } =
      some { entries := entries ++ [(key, .table .header (below ++ ps))], place := [key] } := by
  induction ps generalizing below with
  | nil => simp [assignments]
  | cons p ps ih =>
    have hadd : add { entries := entries ++ [(key, .table .header below)], place := [key] }
          (.assign [p.1] p.2) =
        some { entries := entries ++ [(key, .table .header (below ++ [p]))], place := [key] } := by
      have hput := Entries.put_new (Entries.nodup_keys_concat h) p.2
      have hchange := Entries.change_last hkey hput
      simp [add, hchange]
    have hrest := ih (below ++ [p]) (by simpa using h)
    rw [assignments_cons, List.foldlM_cons, hadd, Option.bind_eq_bind, Option.bind_some]
    simpa using hrest

/-- A section puts one table into the document. -/
theorem foldlM_section {key : String} {entries fields : Entries} (place : List String)
    (hkey : key ∉ keys entries) (hfields : (keys fields).Nodup) :
    (Statement.header [key] :: assignments fields).foldlM add { entries, place } =
      some { entries := entries ++ [(key, .table .header fields)], place := [key] } := by
  have hopen : add { entries, place } (.header [key]) =
      some { entries := entries ++ [(key, .table .header [])], place := [key] } := by
    simp [add, openAt, Entries.change, Entries.openTable_new hkey]
  rw [List.foldlM_cons, hopen, Option.bind_eq_bind, Option.bind_some]
  exact foldlM_assignments_last hkey [] fields hfields

/-- Sections put their tables into the document one by one. -/
theorem exists_foldlM_sections (sections : List (String × Entries)) {entries : Entries}
    (place : List String) (hkeys : (keys (entries ++ tablesOf sections)).Nodup)
    (hfields : ∀ s ∈ sections, (keys s.2).Nodup) :
    ∃ place', (sections.flatMap fun s => .header [s.1] :: assignments s.2).foldlM add
        { entries, place } = some { entries := entries ++ tablesOf sections, place := place' } := by
  induction sections generalizing entries place with
  | nil => exact ⟨place, by simp [tablesOf]⟩
  | cons s sections ih =>
    rw [List.forall_mem_cons] at hfields
    have hkey : s.1 ∉ keys entries := Entries.nodup_keys_concat hkeys
    have hfirst := foldlM_section place hkey hfields.1
    have hkeys' : (keys (entries ++ [(s.1, .table .header s.2)] ++ tablesOf sections)).Nodup := by
      simpa [tablesOf] using hkeys
    obtain ⟨place', hrest⟩ := ih [s.1] hkeys' hfields.2
    refine ⟨place', ?_⟩
    rw [List.flatMap_cons, List.foldlM_append, hfirst, Option.bind_eq_bind, Option.bind_some, hrest]
    simp [tablesOf]

/-- If no key is given twice, each is in the table where it was given. -/
theorem ofStatements?_layout {top : Entries} {sections : List (String × Entries)}
    (hkeys : (keys (top ++ tablesOf sections)).Nodup)
    (hfields : ∀ s ∈ sections, (keys s.2).Nodup) :
    ofStatements? (layout top sections) = some (top ++ tablesOf sections) := by
  have htop : (keys top).Nodup := by
    rw [keys, List.map_append, List.nodup_append] at hkeys
    exact hkeys.1
  have hassigned := foldlM_assignments_top [] top htop
  obtain ⟨place, hsections⟩ := exists_foldlM_sections sections [] hkeys hfields
  rw [List.nil_append] at hassigned
  rw [ofStatements?, layout, List.foldlM_append, hassigned, Option.bind_eq_bind, Option.bind_some,
    hsections, Option.map_some]

end Document

end PlatformAdmin.Toml
