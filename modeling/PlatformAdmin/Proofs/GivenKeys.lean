import PlatformAdmin.Proofs.Tables

/-!
# The keys that a document gives

Each statement of a document names keys: a pair names those on the way to its value and those within
the value, and a header those of its path (`Statement.Names`).  However they are named, with dots,
behind a header or within braces, they are in the table that the document builds, whatever the
other statements are (`Document.leads_of_gives`).

The reason is that nothing is taken away: a path of keys that leads to a value still does so after
every change of a table, although it may be another value then.
-/

set_option autoImplicit false

namespace PlatformAdmin.Toml

/-! ## Paths into a table -/

/-- A value is this table, or this is one of its tables under headers in double brackets. -/
inductive Value.IsTable : Value → Entries → Prop
  | single {origin : Origin} {entries : Entries} : IsTable (.table origin entries) entries
  | listed {all : List Entries} {entries : Entries} (mem : entries ∈ all) :
      IsTable (.tables all) entries

/-- A path of keys leads from this value through tables to a further value. -/
inductive Value.Leads : Value → List String → Prop
  | here {v : Value} : Leads v []
  | step {v w : Value} {entries : Entries} {key : String} {path : List String}
      (isTable : v.IsTable entries) (found : entries.lookup key = some w) (leads : Leads w path) :
      Leads v (key :: path)

/-- A path of keys leads from this table to a value. -/
def Entries.Leads (entries : Entries) (path : List String) : Prop :=
  (Value.table .header entries).Leads path

variable {entries entries' below : Entries} {key : String} {v w : Value}
  {path place named : List String}

/-- A value leads where its entries lead. -/
theorem Value.Leads.of_isTable (isTable : v.IsTable entries) (h : entries.Leads path) :
    v.Leads path := by
  cases h with
  | here => exact .here
  | step isHeader found leads =>
    cases isHeader
    exact .step isTable found leads

/-- A value leads nowhere but where its entries lead. -/
theorem Value.Leads.exists_isTable (h : v.Leads path) :
    path = [] ∨ ∃ entries, v.IsTable entries ∧ entries.Leads path := by
  cases h with
  | here => exact .inl rfl
  | step isTable found leads => exact .inr ⟨_, isTable, .step .single found leads⟩

/-- A table leads where its entries lead. -/
theorem Value.leads_table_iff {origin : Origin} :
    (Value.table origin entries).Leads path ↔ entries.Leads path := by
  constructor
  · intro h
    obtain rfl | ⟨_, isTable, hinner⟩ := h.exists_isTable
    · exact .here
    · cases isTable
      exact hinner
  · exact .of_isTable .single

/-- A list of tables leads where one of the tables leads. -/
theorem Value.leads_tables_cons_iff {all : List Entries} :
    (Value.tables (entries :: all)).Leads path ↔
      entries.Leads path ∨ (Value.tables all).Leads path := by
  constructor
  · intro h
    obtain rfl | ⟨_, _ | ⟨mem⟩, hinner⟩ := h.exists_isTable
    · exact .inl .here
    · obtain rfl | hmem := List.mem_cons.mp mem
      · exact .inl hinner
      · exact .inr (.of_isTable (.listed hmem) hinner)
  · rintro (h | h)
    · exact .of_isTable (.listed List.mem_cons_self) h
    · obtain rfl | ⟨_, _ | ⟨mem⟩, hinner⟩ := h.exists_isTable
      · exact .here
      · exact .of_isTable (.listed (List.mem_cons_of_mem _ mem)) hinner

namespace Entries

/-- Entries lead along a path if they hold its first key, and the value there leads along the
rest. -/
theorem leads_cons_iff :
    entries.Leads (key :: path) ↔ ∃ v, entries.lookup key = some v ∧ v.Leads path := by
  constructor
  · intro h
    cases h with
    | step isTable found leads =>
      cases isTable
      exact ⟨_, found, leads⟩
  · rintro ⟨v, found, leads⟩
    exact .step .single found leads

/-- A key with a value is one of the keys. -/
theorem mem_keys_of_lookup (h : entries.lookup key = some v) : key ∈ keys entries := by
  by_contra hmem
  rw [lookup_of_not_mem hmem] at h
  cases h

/-- The first key of a path that is led along is one of the keys. -/
theorem mem_keys_of_leads (h : entries.Leads (key :: path)) : key ∈ keys entries := by
  obtain ⟨v, found, -⟩ := leads_cons_iff.mp h
  exact mem_keys_of_lookup found

/-- The first entry of a list counts for its key. -/
theorem lookup_cons_eq_ite (other key : String) (v : Value) (rest : Entries) :
    ((key, v) :: rest).lookup other = if other = key then some v else rest.lookup other := by
  by_cases h : other = key
  · simp [h]
  · have hne : (other == key) = false := by simp [h]
    simp [List.lookup_cons, h, hne]

/-- A key that is set has the new value, and all others keep theirs. -/
theorem lookup_set (key other : String) (v : Value) (entries : Entries) :
    (set key v entries).lookup other = if other = key then some v else entries.lookup other := by
  induction entries with
  | nil => rw [set, lookup_cons_eq_ite]
  | cons entry rest ih =>
    obtain ⟨first, w⟩ := entry
    by_cases hfirst : first = key
    · subst hfirst
      rw [set, if_pos rfl, lookup_cons_eq_ite, lookup_cons_eq_ite]
      split <;> rfl
    · rw [set, if_neg hfirst, lookup_cons_eq_ite, lookup_cons_eq_ite, ih]
      by_cases hother : other = first
      · subst hother
        rw [if_pos rfl, if_pos rfl, if_neg hfirst]
      · rw [if_neg hother, if_neg hother]

/-! ## Changes of a table -/

/-- After a change of a table all paths still lead to a value that did so before it, and this one
does. -/
structure Gains (entries entries' : Entries) (named : List String) : Prop where
  keeps : ∀ path, entries.Leads path → entries'.Leads path
  leads : entries'.Leads named

/-- An entry with a new key is gained. -/
theorem gains_append (hnew : entries.lookup key = none) (h : v.Leads path) :
    Gains entries (entries ++ [(key, v)]) (key :: path) where
  keeps path hpath := by
    cases path with
    | nil => exact .here
    | cons key path =>
      obtain ⟨w, found, leads⟩ := leads_cons_iff.mp hpath
      refine leads_cons_iff.mpr ⟨w, ?_, leads⟩
      rw [List.lookup_append, found, Option.some_or]
  leads := by
    refine leads_cons_iff.mpr ⟨v, ?_, h⟩
    rw [List.lookup_append, hnew]
    simp

/-- A value may be replaced by one from which all paths lead on that led on from the old one. -/
theorem gains_set (hold : entries.lookup key = some w)
    (hkeep : ∀ path, w.Leads path → v.Leads path) (h : v.Leads path) :
    Gains entries (set key v entries) (key :: path) := by
  have hself : ∀ path, v.Leads path → (set key v entries).Leads (key :: path) := by
    intro path hpath
    refine leads_cons_iff.mpr ⟨v, ?_, hpath⟩
    rw [lookup_set, if_pos rfl]
  refine ⟨fun path hpath => ?_, hself path h⟩
  cases path with
  | nil => exact .here
  | cons other path =>
    obtain ⟨x, found, leads⟩ := leads_cons_iff.mp hpath
    by_cases hother : other = key
    · subst hother
      obtain rfl := Option.some.inj (hold.symm.trans found)
      exact hself path (hkeep path leads)
    · refine leads_cons_iff.mpr ⟨x, ?_, leads⟩
      rw [lookup_set, if_neg hother, found]

/-- What is gained in a table below a key is gained above it. -/
theorem gains_set_table {origin origin' : Origin} {below below' : Entries}
    (hold : entries.lookup key = some (.table origin below)) (h : Gains below below' path) :
    Gains entries (set key (.table origin' below') entries) (key :: path) := by
  refine gains_set hold (fun path hpath => ?_) (Value.leads_table_iff.mpr h.leads)
  exact Value.leads_table_iff.mpr (h.keeps path (Value.leads_table_iff.mp hpath))

/-- A value that is put into a table is found there, with all that is within it. -/
theorem gains_of_put (h : put path v entries = some entries') (hv : v.Leads named) :
    Gains entries entries' (path ++ named) := by
  fun_induction put path v entries generalizing entries' named with
  | case1 | case3 | case6 => cases h
  | case2 v entries key hnew =>
    obtain rfl := Option.some.inj h
    exact gains_append hnew hv
  | case4 v entries key path hsome hnew ih =>
    obtain ⟨below, hput, h⟩ := Option.bind_eq_some_iff.mp h
    obtain rfl := Option.some.inj h
    exact gains_append hnew (Value.leads_table_iff.mpr (ih hput hv).leads)
  | case5 v entries key path hsome below hold ih =>
    obtain ⟨below', hput, h⟩ := Option.bind_eq_some_iff.mp h
    obtain rfl := Option.some.inj h
    exact gains_set_table hold (ih hput hv)

/-- What a table gains at the end of a path, the whole table gains behind this path. -/
theorem gains_of_change {f : Entries → Option Entries}
    (hf : ∀ entries entries', f entries = some entries' → Gains entries entries' named)
    (h : change f path entries = some entries') : Gains entries entries' (path ++ named) := by
  fun_induction change f path entries generalizing entries' with
  | case1 entries => exact hf entries entries' h
  | case2 entries key path hnew ih =>
    obtain ⟨below, hchange, h⟩ := Option.bind_eq_some_iff.mp h
    obtain rfl := Option.some.inj h
    exact gains_append hnew (Value.leads_table_iff.mpr (ih hchange).leads)
  | case3 | case6 => cases h
  | case4 entries key path origin below hold horigin ih =>
    obtain ⟨below', hchange, h⟩ := Option.bind_eq_some_iff.mp h
    obtain rfl := Option.some.inj h
    exact gains_set_table hold (ih hchange)
  | case5 entries key path last others hold ih =>
    obtain ⟨last', hchange, h⟩ := Option.bind_eq_some_iff.mp h
    obtain rfl := Option.some.inj h
    have hlast := ih hchange
    refine gains_set hold (fun path hpath => ?_)
      (Value.leads_tables_cons_iff.mpr (.inl hlast.leads))
    exact Value.leads_tables_cons_iff.mpr
      ((Value.leads_tables_cons_iff.mp hpath).imp_left (hlast.keeps path))

/-- A table that is opened is gained, or was there. -/
theorem gains_of_openTable (h : openTable key entries = some entries') :
    Gains entries entries' [key] := by
  unfold openTable at h
  split at h
  · rename_i hnew
    obtain rfl := Option.some.inj h
    exact gains_append hnew .here
  · rename_i below hold
    obtain rfl := Option.some.inj h
    exact gains_set_table hold ⟨fun _ hpath => hpath, .here⟩
  · cases h

/-- A further table of a list is gained. -/
theorem gains_of_openNextTable (h : openNextTable key entries = some entries') :
    Gains entries entries' [key] := by
  unfold openNextTable at h
  split at h
  · rename_i hnew
    obtain rfl := Option.some.inj h
    exact gains_append hnew .here
  · rename_i all hold
    obtain rfl := Option.some.inj h
    exact gains_set hold (fun path hpath => Value.leads_tables_cons_iff.mpr (.inr hpath)) .here
  · cases h

/-- Pairs that are put in one by one leave what was there. -/
theorem leads_of_foldlM_put {pairs : List (List String × Value)}
    (h : pairs.foldlM (fun entries pair => put pair.1 pair.2 entries) entries = some entries')
    (hleads : entries.Leads path) : entries'.Leads path := by
  induction pairs generalizing entries with
  | nil =>
    obtain rfl := Option.some.inj h
    exact hleads
  | cons p pairs ih =>
    obtain ⟨next, hput, h⟩ := Option.bind_eq_some_iff.mp h
    exact ih h ((gains_of_put hput .here).keeps path hleads)

/-- Each path of the pairs in braces leads to a value of their table. -/
theorem leads_of_ofPairs {pairs : List (List String × Value)} (h : ofPairs pairs = some entries)
    (hmem : (path, v) ∈ pairs) : entries.Leads path := by
  obtain ⟨before, after, rfl⟩ := List.append_of_mem hmem
  rw [ofPairs, List.foldlM_append] at h
  obtain ⟨first, -, h⟩ := Option.bind_eq_some_iff.mp h
  obtain ⟨next, hput, h⟩ := Option.bind_eq_some_iff.mp h
  have hnext := (gains_of_put hput .here).leads
  rw [List.append_nil] at hnext
  exact leads_of_foldlM_put h hnext

end Entries

/-! ## Documents -/

/-- The place of the pairs behind a statement: headers change it. -/
def Statement.placeAfter (place : List String) : Statement → List String
  | .assign _ _ => place
  | .header path => path
  | .nextHeader path => path

/-- The place of the pairs behind some statements, which is the path of the last header. -/
def Statement.placeBehind (statements : List Statement) : List String :=
  statements.foldl placeAfter []

/-- The keys that a statement names, on the way from the document's own table. -/
inductive Statement.Names (place : List String) : Statement → List String → Prop
  | assign {path within : List String} {v : Value} (leads : v.Leads within) :
      Names place (.assign path v) (place ++ (path ++ within))
  | header {path : List String} : Names place (.header path) path
  | nextHeader {path : List String} : Names place (.nextHeader path) path

/-- The keys that one of the statements names at its place. -/
def Statement.Gives (statements : List Statement) (named : List String) : Prop :=
  ∃ before st after, statements = before ++ st :: after ∧ st.Names (placeBehind before) named

namespace Document

variable {d d' : Document} {st : Statement} {statements : List Statement}

/-- A header opens the table at its path, and what follows is put there. -/
theorem openAt_eq_some {openLast : String → Entries → Option Entries}
    (h : openAt openLast path d = some d') :
    ∃ key, path.dropLast ++ [key] = path ∧ d'.place = path ∧
      d.entries.change (openLast key) path.dropLast = some d'.entries := by
  obtain ⟨key, hkey, h⟩ := Option.bind_eq_some_iff.mp h
  obtain ⟨entries, hchange, h⟩ := Option.bind_eq_some_iff.mp h
  obtain rfl := Option.some.inj h
  exact ⟨key, List.dropLast_append_getLast? key hkey, rfl, hchange⟩

/-- A document gains the keys that a statement names. -/
theorem gains_of_add (h : d.add st = some d') (hnames : st.Names d.place named) :
    Entries.Gains d.entries d'.entries named := by
  cases hnames with
  | assign leads =>
    obtain ⟨entries, hchange, h⟩ := Option.bind_eq_some_iff.mp h
    obtain rfl := Option.some.inj h
    exact Entries.gains_of_change (fun _ _ hput => Entries.gains_of_put hput leads) hchange
  | header =>
    obtain ⟨key, hpath, -, hchange⟩ := openAt_eq_some h
    rw [← hpath]
    exact Entries.gains_of_change (fun _ _ => Entries.gains_of_openTable) hchange
  | nextHeader =>
    obtain ⟨key, hpath, -, hchange⟩ := openAt_eq_some h
    rw [← hpath]
    exact Entries.gains_of_change (fun _ _ => Entries.gains_of_openNextTable) hchange

/-- A statement leaves what was there. -/
theorem leads_of_add (h : d.add st = some d') (hleads : d.entries.Leads path) :
    d'.entries.Leads path := by
  obtain ⟨named, hnames⟩ : ∃ named, st.Names d.place named := by
    cases st with
    | assign _ _ => exact ⟨_, .assign .here⟩
    | header _ => exact ⟨_, .header⟩
    | nextHeader _ => exact ⟨_, .nextHeader⟩
  exact (gains_of_add h hnames).keeps path hleads

/-- A statement says where the statements behind it are put. -/
theorem place_of_add (h : d.add st = some d') : d'.place = st.placeAfter d.place := by
  cases st with
  | assign keys v =>
    obtain ⟨entries, -, h⟩ := Option.bind_eq_some_iff.mp h
    obtain rfl := Option.some.inj h
    rfl
  | header keys =>
    obtain ⟨-, -, hplace, -⟩ := openAt_eq_some h
    exact hplace
  | nextHeader keys =>
    obtain ⟨-, -, hplace, -⟩ := openAt_eq_some h
    exact hplace

/-- Statements one by one say where the statements behind them are put. -/
theorem place_of_foldlM_add (h : statements.foldlM add d = some d') :
    d'.place = statements.foldl Statement.placeAfter d.place := by
  induction statements generalizing d with
  | nil =>
    obtain rfl := Option.some.inj h
    rfl
  | cons st statements ih =>
    obtain ⟨next, hadd, h⟩ := Option.bind_eq_some_iff.mp h
    rw [ih h, place_of_add hadd, List.foldl_cons]

/-- Statements one by one leave what was there. -/
theorem leads_of_foldlM_add (h : statements.foldlM add d = some d')
    (hleads : d.entries.Leads path) : d'.entries.Leads path := by
  induction statements generalizing d with
  | nil =>
    obtain rfl := Option.some.inj h
    exact hleads
  | cons st statements ih =>
    obtain ⟨next, hadd, h⟩ := Option.bind_eq_some_iff.mp h
    exact ih h (leads_of_add hadd hleads)

/-- Keys that a statement names are in the table that the document builds. -/
theorem leads_of_gives (h : ofStatements? statements = some entries)
    (hgives : Statement.Gives statements named) : entries.Leads named := by
  obtain ⟨before, st, after, rfl, hnames⟩ := hgives
  obtain ⟨d, hall, rfl⟩ := Option.map_eq_some_iff.mp h
  rw [List.foldlM_append] at hall
  obtain ⟨first, hbefore, hall⟩ := Option.bind_eq_some_iff.mp hall
  obtain ⟨next, hadd, hafter⟩ := Option.bind_eq_some_iff.mp hall
  have hplace : first.place = Statement.placeBehind before := place_of_foldlM_add hbefore
  rw [← hplace] at hnames
  exact leads_of_foldlM_add hafter (gains_of_add hadd hnames).leads

end Document

end PlatformAdmin.Toml
