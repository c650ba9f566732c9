import Mathlib.Data.List.DropRight
import PlatformAdmin.Proofs.Continuations
import PlatformAdmin.Proofs.GivenKeys

/-!
# Keys at the beginning of a statement

A statement names its keys before anything else of it is written: a pair names them before its
equals sign, a header between its brackets, and a pair within braces behind the whole pairs before
it (`WritesKeys`).  Whatever follows, either the text is no document or a statement of it names
these keys (`Statement.gives_of_writesKeys`): there is no way to take a key back.
-/

set_option autoImplicit false

namespace PlatformAdmin.Toml

/-! ## The written forms -/

/-- Whole lines at the beginning of a document, with their statements. -/
inductive WholeLines : List Statement → List Char → Prop
  | none : WholeLines [] []
  | mark : WholeLines [] ['\uFEFF']
  | ended {statements : List Statement} {s e : List Char}
      (read : Statement.readAll s = some statements) (noReturn : s.getLast? ≠ some '\r')
      (lineEnd : LineEnd e) : WholeLines statements (s ++ e)

/-- Whole pairs behind an opening brace, each with the comma behind it. -/
inductive WholePairs : List Char → Prop
  | none : WholePairs []
  | cons {p : List String × Value} {s b ws : List Char}
      (read : Statement.pair (Statement.value (maxDepth - 1)) (Statement.unifyLines s) =
        some (p, b))
      (behind : Blanks b) (others : WholePairs ws) : WholePairs (s ++ ',' :: ws)

/-- A text that begins a statement and names these keys in it, behind the header of a place. -/
inductive WritesKeys (place : List String) : List String → List Char → Prop
  | pair {path : List String} {w : List Char} (pathText : PathText path w) :
      WritesKeys place (place ++ path) (w ++ ['='])
  | braces {path key : List String} {w a ps wk : List Char} (pathText : PathText path w)
      (before : Blanks a) (pairs : WholePairs ps) (keyText : PathText key wk) :
      WritesKeys place (place ++ (path ++ key)) (w ++ '=' :: (a ++ '\x7b' :: (ps ++ (wk ++ ['=']))))
  | header {path : List String} {b w : List Char} (before : Blanks b) (pathText : PathText path w) :
      WritesKeys place path (b ++ '[' :: (w ++ [']']))
  | nextHeader {path : List String} {b w : List Char} (before : Blanks b)
      (pathText : PathText path w) : WritesKeys place path (b ++ '[' :: '[' :: (w ++ [']', ']']))

variable {s t b w rest : List Char} {path named place : List String}

/-- A path of keys stands on one line. -/
theorem PathText.onOneLine (h : PathText path w) : OnOneLine w := by
  induction h with
  | last before keyText behind =>
    exact before.onOneLine.append (keyText.onOneLine.append behind.onOneLine)
  | cons before keyText behind _ ih =>
    exact before.onOneLine.append (keyText.onOneLine.append
      (behind.onOneLine.append (.cons (by decide) ih)))

/-- Behind the blanks there is a key. -/
theorem PathText.exists_begins (h : PathText path w) :
    ∃ b w', w = b ++ w' ∧ Blanks b ∧ BeginsWithout otherBeginnings w' := by
  cases h with
  | last before keyText behind => exact ⟨_, _, rfl, before, keyText.begins.append _⟩
  | cons before keyText behind _ => exact ⟨_, _, rfl, before, keyText.begins.append _⟩

namespace Statement

/-! ## Line ends -/

/-- Line ends are made the same piece by piece, if no piece ends between their two characters. -/
theorem unifyLines_append_of_noReturn (h : s.getLast? ≠ some '\r' ∨ t.head? ≠ some '\n') :
    unifyLines (s ++ t) = unifyLines s ++ unifyLines t := by
  fun_induction unifyLines s with
  | case1 s ih =>
    have hs : s.getLast? ≠ some '\r' ∨ t.head? ≠ some '\n' := by
      refine h.imp_left fun hlast heq => hlast ?_
      simp [List.getLast?_cons, heq]
    rw [List.cons_append, List.cons_append, unifyLines, ih hs, List.cons_append]
  | case2 c s hreturn ih =>
    have hs : s.getLast? ≠ some '\r' ∨ t.head? ≠ some '\n' := by
      refine h.imp_left fun hlast heq => hlast ?_
      simp [List.getLast?_cons, heq]
    have hkept : ∀ rest, c = '\r' → s ++ t = '\n' :: rest → False := by
      rintro rest rfl heq
      cases s with
      | nil =>
        obtain hlast | hhead := h
        · exact hlast rfl
        · exact hhead (congrArg List.head? heq)
      | cons next s =>
        obtain rfl := (List.cons.inj heq).1
        exact hreturn s rfl rfl
    rw [List.cons_append, unifyLines, ih hs, List.cons_append]
    exact hkept
  | case3 => rfl

/-- A line end does not depend on how it is written. -/
theorem unifyLines_append_lineEnd {e : List Char} (hs : s.getLast? ≠ some '\r') (he : LineEnd e)
    (t : List Char) : unifyLines (s ++ (e ++ t)) = unifyLines s ++ '\n' :: unifyLines t := by
  rw [unifyLines_append_of_noReturn (.inl hs), unifyLines_lineEnd he]

/-- A comma parts what is written on several lines into two that are unified apart. -/
theorem unifyLines_append_comma (s t : List Char) :
    unifyLines (s ++ ',' :: t) = unifyLines s ++ ',' :: unifyLines t := by
  rw [unifyLines_append_of_noReturn (.inr (by simp))]
  rfl

/-- Whole pairs and what follows them are unified apart. -/
theorem unifyLines_wholePairs_append {ps : List Char} (h : WholePairs ps) (t : List Char) :
    unifyLines (ps ++ t) = unifyLines ps ++ unifyLines t := by
  induction h with
  | none => rfl
  | cons _ _ _ ih =>
    rw [List.append_assoc, List.cons_append, unifyLines_append_comma, unifyLines_append_comma, ih,
      List.append_assoc, List.cons_append]

/-! ## Keys of pairs -/

/-- What is read behind a written path. -/
theorem eq_of_path {stop : Char} {keys : List String} (h : PathText path w)
    (hstop : stop = '=' ∨ stop = ']')
    (hread : Statement.path (w ++ stop :: t) = some (keys, rest)) :
    keys = path ∧ rest = stop :: t := by
  rw [Statement.path, pathWithin_of_pathText h hstop] at hread
  split at hread
  · obtain ⟨rfl, rfl⟩ := Prod.mk.inj (Option.some.inj hread)
    exact ⟨rfl, rfl⟩
  · cases hread

/-- A pair that is read behind a path has the path and the value behind the equals sign. -/
theorem eq_of_pair {reader : Reader Value} {p : List String × Value} (h : PathText path w)
    (hread : pair reader (w ++ '=' :: t) = some (p, rest)) :
    p.1 = path ∧ reader (skipBlanks t) = some (p.2, rest) := by
  obtain ⟨⟨keys, s⟩, hpath, hread⟩ := Option.bind_eq_some_iff.mp hread
  obtain ⟨rfl, rfl⟩ := eq_of_path h (.inl rfl) hpath
  obtain ⟨⟨v, rest⟩, hv, hread⟩ := Option.bind_eq_some_iff.mp hread
  obtain ⟨rfl, rfl⟩ := Prod.mk.inj (Option.some.inj hread)
  exact ⟨rfl, hv⟩

/-- The first of some pairs within braces, and the others. -/
theorem exists_of_pairsWithin {reader : Reader Value} {fuel : Nat}
    {pairs : List (List String × Value)} (h : pairsWithin reader fuel s = some (pairs, rest)) :
    ∃ p s' ps, pair reader s = some (p, s') ∧ pairs = p :: ps ∧
      ∀ s'', skipBlanks s' = ',' :: s'' →
        ∃ fuel' rest', pairsWithin reader fuel' s'' = some (ps, rest') := by
  cases fuel with
  | zero => cases h
  | succ fuel =>
    obtain ⟨⟨p, s'⟩, hp, h⟩ := Option.bind_eq_some_iff.mp h
    dsimp only at h
    split at h
    · rename_i more hcomma
      obtain ⟨⟨ps, rest'⟩, hps, h⟩ := Option.bind_eq_some_iff.mp h
      obtain ⟨rfl, rfl⟩ := Prod.mk.inj (Option.some.inj h)
      refine ⟨p, s', ps, hp, rfl, fun s'' hs'' => ⟨fuel, rest', ?_⟩⟩
      obtain rfl := (List.cons.inj (hcomma.symm.trans hs'')).2
      exact hps
    · rename_i hclose
      obtain ⟨rfl, rfl⟩ := Prod.mk.inj (Option.some.inj h)
      refine ⟨p, s', [], hp, rfl, fun s'' hs'' => ?_⟩
      rw [hclose] at hs''
      exact absurd (List.cons.inj hs'').1 (by decide)
    · cases h

/-! ## Keys within braces -/

/-- Blanks before a pair do not count. -/
theorem pair_skipBlanks (reader : Reader Value) (s : List Char) :
    pair reader (skipBlanks s) = pair reader s := by
  have hskip : skipBlanks (skipBlanks s) = skipBlanks s := List.dropWhile_idempotent isBlank s
  have hpath : Statement.path (skipBlanks s) = Statement.path s := by
    have hfuel : maxDepth = 78 + 1 := rfl
    rw [Statement.path, hfuel, pathWithin, pathWithin, hskip]
  rw [pair, pair, hpath]

/-- Blanks before the pairs of a table do not count. -/
theorem pairsWithin_skipBlanks (reader : Reader Value) (fuel : Nat) (s : List Char) :
    pairsWithin reader fuel (skipBlanks s) = pairsWithin reader fuel s := by
  cases fuel with
  | zero => rfl
  | succ fuel => rw [pairsWithin, pairsWithin, pair_skipBlanks]

variable {ps wk : List Char} {key : List String}

/-- The braces are not closed before a key. -/
theorem skipBlanks_ne_close (h : WholePairs ps) (keyText : PathText key wk) (t more : List Char) :
    skipBlanks (unifyLines ps ++ (wk ++ t)) ≠ '\x7d' :: more := by
  have hcomma : IsDelimiter ',' := .inr rfl
  intro hclose
  cases h with
  | none =>
    obtain ⟨b, w, rfl, hb, hbegins⟩ := keyText.exists_begins
    have hkey := hbegins.append t
    rw [unifyLines, List.nil_append, List.append_assoc, skipBlanks_append hb,
      skipBlanks_of_begins (hkey.mono (by decide))] at hclose
    obtain ⟨first, rest, heq, hfirst⟩ := hkey
    obtain rfl := (List.cons.inj (heq.symm.trans hclose)).1
    exact hfirst (by decide)
  | @cons p s b ws read behind others =>
    rw [unifyLines_append_comma, List.append_assoc, List.cons_append] at hclose
    have hsome := stopsAt_pair hcomma (stopsAt_value hcomma _) _ _ _ read
      (unifyLines ws ++ (wk ++ t))
    rw [← pair_skipBlanks, hclose] at hsome
    cases hsome

/-- The pairs before a key are read, and then the key with its value. -/
theorem exists_mem_of_pairsWithin (h : WholePairs ps)
    (keyText : PathText key wk) {fuel : Nat} {pairs : List (List String × Value)}
    (hread : pairsWithin (value (maxDepth - 1)) fuel (unifyLines ps ++ (wk ++ '=' :: t)) =
      some (pairs, rest)) : ∃ v, (key, v) ∈ pairs := by
  have hcomma : IsDelimiter ',' := .inr rfl
  induction h generalizing fuel pairs rest with
  | none =>
    obtain ⟨p, s, ps, hp, rfl, -⟩ := exists_of_pairsWithin hread
    obtain ⟨rfl, -⟩ := eq_of_pair keyText hp
    exact ⟨p.2, List.mem_cons_self⟩
  | @cons first s b ws read behind _ ih =>
    rw [unifyLines_append_comma, List.append_assoc, List.cons_append] at hread
    obtain ⟨p, s', ps, hp, rfl, hothers⟩ := exists_of_pairsWithin hread
    rw [stopsAt_pair hcomma (stopsAt_value hcomma _) _ _ _ read] at hp
    obtain ⟨rfl, rfl⟩ := Prod.mk.inj (Option.some.inj hp)
    have hskip : skipBlanks (b ++ ',' :: (unifyLines ws ++ (wk ++ '=' :: t))) =
        ',' :: (unifyLines ws ++ (wk ++ '=' :: t)) := by
      rw [skipBlanks_append behind, skipBlanks_of_begins ⟨_, _, rfl, by decide⟩]
    obtain ⟨fuel', rest', hps⟩ := hothers _ hskip
    obtain ⟨v, hmem⟩ := ih hps
    exact ⟨v, List.mem_cons_of_mem _ hmem⟩

/-- A table in braces that can be read leads along a path that is written in it behind whole
pairs. -/
theorem leads_of_braces {v : Value} (h : WholePairs ps) (keyText : PathText key wk)
    (hread : value maxDepth ('\x7b' :: (unifyLines ps ++ (wk ++ '=' :: t))) = some (v, rest)) :
    v.Leads key := by
  have hread' : inlineTable (value (maxDepth - 1)) (unifyLines ps ++ (wk ++ '=' :: t)) =
      some (v, rest) := hread
  rw [inlineTable] at hread'
  split at hread'
  · rename_i hclose
    exact absurd hclose (skipBlanks_ne_close h keyText _ _)
  · rw [pairsWithin_skipBlanks] at hread'
    obtain ⟨⟨pairs, s⟩, hpairs, hread'⟩ := Option.bind_eq_some_iff.mp hread'
    obtain ⟨entries, hentries, hread'⟩ := Option.bind_eq_some_iff.mp hread'
    obtain ⟨rfl, rfl⟩ := Prod.mk.inj (Option.some.inj hread')
    obtain ⟨w, hmem⟩ := exists_mem_of_pairsWithin h keyText hpairs
    exact Value.leads_table_iff.mpr (Entries.leads_of_ofPairs hentries hmem)

/-! ## Statements -/

variable {st : Statement}

/-- A statement that begins with a path is a pair. -/
theorem exists_pair_of_read (h : PathText path w)
    (hread : Statement.read (skipBlanks (w ++ t)) = some (st, rest)) :
    ∃ p, pair (value maxDepth) (w ++ t) = some (p, rest) ∧ st = .assign p.1 p.2 := by
  obtain ⟨b, w', rfl, hb, hbegins⟩ := h.exists_begins
  have hskip : skipBlanks (b ++ w' ++ t) = w' ++ t := by
    rw [List.append_assoc, skipBlanks_append hb,
      skipBlanks_of_begins ((hbegins.append t).mono (by decide))]
  have hbracket : ∀ s, w' ++ t ≠ '[' :: s := by
    intro s heq
    obtain ⟨first, more, hfirst, hne⟩ := hbegins.append t
    obtain rfl := (List.cons.inj (hfirst.symm.trans heq)).1
    exact hne (by decide)
  rw [hskip, Statement.read] at hread
  · obtain ⟨⟨p, s⟩, hpair, hread⟩ := Option.bind_eq_some_iff.mp hread
    obtain ⟨rfl, rfl⟩ := Prod.mk.inj (Option.some.inj hread)
    rw [← hskip, pair_skipBlanks] at hpair
    exact ⟨p, hpair, rfl⟩
  · exact fun s heq => hbracket _ heq
  · exact fun s heq => hbracket _ heq

/-- A path that is read in brackets is the one that is written there. -/
theorem eq_of_closedPath {keys : List String} (h : PathText path w)
    (hread : closedPath (w ++ ']' :: t) = some (keys, rest)) : keys = path := by
  obtain ⟨⟨keys, s⟩, hpath, hread⟩ := Option.bind_eq_some_iff.mp hread
  obtain ⟨rfl, rfl⟩ := eq_of_path h (.inr rfl) hpath
  obtain ⟨rfl, -⟩ := Prod.mk.inj (Option.some.inj hread)
  rfl

/-- A bracket is found behind blanks. -/
theorem skipBlanks_bracket (hb : Blanks b) (t : List Char) :
    skipBlanks (b ++ '[' :: t) = '[' :: t := by
  rw [skipBlanks_append hb, skipBlanks_of_begins ⟨_, _, rfl, by decide⟩]

/-- A statement names the keys that are written at its beginning. -/
theorem names_of_read (h : WritesKeys place named w)
    (hread : Statement.read (skipBlanks (unifyLines (w ++ t))) = some (st, rest)) :
    st.Names place named := by
  cases h with
  | @pair path w pathText =>
    have hline : OnOneLine (w ++ ['=']) := pathText.onOneLine.append (by decide)
    rw [unifyLines_append hline, List.append_assoc] at hread
    obtain ⟨p, hpair, rfl⟩ := exists_pair_of_read pathText hread
    obtain ⟨rfl, -⟩ := eq_of_pair pathText hpair
    have hnames : Statement.Names place (.assign p.1 p.2) (place ++ (p.1 ++ [])) := .assign .here
    rwa [List.append_nil] at hnames
  | @braces path key w a ps wk pathText before pairs keyText =>
    have hbrace : OnOneLine (w ++ '=' :: (a ++ ['\x7b'])) :=
      pathText.onOneLine.append (.cons (by decide) (before.onOneLine.append (by decide)))
    have hkey : OnOneLine (wk ++ ['=']) := keyText.onOneLine.append (by decide)
    have htext : unifyLines (w ++ '=' :: (a ++ '\x7b' :: (ps ++ (wk ++ ['=']))) ++ t) =
        w ++ '=' :: (a ++ '\x7b' :: (unifyLines ps ++ (wk ++ '=' :: unifyLines t))) := by
      have hsplit : w ++ '=' :: (a ++ '\x7b' :: (ps ++ (wk ++ ['=']))) ++ t =
          (w ++ '=' :: (a ++ ['\x7b'])) ++ (ps ++ ((wk ++ ['=']) ++ t)) := by simp
      rw [hsplit, unifyLines_append hbrace, unifyLines_wholePairs_append pairs,
        unifyLines_append hkey]
      simp
    rw [htext] at hread
    obtain ⟨p, hpair, rfl⟩ := exists_pair_of_read pathText hread
    obtain ⟨rfl, hvalue⟩ := eq_of_pair pathText hpair
    rw [skipBlanks_append before, skipBlanks_of_begins ⟨_, _, rfl, by decide⟩] at hvalue
    exact .assign (leads_of_braces pairs keyText hvalue)
  | @header path b w before pathText =>
    have hline : OnOneLine (b ++ '[' :: (w ++ [']'])) :=
      before.onOneLine.append (.cons (by decide) (pathText.onOneLine.append (by decide)))
    rw [unifyLines_append hline, List.append_assoc, List.cons_append, List.append_assoc,
      skipBlanks_bracket before, List.singleton_append] at hread
    obtain ⟨b', w', rfl, hb, hbegins⟩ := pathText.exists_begins
    have hsecond : BeginsWithout ['['] (b' ++ w') :=
      begins_blanks_append hb (by decide) (by decide) (hbegins.mono (by decide))
    rw [Statement.read] at hread
    · obtain ⟨⟨keys, s⟩, hpath, hread⟩ := Option.bind_eq_some_iff.mp hread
      obtain ⟨rfl, -⟩ := Prod.mk.inj (Option.some.inj hread)
      obtain rfl := eq_of_closedPath pathText hpath
      exact .header
    · intro s heq
      obtain ⟨first, more, hfirst, hne⟩ := hsecond.append (']' :: unifyLines t)
      obtain rfl := (List.cons.inj (hfirst.symm.trans heq)).1
      exact hne (by decide)
  | @nextHeader path b w before pathText =>
    have hline : OnOneLine (b ++ '[' :: '[' :: (w ++ [']', ']'])) :=
      before.onOneLine.append
        (.cons (by decide) (.cons (by decide) (pathText.onOneLine.append (by decide))))
    rw [unifyLines_append hline, List.append_assoc, List.cons_append, List.cons_append,
      List.append_assoc, skipBlanks_bracket before, List.cons_append, List.singleton_append,
      Statement.read] at hread
    obtain ⟨⟨keys, s⟩, hpath, hread⟩ := Option.bind_eq_some_iff.mp hread
    obtain rfl := eq_of_closedPath pathText hpath
    dsimp only at hread
    split at hread
    · obtain ⟨rfl, -⟩ := Prod.mk.inj (Option.some.inj hread)
      exact .nextHeader
    · cases hread

/-! ## Documents -/

/-- What names a key begins behind blanks with something that is neither a blank nor a mark. -/
theorem exists_begins_of_writesKeys (h : WritesKeys place named w) :
    ∃ b first more, w = b ++ first :: more ∧ Blanks b ∧
      first ∉ [' ', '\t', '\n', '#', '\uFEFF'] ∧ first ≠ '\r' := by
  have hpath : ∀ {path w} (rest : List Char), PathText path w → ∃ b first more,
      w ++ rest = b ++ first :: more ∧ Blanks b ∧
        first ∉ [' ', '\t', '\n', '#', '\uFEFF'] ∧ first ≠ '\r' := by
    intro path w rest pathText
    have hline := pathText.onOneLine
    obtain ⟨b, w', rfl, hb, first, more, rfl, hfirst⟩ := pathText.exists_begins
    have htext : IsTextChar first := hline first (by simp)
    have hother : [' ', '\t', '\n', '#', '\uFEFF'] ⊆ otherBeginnings := by decide
    refine ⟨b, first, more ++ rest, by simp, hb, fun hmem => hfirst (hother hmem), ?_⟩
    rintro rfl
    exact absurd htext (by decide)
  cases h with
  | pair pathText => exact hpath _ pathText
  | braces pathText _ _ _ => exact hpath _ pathText
  | header before _ => exact ⟨_, _, _, rfl, before, by decide, by decide⟩
  | nextHeader before _ => exact ⟨_, _, _, rfl, before, by decide, by decide⟩

/-- The first of some lines that begin with written keys is a statement that names them. -/
theorem exists_names_of_linesWithin (h : WritesKeys place named w) {fuel : Nat}
    {statements : List Statement}
    (hread : linesWithin fuel (unifyLines (w ++ t)) = some statements) :
    ∃ st more, statements = st :: more ∧ st.Names place named := by
  obtain ⟨b, first, more, rfl, hb, hfirst, hreturn⟩ := exists_begins_of_writesKeys h
  have htext : unifyLines (b ++ first :: more ++ t) = b ++ first :: unifyLines (more ++ t) := by
    rw [List.append_assoc, unifyLines_append hb.onOneLine, List.cons_append, unifyLines]
    exact fun _ heq _ => hreturn heq
  have hend : endLine? (b ++ first :: unifyLines (more ++ t)) = none :=
    endLine?_of_begins ⟨first, _, rfl, hfirst⟩ hb
  have hsome : b ++ first :: unifyLines (more ++ t) ≠ [] := by simp
  cases fuel with
  | zero =>
    rw [htext] at hread
    cases b <;> cases hread
  | succ fuel =>
    rw [htext, linesWithin_of_read hsome hend, ← htext] at hread
    obtain ⟨⟨st, s⟩, hst, hread⟩ := Option.bind_eq_some_iff.mp hread
    obtain ⟨s', -, hread⟩ := Option.bind_eq_some_iff.mp hread
    obtain ⟨others, -, hread⟩ := Option.bind_eq_some_iff.mp hread
    exact ⟨st, others, (Option.some.inj hread).symm, names_of_read h hst⟩

/-- What names a key has no byte order mark before it. -/
theorem withoutMark_of_writesKeys (h : WritesKeys place named w) (t : List Char) :
    withoutMark (w ++ t) = w ++ t := by
  obtain ⟨b, first, more, rfl, hb, hfirst, -⟩ := exists_begins_of_writesKeys h
  refine withoutMark_of_head? ?_
  rw [List.append_assoc]
  refine head?_append_ne (head?_ne_mark_of_blanks hb) fun heq => ?_
  obtain rfl := Option.some.inj heq
  exact hfirst (by decide)

/-- A byte order mark stands before the lines, and is no part of them. -/
theorem withoutMark_append_lineEnd {e : List Char} (he : LineEnd e) (t : List Char) :
    withoutMark (s ++ (e ++ t)) = withoutMark s ++ (e ++ t) := by
  cases s with
  | nil => cases he <;> rfl
  | cons c s =>
    by_cases hc : c = '\uFEFF'
    · subst hc
      rfl
    · rw [withoutMark_of_head? (by simpa using hc), withoutMark_of_head? (by simpa using hc)]

/-- Without a byte order mark a text ends as before. -/
theorem getLast?_withoutMark_ne (h : s.getLast? ≠ some '\r') :
    (withoutMark s).getLast? ≠ some '\r' := by
  unfold withoutMark
  split
  · intro hlast
    exact h (by simp [List.getLast?_cons, hlast])
  · exact h

/-- Behind whole lines, a statement that begins with keys names them, whatever follows. -/
theorem gives_of_writesKeys {statements all : List Statement} {before : List Char}
    (hlines : WholeLines statements before)
    (hkeys : WritesKeys (placeBehind statements) named w)
    (hread : readAll (before ++ (w ++ rest)) = some all) : Gives all named := by
  have hfirst : ∀ {fuel more}, linesWithin fuel (unifyLines (w ++ rest)) = some more →
      all = statements ++ more → Gives all named := by
    rintro fuel more hmore rfl
    obtain ⟨st, others, rfl, hnames⟩ := exists_names_of_linesWithin hkeys hmore
    exact ⟨statements, st, others, rfl, hnames⟩
  cases hlines with
  | none =>
    rw [List.nil_append, readAll, withoutMark_of_writesKeys hkeys] at hread
    exact hfirst hread rfl
  | mark => exact hfirst hread rfl
  | @ended _ s e read noReturn lineEnd =>
    rw [List.append_assoc, readAll, withoutMark_append_lineEnd lineEnd,
      unifyLines_append_lineEnd (getLast?_withoutMark_ne noReturn) lineEnd] at hread
    obtain ⟨fuel, more, hall, hmore⟩ := linesWithin_append read .lineFeed hread
    exact hfirst hmore hall

end Statement

end PlatformAdmin.Toml
