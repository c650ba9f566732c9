import PlatformAdmin.Proofs.WrittenValues

/-!
# How TOML documents are written

A document is written on lines, each with a statement or none, with blanks, perhaps a comment, and a
line end of either kind; a byte order mark may stand before them.  Here these forms are relations,
as those of keys and values are, and `readAll_of_documentText` is that the statements of a document
are read back.
-/

set_option autoImplicit false

namespace PlatformAdmin.Toml

/-! ## The written forms -/

/-- A comment, or none. -/
inductive Comment : List Char → Prop
  | none : Comment []
  | text {s : List Char} (chars : OnOneLine s) : Comment ('#' :: s)

/-- A line ends in a line feed, before which there may be a carriage return. -/
inductive LineEnd : List Char → Prop
  | lineFeed : LineEnd ['\n']
  | both : LineEnd ['\r', '\n']

/-- A statement about a single key, and a way to write it. -/
inductive StatementText : Statement → List Char → Prop
  | assign {key : String} {v : Value} {w : List Char} (pairText : PairText ValueText (key, v) w) :
      StatementText (.assign [key] v) w
  | header {key : String} {b w a : List Char} (before : Blanks b) (keyText : KeyText key w)
      (behind : Blanks a) : StatementText (.header [key]) ('[' :: (b ++ (w ++ (a ++ [']']))))

/-- A line without its end: a statement or none, and perhaps a comment. -/
inductive LineText : Option Statement → List Char → Prop
  | empty {b c : List Char} (blanks : Blanks b) (comment : Comment c) : LineText none (b ++ c)
  | statement {st : Statement} {b w a c : List Char} (before : Blanks b)
      (statementText : StatementText st w) (behind : Blanks a) (comment : Comment c) :
      LineText (some st) (b ++ (w ++ (a ++ c)))

/-- Statements on lines; the last line has no end. -/
inductive LinesText : List Statement → List Char → Prop
  | last {st? : Option Statement} {w : List Char} (lineText : LineText st? w) :
      LinesText st?.toList w
  | cons {st? : Option Statement} {sts : List Statement} {w e ws : List Char}
      (lineText : LineText st? w) (lineEnd : LineEnd e) (others : LinesText sts ws) :
      LinesText (st?.toList ++ sts) (w ++ (e ++ ws))

/-- A document, which may begin with a byte order mark. -/
inductive DocumentText (sts : List Statement) : List Char → Prop
  | unmarked {w : List Char} (lines : LinesText sts w) : DocumentText sts w
  | marked {w : List Char} (lines : LinesText sts w) : DocumentText sts ('\uFEFF' :: w)

variable {b a c w s rest tail : List Char}

/-- A statement begins with neither a blank, a line feed, a comment nor a mark. -/
theorem StatementText.begins {st : Statement} (h : StatementText st w) :
    BeginsWithout [' ', '\t', '\n', '#', '\uFEFF'] w := by
  cases h with
  | assign pairText => exact pairText.begins.mono (by decide)
  | header _ _ _ => exact ⟨_, _, rfl, by decide⟩

namespace Statement

/-! ## Statements -/

/-- Behind blanks a text still begins with none of these characters if no blank is among them. -/
theorem begins_blanks_append {excluded : List Char} (hb : Blanks b)
    (hspace : ' ' ∉ excluded) (htab : '\t' ∉ excluded) (h : BeginsWithout excluded s) :
    BeginsWithout excluded (b ++ s) := by
  cases b with
  | nil => exact h
  | cons x b =>
    refine ⟨x, b ++ s, rfl, ?_⟩
    obtain rfl | rfl := hb x List.mem_cons_self
    · exact hspace
    · exact htab

/-- A statement that is written is read, up to what ends a value. -/
theorem read_of_statementText {st : Statement} (h : StatementText st w) (hrest : EndsValue rest) :
    Statement.read (w ++ rest) = some (st, rest) := by
  cases h with
  | @assign key v w pairText =>
    have hnil : Blanks [] := by decide
    have hpair : pair (value maxDepth) ([] ++ (w ++ rest)) = some (([key], v), rest) :=
      pair_of_pairText hnil pairText ValueText.begins
        fun valueText => value_of_valueText 77 valueText hrest
    obtain ⟨first, more, rfl, hfirst⟩ := pairText.begins
    have hbracket : ∀ s, first :: (more ++ rest) ≠ '[' :: s := by
      intro s hs
      obtain rfl := (List.cons.inj hs).1
      exact hfirst (by decide)
    rw [List.nil_append, List.cons_append] at hpair
    rw [List.cons_append, Statement.read, hpair]
    · rfl
    · exact fun s hs => hbracket _ hs
    · exact fun s hs => hbracket _ hs
  | @header key b w a before keyText behind =>
    have hpath : path (b ++ (w ++ (a ++ ']' :: rest))) = some ([key], ']' :: rest) :=
      path_of_keyText before keyText behind (.inr rfl)
    have hsecond : BeginsWithout ['['] (b ++ (w ++ (a ++ ']' :: rest))) :=
      begins_blanks_append before (by decide) (by decide)
        ((keyText.begins.mono (by decide)).append _)
    obtain ⟨second, more, heq, hne⟩ := hsecond
    have hclosed : closedPath (second :: more) = some ([key], rest) := by
      rw [closedPath, ← heq, hpath]
      rfl
    rw [List.cons_append, List.append_assoc, List.append_assoc, List.append_assoc,
      List.singleton_append, heq, Statement.read, hclosed]
    · rfl
    · intro s hs
      obtain rfl := (List.cons.inj hs).1
      exact hne List.mem_cons_self

/-! ## Lines -/

/-- What follows a line whose end is a line feed, or which is the last one. -/
inductive AtLineEnd : List Char → List Char → Prop
  | last : AtLineEnd [] []
  | lineFeed {rest : List Char} : AtLineEnd ('\n' :: rest) rest

/-- Characters that may stand in a comment are passed over to the end of the line. -/
theorem dropWhile_isTextChar (h : ∀ x ∈ s, IsTextChar x) (hend : AtLineEnd tail rest) :
    (s ++ tail).dropWhile isTextChar = tail := by
  have hall : ∀ x ∈ s, isTextChar x = true := fun x hx => isTextChar_iff.mpr (h x hx)
  rw [List.dropWhile_append_of_pos hall]
  cases hend with
  | last => rfl
  | lineFeed => rfl

/-- Blanks and a comment are passed over to the end of the line. -/
theorem endLine?_of_comment (hb : Blanks b) (hc : Comment c) (hend : AtLineEnd tail rest) :
    endLine? (b ++ (c ++ tail)) = some rest := by
  rw [endLine?, skipBlanks_append hb]
  cases hc with
  | none =>
    cases hend with
    | last => rfl
    | lineFeed => simp [skipBlanks, isBlank]
  | @text s chars =>
    have hskip : skipBlanks ('#' :: s ++ tail) = '#' :: (s ++ tail) :=
      skipBlanks_of_begins ⟨_, _, rfl, by decide⟩
    rw [hskip]
    simp only [dropWhile_isTextChar chars hend]
    cases hend with
    | last => rfl
    | lineFeed => rfl

/-- What begins with something else than a blank, a comment or a line feed is no end of a line. -/
theorem endLine?_of_begins (h : BeginsWithout [' ', '\t', '\n', '#', '\uFEFF'] s)
    (hb : Blanks b) : endLine? (b ++ s) = none := by
  rw [endLine?, skipBlanks_append hb, skipBlanks_of_begins (h.mono (by decide))]
  obtain ⟨first, more, rfl, hfirst⟩ := h
  have hhash : first ≠ '#' := by
    rintro rfl
    exact hfirst (by decide)
  have hfeed : first ≠ '\n' := by
    rintro rfl
    exact hfirst (by decide)
  simp [hhash, hfeed]

/-- The end of a line ends a value, also behind a comment. -/
theorem EndsValue.of_lineEnd (hc : Comment c) (hend : AtLineEnd tail rest) :
    EndsValue (c ++ tail) := by
  intro first hfirst
  cases hc with
  | none =>
    cases hend with
    | last => cases hfirst
    | lineFeed =>
      obtain rfl := Option.some.inj hfirst
      decide
  | text _ =>
    obtain rfl := Option.some.inj hfirst
    decide

/-- A line of which nothing is left is passed over. -/
theorem linesWithin_of_endLine? {fuel : Nat} (h : endLine? s = some rest) :
    linesWithin (fuel + 1) s = linesWithin fuel rest := by
  cases s with
  | nil =>
    obtain rfl : [] = rest := Option.some.inj h
    cases fuel <;> rfl
  | cons first more => simp only [linesWithin, h]

/-- A line adds its statement to those of the lines behind it. -/
theorem linesWithin_of_lineText {fuel : Nat} {st? : Option Statement} (h : LineText st? w)
    (hend : AtLineEnd tail rest) :
    linesWithin (fuel + 1) (w ++ tail) = (linesWithin fuel rest).map (st?.toList ++ ·) := by
  cases h with
  | empty blanks comment =>
    rw [List.append_assoc, linesWithin_of_endLine? (endLine?_of_comment blanks comment hend)]
    simp
  | @statement st b w a c before statementText behind comment =>
    have hnone := endLine?_of_begins (statementText.begins.append (a ++ (c ++ tail))) before
    have hskip : skipBlanks (b ++ (w ++ (a ++ (c ++ tail)))) = w ++ (a ++ (c ++ tail)) := by
      rw [skipBlanks_append before,
        skipBlanks_of_begins ((statementText.begins.mono (by decide)).append _)]
    have hread := read_of_statementText statementText
      ((EndsValue.of_lineEnd comment hend).blanks_append behind)
    have hrest := endLine?_of_comment behind comment hend
    have hbegins : BeginsWithout [] (b ++ (w ++ (a ++ (c ++ tail)))) :=
      begins_blanks_append before List.not_mem_nil List.not_mem_nil
        ((statementText.begins.mono (List.nil_subset _)).append _)
    simp only [List.append_assoc]
    obtain ⟨first, more, heq, -⟩ := hbegins
    rw [heq] at hnone hskip ⊢
    simp only [linesWithin, hnone, hskip, hread, hrest, Option.bind_eq_bind, Option.bind_some]
    cases linesWithin fuel rest <;> rfl

end Statement

/-! ## Line ends -/

/-- A comment is on one line. -/
theorem Comment.onOneLine (h : Comment c) : OnOneLine c := by
  cases h with
  | none => exact .nil
  | text chars => exact .cons (by decide) chars

/-- A statement is on one line. -/
theorem StatementText.onOneLine {st : Statement} (h : StatementText st w) : OnOneLine w := by
  cases h with
  | assign pairText => exact pairText.onOneLine ValueText.onOneLine
  | header before keyText behind =>
    exact .cons (by decide) (before.onOneLine.append
      (keyText.onOneLine.append (behind.onOneLine.append (.cons (by decide) .nil))))

/-- A line is on one line. -/
theorem LineText.onOneLine {st? : Option Statement} (h : LineText st? w) : OnOneLine w := by
  cases h with
  | empty blanks comment => exact blanks.onOneLine.append comment.onOneLine
  | statement before statementText behind comment =>
    exact before.onOneLine.append
      (statementText.onOneLine.append (behind.onOneLine.append comment.onOneLine))

namespace Statement

/-- What is on one line is not changed where line ends are unified. -/
theorem unifyLines_append (h : OnOneLine s) (rest : List Char) :
    unifyLines (s ++ rest) = s ++ unifyLines rest := by
  induction s with
  | nil => rfl
  | cons x s ih =>
    obtain ⟨hx, hs⟩ := List.forall_mem_cons.mp h
    have hreturn : x ≠ '\r' := by
      rintro rfl
      exact absurd (isTextChar_iff.mpr hx) (by decide)
    rw [List.cons_append, unifyLines, ih hs, List.cons_append]
    exact fun _ hx _ => hreturn hx

/-- Both ends of a line are unified to a line feed. -/
theorem unifyLines_lineEnd {e : List Char} (h : LineEnd e) (rest : List Char) :
    unifyLines (e ++ rest) = '\n' :: unifyLines rest := by
  cases h with
  | lineFeed =>
    rw [List.singleton_append, unifyLines]
    nofun
  | both => rfl

/-- The statements on lines are read back, if there are more steps than characters. -/
theorem linesWithin_of_linesText {sts : List Statement} (h : LinesText sts w) {fuel : Nat}
    (hfuel : (unifyLines w).length < fuel) : linesWithin fuel (unifyLines w) = some sts := by
  induction h generalizing fuel with
  | @last st? w lineText =>
    obtain ⟨fuel, rfl⟩ : ∃ n, fuel = n + 1 := Nat.exists_eq_add_one.mpr (by omega)
    have hlines : unifyLines w = w ++ [] := by
      simpa [unifyLines] using unifyLines_append lineText.onOneLine []
    rw [hlines, linesWithin_of_lineText lineText .last]
    cases fuel <;> simp [linesWithin]
  | @cons st? sts w e ws lineText lineEnd _ ih =>
    have hlines : unifyLines (w ++ (e ++ ws)) = w ++ '\n' :: unifyLines ws := by
      rw [unifyLines_append lineText.onOneLine, unifyLines_lineEnd lineEnd]
    rw [hlines] at hfuel ⊢
    obtain ⟨fuel, rfl⟩ : ∃ n, fuel = n + 1 := Nat.exists_eq_add_one.mpr (by omega)
    rw [List.length_append, List.length_cons] at hfuel
    rw [linesWithin_of_lineText lineText .lineFeed, ih (by omega)]
    rfl

/-! ## Documents -/

/-- What does not begin with a character, in front of what does not either, still does not. -/
theorem head?_append_ne {x : Char} (hs : s.head? ≠ some x) (hrest : rest.head? ≠ some x) :
    (s ++ rest).head? ≠ some x := by
  cases s with
  | nil => exact hrest
  | cons first s => exact hs

/-- A statement does not begin with a byte order mark. -/
theorem head?_ne_mark_of_begins (h : BeginsWithout [' ', '\t', '\n', '#', '\uFEFF'] s) :
    s.head? ≠ some '\uFEFF' := by
  obtain ⟨first, more, rfl, hfirst⟩ := h
  rintro heq
  obtain rfl := Option.some.inj heq
  exact hfirst (by decide)

/-- Blanks do not begin with a byte order mark. -/
theorem head?_ne_mark_of_blanks (h : Blanks b) : b.head? ≠ some '\uFEFF' := by
  intro hmark
  have hblank := h _ (List.mem_of_mem_head? hmark)
  revert hblank
  decide

/-- A line does not begin with a byte order mark. -/
theorem head?_ne_mark_of_lineText {st? : Option Statement} (h : LineText st? w) :
    w.head? ≠ some '\uFEFF' := by
  cases h with
  | empty blanks comment =>
    refine head?_append_ne (head?_ne_mark_of_blanks blanks) ?_
    cases comment with
    | none => nofun
    | text _ => exact fun hmark => absurd (Option.some.inj hmark) (by decide)
  | statement before statementText _ _ =>
    exact head?_append_ne (head?_ne_mark_of_blanks before)
      (head?_ne_mark_of_begins (statementText.begins.append _))

/-- A text that does not begin with a byte order mark is kept whole. -/
theorem withoutMark_of_head? (h : s.head? ≠ some '\uFEFF') : withoutMark s = s := by
  unfold withoutMark
  split
  · exact absurd rfl h
  · rfl

/-- Lines do not begin with a byte order mark. -/
theorem withoutMark_of_linesText {sts : List Statement} (h : LinesText sts w) :
    withoutMark w = w := by
  have hhead : w.head? ≠ some '\uFEFF' := by
    cases h with
    | last lineText => exact head?_ne_mark_of_lineText lineText
    | cons lineText lineEnd _ =>
      refine head?_append_ne (head?_ne_mark_of_lineText lineText) ?_
      cases lineEnd with
      | lineFeed => exact fun hmark => absurd (Option.some.inj hmark) (by decide)
      | both => exact fun hmark => absurd (Option.some.inj hmark) (by decide)
  exact withoutMark_of_head? hhead

/-- Reading a document gives back its statements. -/
theorem readAll_of_documentText {sts : List Statement} (h : DocumentText sts w) :
    readAll w = some sts := by
  cases h with
  | unmarked lines =>
    rw [readAll, withoutMark_of_linesText lines]
    exact linesWithin_of_linesText lines (Nat.lt_succ_self _)
  | marked lines =>
    rw [readAll, withoutMark]
    exact linesWithin_of_linesText lines (Nat.lt_succ_self _)

end Statement

/-! ## What can be written -/

/-- A statement is a line, with nothing around it. -/
theorem LineText.of_statementText {st : Statement} (h : StatementText st w) :
    LineText (some st) w := by
  have hnil : Blanks [] := by decide
  simpa using LineText.statement hnil h hnil .none

/-- A document can be written if its pairs can. -/
theorem exists_documentText {top : Entries} (h : ∀ p ∈ top, ∃ w, PairText ValueText p w) :
    ∃ w, DocumentText (Document.layout top []) w := by
  have hlines : ∃ w, LinesText (Document.assignments top) w := by
    induction top with
    | nil => exact ⟨_, .last (.empty (b := []) (by decide) .none)⟩
    | cons p top ih =>
      obtain ⟨⟨w, pairText⟩, hothers⟩ := List.forall_mem_cons.mp h
      obtain ⟨ws, others⟩ := ih hothers
      exact ⟨_, .cons (.of_statementText (.assign pairText)) .lineFeed others⟩
  obtain ⟨w, lines⟩ := hlines
  have hlayout : Document.layout top [] = Document.assignments top := by
    simp [Document.layout]
  exact ⟨w, hlayout ▸ .unmarked lines⟩

end PlatformAdmin.Toml
