import PlatformAdmin.Proofs.WrittenDocuments

/-!
# Reading a text that goes on

The parts of a document are delimited: a line ends in a line feed, and a pair within braces in a
comma.  What a reader has read it reads again if such a character and any further text follow, and
it leaves them alone (`Reader.StopsAt`).  So the lines of a document are read one after the other,
whatever the later ones are (`Statement.linesWithin_append`).

The lemmas follow the readers, from strings and keys over values to statements and lines.  Where a
reader is bounded by the length of what is left, more text gives it more steps.
-/

set_option autoImplicit false

namespace PlatformAdmin.Toml

/-- What the first reader has read, the second one reads if this character and further text
follow. -/
def Reader.GoesOn {α : Type} (stop : Char) (r r' : Reader α) : Prop :=
  ∀ s a rest, r s = some (a, rest) →
    ∀ more, r' (s ++ stop :: more) = some (a, rest ++ stop :: more)

/-- A reader does not look beyond this character. -/
def Reader.StopsAt {α : Type} (stop : Char) (r : Reader α) : Prop :=
  r.GoesOn stop r

/-- A character that ends a line, or a pair within braces. -/
def IsDelimiter (c : Char) : Prop :=
  c = '\n' ∨ c = ','

variable {s rest : List Char} {stop : Char}

/-- What is taken ends before the mark anyway. -/
theorem takeWhile_append_stop {p : Char → Bool} (hstop : p stop = false) (s more : List Char) :
    (s ++ stop :: more).takeWhile p = s.takeWhile p := by
  induction s with
  | nil => rw [List.nil_append, List.takeWhile_cons_of_neg (by simp [hstop]), List.takeWhile_nil]
  | cons c s ih =>
    rw [List.cons_append, List.takeWhile_cons, List.takeWhile_cons, ih]

/-- What is dropped ends before the mark anyway. -/
theorem dropWhile_append_stop {p : Char → Bool} (hstop : p stop = false) (s more : List Char) :
    (s ++ stop :: more).dropWhile p = s.dropWhile p ++ stop :: more := by
  induction s with
  | nil => rw [List.nil_append, List.dropWhile_cons_of_neg (by simp [hstop]), List.dropWhile_nil,
      List.nil_append]
  | cons c s ih =>
    rw [List.cons_append, List.dropWhile_cons, List.dropWhile_cons, ih]
    split <;> rfl

/-- The text before the mark begins with whatever the whole begins with, unless that is the mark. -/
theorem exists_eq_cons_of_append_stop {c : Char} {more tail : List Char}
    (h : s ++ stop :: more = c :: tail) (hne : stop ≠ c) : ∃ s', s = c :: s' := by
  cases s with
  | nil => exact absurd (List.cons.inj h).1 hne
  | cons first s => exact ⟨s, by rw [(List.cons.inj h).1]⟩

namespace Quotation

variable {mark : Char} {raw : Bool} {place : Place} {done text' : List Char}

/-- More text behind a string is left for what follows the string. -/
theorem lineRest_append (h : lineRest mark raw place done s = some (text', rest))
    (more : List Char) : lineRest mark raw place done (s ++ more) = some (text', rest ++ more) := by
  fun_induction lineRest mark raw place done s with
  | case1 | case3 | case5 | case9 => cases h
  | case2 _ _ _ _ _ hstep ih | case4 _ _ _ _ _ _ _ hstep ih =>
    rw [List.cons_append, lineRest, hstep]
    exact ih h
  | case6 _ _ _ hescape hdigits =>
    obtain ⟨rfl, rfl⟩ := Prod.mk.inj (Option.some.inj h)
    rw [List.cons_append, lineRest, if_pos rfl]
    · exact hescape
    · exact hdigits
  | case7 _ _ _ _ hescape hdigits hmark hbackslash ih =>
    rw [List.cons_append, lineRest, if_neg hmark, if_pos hbackslash]
    · exact ih h
    · exact hescape
    · exact hdigits
  | case8 _ _ _ _ hescape hdigits hmark hbackslash htext ih =>
    rw [List.cons_append, lineRest, if_neg hmark, if_neg hbackslash, if_pos htext]
    · exact ih h
    · exact hescape
    · exact hdigits

/-- The closing marks of a text on several lines may be the last characters, and then no further
mark may follow. -/
theorem blockRest_append_stop (hstop : stop ≠ mark)
    (h : blockRest mark raw place done s = some (text', rest)) (more : List Char) :
    blockRest mark raw place done (s ++ stop :: more) = some (text', rest ++ stop :: more) := by
  fun_induction blockRest mark raw place done s with
  | case2 | case3 | case5 | case9 | case10 | case14 | case16 | case19 | case22 => cases h
  | case1 _ _ hcloses =>
    obtain ⟨rfl, rfl⟩ := Prod.mk.inj (Option.some.inj h)
    rw [List.nil_append, blockRest, if_neg hstop, if_pos hcloses]
  | case4 _ _ _ _ _ hstep ih | case15 _ _ _ _ _ _ _ hstep ih =>
    rw [List.cons_append, blockRest, hstep]
    exact ih h
  | case6 _ _ _ ih | case11 _ _ ih | case17 _ _ ih =>
    rw [List.cons_append, blockRest, if_pos rfl]
    exact ih h
  | case7 _ _ _ _ hmark hcloses =>
    obtain ⟨rfl, rfl⟩ := Prod.mk.inj (Option.some.inj h)
    rw [List.cons_append, blockRest, if_neg hmark, if_pos hcloses]
  | case8 _ _ _ _ hmark hcloses hcount _ _ hstep ih =>
    rw [List.cons_append, blockRest, if_neg hmark, if_neg hcloses, if_pos hcount, hstep]
    exact ih h
  | case12 _ _ _ hfeed hblank ih | case18 _ _ _ hfeed hblank ih =>
    rw [List.cons_append, blockRest, if_neg hfeed, if_pos hblank]
    exact ih h
  | case13 _ _ _ hfeed hblank _ _ hstep ih =>
    rw [List.cons_append, blockRest, if_neg hfeed, if_neg hblank, hstep]
    exact ih h
  | case20 _ _ _ hmargin ih =>
    rw [List.cons_append, blockRest, if_pos hmargin]
    exact ih h
  | case21 _ _ _ hmargin _ _ hstep ih =>
    rw [List.cons_append, blockRest, if_neg hmargin, hstep]
    exact ih h

/-- A string on one line is not read past where it ends. -/
theorem stopsAt_line (stop mark : Char) : (line mark).StopsAt stop :=
  fun _ _ _ h more => lineRest_append h (stop :: more)

/-- A string over several lines is not read past a mark that is not its own. -/
theorem stopsAt_block (hstop : stop ≠ mark) : (block mark).StopsAt stop := by
  intro s text' rest h more
  unfold block at h
  split at h
  · exact blockRest_append_stop hstop h more
  · rename_i hfeed
    rw [block]
    · exact blockRest_append_stop hstop h more
    · intro next heq
      cases s with
      | nil => cases h
      | cons c s =>
        obtain rfl := (List.cons.inj heq).1
        exact hfeed s rfl

/-- A string of either kind is not read past a mark that is not its own. -/
theorem stopsAt_text (hstop : stop ≠ mark) : (text mark).StopsAt stop := by
  intro s text' rest h more
  match s with
  | [] => cases h
  | [a] =>
    have hline : text mark ([a] ++ stop :: more) = line mark ([a] ++ stop :: more) :=
      if_neg fun hmarks => hstop hmarks.2
    rw [hline]
    exact stopsAt_line stop mark [a] text' rest h more
  | a :: b :: s =>
    by_cases hmarks : a = mark ∧ b = mark
    · rw [text, if_pos hmarks] at h
      rw [List.cons_append, List.cons_append, text, if_pos hmarks]
      exact stopsAt_block hstop s text' rest h more
    · rw [text, if_neg hmarks] at h
      rw [List.cons_append, List.cons_append, text, if_neg hmarks]
      exact stopsAt_line stop mark (a :: b :: s) text' rest h more

end Quotation

namespace Statement

variable {key : String} {v : Value}

/-! ## Keys -/

/-- Blanks are skipped up to the mark only. -/
theorem skipBlanks_append_stop (hstop : IsDelimiter stop) (s more : List Char) :
    skipBlanks (s ++ stop :: more) = skipBlanks s ++ stop :: more := by
  have hblank : isBlank stop = false := by obtain rfl | rfl := hstop <;> rfl
  exact dropWhile_append_stop hblank s more

/-- A run of characters of one kind, and what follows it. -/
theorem drop_takeWhile_append_stop {p : Char → Bool} (hstop : p stop = false)
    (s more : List Char) :
    (s ++ stop :: more).drop ((s ++ stop :: more).takeWhile p).length =
      s.drop (s.takeWhile p).length ++ stop :: more := by
  rw [takeWhile_append_stop hstop,
    List.drop_append_of_le_length (List.takeWhile_prefix p).length_le]

/-- A key is not read past a mark. -/
theorem stopsAt_simpleKey (hstop : IsDelimiter stop) : simpleKey.StopsAt stop := by
  have hbare : isBareKeyChar stop = false := by obtain rfl | rfl := hstop <;> rfl
  intro s key rest h more
  cases s with
  | nil => cases h
  | cons c s =>
    rw [simpleKey] at h
    rw [List.cons_append, simpleKey]
    split at h
    · rename_i hmark
      obtain ⟨⟨chars, rest⟩, hline, h⟩ := Option.map_eq_some_iff.mp h
      obtain ⟨rfl, rfl⟩ := Prod.mk.inj h
      rw [if_pos hmark, Quotation.stopsAt_line stop c s chars rest hline more, Option.map_some]
    · rename_i hmark
      have htake := takeWhile_append_stop hbare (c :: s) more
      have hdrop := drop_takeWhile_append_stop hbare (c :: s) more
      rw [if_neg hmark, ← List.cons_append]
      dsimp only at h ⊢
      split at h
      · cases h
      · rename_i hsome
        obtain ⟨rfl, rfl⟩ := Prod.mk.inj (Option.some.inj h)
        rw [hdrop, htake, if_neg hsome]

/-- A path is not read past a mark, however many keys it may have. -/
theorem stopsAt_pathWithin (hstop : IsDelimiter stop) (fuel : Nat) :
    (pathWithin fuel).StopsAt stop := by
  have hdot : stop ≠ '.' := by obtain rfl | rfl := hstop <;> decide
  induction fuel with
  | zero =>
    intro s path rest h
    cases h
  | succ fuel ih =>
    intro s path rest h more
    obtain ⟨⟨key, s'⟩, hkey, h⟩ := Option.bind_eq_some_iff.mp h
    have hkey' := stopsAt_simpleKey hstop _ _ _ hkey more
    rw [pathWithin, skipBlanks_append_stop hstop, hkey']
    simp only [Option.bind_eq_bind, Option.bind_some, skipBlanks_append_stop hstop]
    dsimp only at h
    split at h
    · rename_i s'' hskip
      obtain ⟨⟨path', rest'⟩, hpath, h⟩ := Option.bind_eq_some_iff.mp h
      obtain ⟨rfl, rfl⟩ := Prod.mk.inj (Option.some.inj h)
      simp only [hskip, List.cons_append, ih _ _ _ hpath more, Option.bind_some]
    · rename_i hskip
      obtain ⟨rfl, rfl⟩ := Prod.mk.inj (Option.some.inj h)
      split
      · rename_i heq
        obtain ⟨s'', hs'⟩ := exists_eq_cons_of_append_stop heq hdot
        exact absurd hs' (hskip s'')
      · rfl

/-- A path of keys is not read past a mark. -/
theorem stopsAt_path (hstop : IsDelimiter stop) : path.StopsAt stop :=
  stopsAt_pathWithin hstop maxDepth

/-! ## Values -/

/-- What is left after blanks, comments and line ends stays the same if there is something left. -/
theorem skipLines_append {inComment : Bool} {c : Char} (h : skipLines inComment s = c :: rest)
    (more : List Char) : skipLines inComment (s ++ more) = c :: (rest ++ more) := by
  fun_induction skipLines inComment s with
  | case1 => cases h
  | case2 _ _ ih =>
    rw [List.cons_append, skipLines, if_pos rfl]
    exact ih h
  | case3 _ _ hfeed htext ih =>
    rw [List.cons_append, skipLines, if_neg hfeed, if_pos rfl, if_pos htext]
    exact ih h
  | case4 _ _ hfeed htext =>
    obtain ⟨rfl, rfl⟩ := List.cons.inj h
    rw [List.cons_append, skipLines, if_neg hfeed, if_pos rfl, if_neg htext]
  | case5 _ _ _ hfeed hcomment hblank ih =>
    rw [List.cons_append, skipLines, if_neg hfeed, if_neg hcomment, if_pos hblank]
    exact ih h
  | case6 _ _ hcomment hfeed hblank ih =>
    rw [List.cons_append, skipLines, if_neg hfeed, if_neg hcomment, if_neg hblank, if_pos rfl]
    exact ih h
  | case7 _ _ _ hfeed hcomment hblank hhash =>
    obtain ⟨rfl, rfl⟩ := List.cons.inj h
    rw [List.cons_append, skipLines, if_neg hfeed, if_neg hcomment, if_neg hblank, if_neg hhash]

/-- The items of an array are read, perhaps in more steps. -/
theorem goesOn_itemsWithin {reader : Reader Value} (hreader : reader.StopsAt stop)
    (hempty : reader [] = none) {fuel fuel' : Nat} (hfuel : fuel ≤ fuel') :
    (itemsWithin reader fuel).GoesOn stop (itemsWithin reader fuel') := by
  induction fuel generalizing fuel' with
  | zero =>
    intro s items rest h
    cases h
  | succ fuel ih =>
    obtain ⟨fuel', rfl⟩ : ∃ n, fuel' = n + 1 := Nat.exists_eq_add_one.mpr (by omega)
    intro s items rest h more
    rw [itemsWithin] at h ⊢
    split at h
    · rename_i s' hclose
      obtain ⟨rfl, rfl⟩ := Prod.mk.inj (Option.some.inj h)
      rw [skipLines_append hclose]
      rfl
    · rename_i hopen
      obtain ⟨⟨v, s'⟩, hv, h⟩ := Option.bind_eq_some_iff.mp h
      -- no value is read from an empty text, so blanks and line ends do not run on
      cases hs : skipLines false s with
      | nil => simp [hs, hempty] at hv
      | cons c item =>
        rw [skipLines_append hs]
        rw [hs] at hv hopen
        have hv' := hreader _ _ _ hv more
        rw [List.cons_append] at hv'
        split
        · rename_i heq
          obtain rfl := (List.cons.inj heq).1
          exact absurd rfl (hopen item)
        · dsimp only at h
          simp only [hv', Option.bind_eq_bind, Option.bind_some]
          split at h
          · rename_i hcomma
            obtain ⟨⟨vs, rest'⟩, hvs, h⟩ := Option.bind_eq_some_iff.mp h
            obtain ⟨rfl, rfl⟩ := Prod.mk.inj (Option.some.inj h)
            have hvs' := ih (Nat.le_of_succ_le_succ hfuel) _ _ _ hvs more
            simp only [skipLines_append hcomma, hvs', Option.bind_some]
          · rename_i hclose
            obtain ⟨rfl, rfl⟩ := Prod.mk.inj (Option.some.inj h)
            simp only [skipLines_append hclose]
          · cases h

/-- A pair is not read past a mark, if its value is not. -/
theorem stopsAt_pair (hstop : IsDelimiter stop) {reader : Reader Value}
    (hreader : reader.StopsAt stop) : (pair reader).StopsAt stop := by
  intro s p rest h more
  obtain ⟨⟨keys, s'⟩, hpath, h⟩ := Option.bind_eq_some_iff.mp h
  dsimp only at h
  split at h
  · obtain ⟨⟨v, rest'⟩, hv, h⟩ := Option.bind_eq_some_iff.mp h
    obtain ⟨rfl, rfl⟩ := Prod.mk.inj (Option.some.inj h)
    have hv' := hreader _ _ _ hv more
    rw [pair, stopsAt_path hstop _ _ _ hpath more]
    simp only [List.cons_append, Option.bind_eq_bind, Option.bind_some,
      skipBlanks_append_stop hstop, hv']
  · cases h

/-- The pairs within braces are read, perhaps in more steps. -/
theorem goesOn_pairsWithin (hstop : IsDelimiter stop) {reader : Reader Value}
    (hreader : reader.StopsAt stop) {fuel fuel' : Nat} (hfuel : fuel ≤ fuel') :
    (pairsWithin reader fuel).GoesOn stop (pairsWithin reader fuel') := by
  induction fuel generalizing fuel' with
  | zero =>
    intro s pairs rest h
    cases h
  | succ fuel ih =>
    obtain ⟨fuel', rfl⟩ : ∃ n, fuel' = n + 1 := Nat.exists_eq_add_one.mpr (by omega)
    intro s pairs rest h more
    obtain ⟨⟨p, s'⟩, hp, h⟩ := Option.bind_eq_some_iff.mp h
    dsimp only at h
    rw [pairsWithin, stopsAt_pair hstop hreader _ _ _ hp more]
    simp only [Option.bind_eq_bind, Option.bind_some, skipBlanks_append_stop hstop]
    split at h
    · rename_i hcomma
      obtain ⟨⟨ps, rest'⟩, hps, h⟩ := Option.bind_eq_some_iff.mp h
      obtain ⟨rfl, rfl⟩ := Prod.mk.inj (Option.some.inj h)
      have hps' := ih (Nat.le_of_succ_le_succ hfuel) _ _ _ hps more
      simp only [hcomma, List.cons_append, hps', Option.bind_some]
    · rename_i hclose
      obtain ⟨rfl, rfl⟩ := Prod.mk.inj (Option.some.inj h)
      simp only [hclose, List.cons_append]
    · cases h

/-- A table in braces is not read past a mark, if its values are not. -/
theorem stopsAt_inlineTable (hstop : IsDelimiter stop) {reader : Reader Value}
    (hreader : reader.StopsAt stop) : (inlineTable reader).StopsAt stop := by
  have hbrace : stop ≠ '\x7d' := by obtain rfl | rfl := hstop <;> decide
  intro s v rest h more
  rw [inlineTable] at h ⊢
  rw [skipBlanks_append_stop hstop]
  split at h
  · rename_i hclose
    obtain ⟨rfl, rfl⟩ := Prod.mk.inj (Option.some.inj h)
    rw [hclose]
    rfl
  · rename_i hopen
    obtain ⟨⟨pairs, rest'⟩, hpairs, h⟩ := Option.bind_eq_some_iff.mp h
    obtain ⟨entries, hentries, h⟩ := Option.bind_eq_some_iff.mp h
    obtain ⟨rfl, rfl⟩ := Prod.mk.inj (Option.some.inj h)
    have hlength : (skipBlanks s).length ≤ (skipBlanks s ++ stop :: more).length := by
      rw [List.length_append]
      omega
    have hpairs' := goesOn_pairsWithin hstop hreader hlength _ _ _ hpairs more
    split
    · rename_i heq
      obtain ⟨s', hs⟩ := exists_eq_cons_of_append_stop heq hbrace
      exact absurd hs (hopen s')
    · simp only [hpairs', Option.bind_eq_bind, Option.bind_some, hentries]

/-- A value without quotation marks is not read past a mark. -/
theorem stopsAt_bareValue (hstop : IsDelimiter stop) : bareValue.StopsAt stop := by
  have hbare : Lexeme.isBareValueChar stop = false := by obtain rfl | rfl := hstop <;> rfl
  have hspace : stop ≠ ' ' := by obtain rfl | rfl := hstop <;> decide
  intro s v rest h more
  rw [bareValue] at h ⊢
  rw [takeWhile_append_stop hbare,
    List.drop_append_of_le_length (List.takeWhile_prefix _).length_le]
  generalize s.takeWhile Lexeme.isBareValueChar = token at h ⊢
  cases hs : s.drop token.length with
  | nil =>
    rw [hs] at h
    rw [if_neg (by simp)] at h
    rw [List.nil_append, if_neg (by simp [hspace])]
    obtain ⟨w, hw, h⟩ := Option.map_eq_some_iff.mp h
    obtain ⟨rfl, rfl⟩ := Prod.mk.inj h
    rw [hw]
    rfl
  | cons c s' =>
    rw [hs] at h
    rw [List.cons_append]
    simp only [List.head?_cons, List.drop_succ_cons, List.drop_zero,
      takeWhile_append_stop hbare] at h ⊢
    split at h
    · rename_i hdate
      rw [if_pos hdate]
      split at h
      · rename_i htime
        obtain ⟨rfl, rfl⟩ := Prod.mk.inj (Option.some.inj h)
        rw [if_pos htime, ← List.cons_append, List.drop_append_of_le_length]
        have hlength := (List.takeWhile_prefix Lexeme.isBareValueChar (l := s')).length_le
        rw [List.length_cons]
        omega
      · cases h
    · rename_i hword
      rw [if_neg hword]
      obtain ⟨w, hw, h⟩ := Option.map_eq_some_iff.mp h
      obtain ⟨rfl, rfl⟩ := Prod.mk.inj h
      rw [hw]
      rfl

/-- The empty text is no value. -/
theorem value_nil (depth : Nat) : value depth [] = none := by
  cases depth <;> rfl

/-- A value is not read past a mark, however deep it may be. -/
theorem stopsAt_value (hstop : IsDelimiter stop) (depth : Nat) : (value depth).StopsAt stop := by
  have hmark : Quotation.isMark stop = false := by obtain rfl | rfl := hstop <;> rfl
  induction depth using Nat.strongRecOn with
  | ind depth ih =>
    intro s v rest h more
    cases s with
    | nil =>
      rw [value_nil] at h
      cases h
    | cons c s =>
      rw [value.eq_def] at h
      rw [List.cons_append, value.eq_def]
      dsimp only at h ⊢
      split at h
      · rename_i hquoted
        obtain ⟨⟨chars, rest⟩, htext, h⟩ := Option.map_eq_some_iff.mp h
        obtain ⟨rfl, rfl⟩ := Prod.mk.inj h
        have hne : stop ≠ c := by
          rintro rfl
          rw [hmark] at hquoted
          cases hquoted
        rw [if_pos hquoted, Quotation.stopsAt_text hne s chars rest htext more, Option.map_some]
      · rename_i hquoted
        rw [if_neg hquoted]
        split at h
        · rename_i hbracket
          rw [if_pos hbracket]
          cases depth with
          | zero => cases h
          | succ depth =>
            obtain ⟨⟨items, rest⟩, hitems, h⟩ := Option.map_eq_some_iff.mp h
            obtain ⟨rfl, rfl⟩ := Prod.mk.inj h
            have hlength : s.length + 1 ≤ (s ++ stop :: more).length + 1 := by
              rw [List.length_append]
              omega
            have hitems' := goesOn_itemsWithin (ih depth (Nat.lt_succ_self depth))
              (value_nil depth) hlength s items rest hitems more
            dsimp only
            rw [hitems', Option.map_some]
        · rename_i hbracket
          rw [if_neg hbracket]
          split at h
          · rename_i hbrace
            rw [if_pos hbrace]
            cases depth with
            | zero => cases h
            | succ depth =>
              exact stopsAt_inlineTable hstop (ih depth (Nat.lt_succ_self depth)) s v rest h more
          · rename_i hbrace
            rw [if_neg hbrace]
            exact stopsAt_bareValue hstop (c :: s) v rest h more

/-! ## Statements -/

/-- A path in brackets is not read past a mark. -/
theorem stopsAt_closedPath (hstop : IsDelimiter stop) : Reader.StopsAt stop closedPath := by
  intro s path rest h more
  obtain ⟨⟨keys, s'⟩, hpath, h⟩ := Option.bind_eq_some_iff.mp h
  dsimp only at h
  split at h
  · obtain ⟨rfl, rfl⟩ := Prod.mk.inj (Option.some.inj h)
    rw [closedPath, stopsAt_path hstop _ _ _ hpath more]
    rfl
  · cases h

/-- A statement is not read past a mark. -/
theorem stopsAt_read (hstop : IsDelimiter stop) : Reader.StopsAt stop Statement.read := by
  have hbracket : stop ≠ '[' := by obtain rfl | rfl := hstop <;> decide
  intro s st rest h more
  unfold Statement.read at h
  split at h
  · rename_i s'
    obtain ⟨⟨keys, s''⟩, hpath, h⟩ := Option.bind_eq_some_iff.mp h
    dsimp only at h
    split at h
    · obtain ⟨rfl, rfl⟩ := Prod.mk.inj (Option.some.inj h)
      rw [List.cons_append, List.cons_append, Statement.read,
        stopsAt_closedPath hstop _ _ _ hpath more]
      rfl
    · cases h
  · rename_i s' hsingle
    obtain ⟨⟨keys, s''⟩, hpath, h⟩ := Option.bind_eq_some_iff.mp h
    obtain ⟨rfl, rfl⟩ := Prod.mk.inj (Option.some.inj h)
    rw [List.cons_append, Statement.read, stopsAt_closedPath hstop _ _ _ hpath more]
    · rfl
    · intro tail heq
      obtain ⟨s'', rfl⟩ := exists_eq_cons_of_append_stop heq hbracket
      exact hsingle s'' rfl
  · rename_i hdouble hsingle
    obtain ⟨⟨p, s''⟩, hpair, h⟩ := Option.bind_eq_some_iff.mp h
    obtain ⟨rfl, rfl⟩ := Prod.mk.inj (Option.some.inj h)
    have hhead : ∀ tail, s ++ stop :: more ≠ '[' :: tail := by
      intro tail heq
      obtain ⟨s', rfl⟩ := exists_eq_cons_of_append_stop heq hbracket
      exact hsingle s' rfl
    rw [Statement.read, stopsAt_pair hstop (stopsAt_value hstop maxDepth) _ _ _ hpair more]
    · rfl
    · exact fun tail heq => hhead _ heq
    · exact fun tail heq => hhead _ heq

/-! ## Lines -/

/-- A text, and what it becomes when a line feed and the lines of another text follow: where all of
it has been read, only the other text is left. -/
inductive FollowedBy (t : List Char) : List Char → List Char → Prop
  | lineFeed {s : List Char} : FollowedBy t s (s ++ '\n' :: t)
  | done : FollowedBy t [] t

variable {t s' : List Char}

/-- What follows a line feed, or nothing at the end of the text. -/
def behindFeed? : List Char → Option (List Char)
  | [] => some []
  | c :: rest => if c = '\n' then some rest else none

/-- A text that begins with a line feed goes on behind it, and no other text does. -/
theorem behindFeed?_cons (c : Char) (rest : List Char) :
    behindFeed? (c :: rest) = if c = '\n' then some rest else none :=
  rfl

/-- A line ends behind its comment, whether or not a line feed and further lines follow the text. -/
theorem exists_behindFeed? (s t : List Char) :
    ∃ u, endLine? s = behindFeed? u ∧ endLine? (s ++ '\n' :: t) = behindFeed? (u ++ '\n' :: t) := by
  have hfeed : IsDelimiter '\n' := .inl rfl
  rw [endLine?, endLine?, skipBlanks_append_stop hfeed]
  cases skipBlanks s with
  | nil => exact ⟨[], rfl, rfl⟩
  | cons c u =>
    by_cases hc : c = '#'
    · subst hc
      refine ⟨u.dropWhile isTextChar, rfl, ?_⟩
      rw [← dropWhile_append_stop (by decide)]
      rfl
    · exact ⟨c :: u, by simp [hc, behindFeed?], by simp [hc, behindFeed?]⟩

/-- A line that cannot end there cannot end there with more lines behind it. -/
theorem endLine?_append_of_none (h : endLine? s = none) (t : List Char) :
    endLine? (s ++ '\n' :: t) = none := by
  obtain ⟨u, hu, hu'⟩ := exists_behindFeed? s t
  rw [hu] at h
  rw [hu']
  cases u with
  | nil => cases h
  | cons c u =>
    rw [behindFeed?_cons] at h
    rw [List.cons_append, behindFeed?_cons]
    split at h
    · cases h
    · rename_i hc
      rw [if_neg hc]

/-- Where a line can end, it can end with more lines behind it, which follow. -/
theorem endLine?_append (h : endLine? s = some rest) (t : List Char) :
    ∃ rest', endLine? (s ++ '\n' :: t) = some rest' ∧ FollowedBy t rest rest' := by
  obtain ⟨u, hu, hu'⟩ := exists_behindFeed? s t
  rw [hu] at h
  rw [hu']
  cases u with
  | nil =>
    obtain rfl := Option.some.inj h
    exact ⟨t, rfl, .done⟩
  | cons c u =>
    rw [behindFeed?_cons] at h
    rw [List.cons_append, behindFeed?_cons]
    split at h
    · rename_i hc
      obtain rfl := Option.some.inj h
      exact ⟨_, if_pos hc, .lineFeed⟩
    · cases h

/-- A line that holds something is read as a statement, and the lines behind it one by one. -/
theorem linesWithin_of_read {fuel : Nat} (hsome : s ≠ []) (h : endLine? s = none) :
    linesWithin (fuel + 1) s = (do
      let (statement, s) ← Statement.read (skipBlanks s)
      let s ← endLine? s
      let statements ← linesWithin fuel s
      some (statement :: statements)) := by
  cases s with
  | nil => exact absurd rfl hsome
  | cons c s => simp only [linesWithin, h]

/-- The lines of a text are read before those that follow it. -/
theorem linesWithin_append {fuel fuel' : Nat} {statements all : List Statement}
    (h : linesWithin fuel s = some statements) (hfollow : FollowedBy t s s')
    (hall : linesWithin fuel' s' = some all) :
    ∃ fuel'' more, all = statements ++ more ∧ linesWithin fuel'' t = some more := by
  have hstop : IsDelimiter '\n' := .inl rfl
  have hdone : ∀ fuel, linesWithin fuel [] = some [] := fun fuel => by cases fuel <;> rfl
  -- by induction on the steps for the first text; those for both texts only have to suffice
  induction fuel generalizing s s' fuel' statements all with
  | zero =>
    cases s with
    | nil =>
      obtain rfl := Option.some.inj h
      cases hfollow with
      | done => exact ⟨fuel', all, rfl, hall⟩
      | lineFeed =>
        cases fuel' with
        | zero => cases hall
        | succ fuel' =>
          have hfeed : endLine? ([] ++ '\n' :: t) = some t := rfl
          rw [linesWithin_of_endLine? hfeed] at hall
          exact ⟨fuel', all, rfl, hall⟩
    | cons c s => cases h
  | succ fuel ih =>
    cases hfollow with
    | done =>
      obtain rfl := Option.some.inj ((hdone _).symm.trans h)
      exact ⟨fuel', all, rfl, hall⟩
    | lineFeed =>
      obtain ⟨fuel', rfl⟩ : ∃ n, fuel' = n + 1 := by
        cases fuel' with
        | zero => cases s <;> cases hall
        | succ n => exact ⟨n, rfl⟩
      cases hend : endLine? s with
      | some rest =>
        obtain ⟨rest', hend', hfollow⟩ := endLine?_append hend t
        rw [linesWithin_of_endLine? hend] at h
        rw [linesWithin_of_endLine? hend'] at hall
        exact ih h hfollow hall
      | none =>
        have hsome : s ≠ [] := by
          rintro rfl
          cases hend
        rw [linesWithin_of_read hsome hend] at h
        rw [linesWithin_of_read (by simp) (endLine?_append_of_none hend t),
          skipBlanks_append_stop hstop] at hall
        obtain ⟨⟨st, s₁⟩, hread, h⟩ := Option.bind_eq_some_iff.mp h
        obtain ⟨s₂, hend₁, h⟩ := Option.bind_eq_some_iff.mp h
        obtain ⟨sts, hsts, h⟩ := Option.bind_eq_some_iff.mp h
        obtain rfl := Option.some.inj h
        obtain ⟨s₂', hend₁', hfollow⟩ := endLine?_append hend₁ t
        rw [stopsAt_read hstop _ _ _ hread t] at hall
        simp only [Option.bind_eq_bind, Option.bind_some, hend₁'] at hall
        obtain ⟨all', hall', hall⟩ := Option.bind_eq_some_iff.mp hall
        obtain rfl := Option.some.inj hall
        obtain ⟨fuel'', more, rfl, hmore⟩ := ih hsts hfollow hall'
        exact ⟨fuel'', more, rfl, hmore⟩

end Statement

end PlatformAdmin.Toml
