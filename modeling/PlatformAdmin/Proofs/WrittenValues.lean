import PlatformAdmin.Proofs.Tables
import PlatformAdmin.Proofs.WrittenStrings

/-!
# How TOML keys and values are written

The relations of this module say how a key may be written, bare or between quotation marks, how a
path of keys is, with dots between them, and how a value may be: a string with escapes, a truth
value, or a table of such values within braces, with blanks around all parts.  They speak of texts
alone and not of the reader.

Each form has a lemma that the reader gets back what was written, whatever text follows it that may
follow it there.
-/

set_option autoImplicit false

namespace PlatformAdmin.Toml

/-! ## The written forms -/

/-- Spaces and tabs. -/
def Blanks (s : List Char) : Prop :=
  ∀ c ∈ s, c = ' ' ∨ c = '\t'

instance (s : List Char) : Decidable (Blanks s) :=
  List.decidableBAll _ s

/-- A key, and a way to write it. -/
inductive KeyText (key : String) : List Char → Prop
  | bare (nonempty : key ≠ "")
      (chars : ∀ c ∈ key.toList, c.isAlphanum = true ∨ c = '-' ∨ c = '_') :
      KeyText key key.toList
  | basic {w : List Char} (string : BasicString key w) : KeyText key w
  | literal (chars : ∀ c ∈ key.toList, IsTextChar c ∧ c ≠ '\x27') :
      KeyText key ('\x27' :: (key.toList ++ ['\x27']))

/-- A path of keys, and a way to write it: with dots between them, and blanks around each. -/
inductive PathText : List String → List Char → Prop
  | last {key : String} {b w a : List Char} (before : Blanks b) (keyText : KeyText key w)
      (behind : Blanks a) : PathText [key] (b ++ (w ++ a))
  | cons {key : String} {path : List String} {b w a ws : List Char} (before : Blanks b)
      (keyText : KeyText key w) (behind : Blanks a) (others : PathText path ws) :
      PathText (key :: path) (b ++ (w ++ (a ++ '.' :: ws)))

/-- A value that is a basic string or a truth value. -/
inductive ScalarText : Value → List Char → Prop
  | string {s : String} {w : List Char} (string : BasicString s w) : ScalarText (.string s) w
  | isTrue : ScalarText (.boolean true) "true".toList
  | isFalse : ScalarText (.boolean false) "false".toList

/-- A key with its value, which is written in this manner. -/
inductive PairText (Written : Value → List Char → Prop) : String × Value → List Char → Prop
  | pair {key : String} {v : Value} {wk b a wv : List Char} (keyText : KeyText key wk)
      (before : Blanks b) (behind : Blanks a) (valueText : Written v wv) :
      PairText Written (key, v) (wk ++ (b ++ '=' :: (a ++ wv)))

/-- The pairs between two braces. -/
inductive PairsText : List (String × Value) → List Char → Prop
  | last {p : String × Value} {b w a : List Char} (before : Blanks b)
      (pairText : PairText ScalarText p w) (behind : Blanks a) : PairsText [p] (b ++ (w ++ a))
  | cons {p : String × Value} {ps : List (String × Value)} {b w a ws : List Char}
      (before : Blanks b) (pairText : PairText ScalarText p w) (behind : Blanks a)
      (others : PairsText ps ws) : PairsText (p :: ps) (b ++ (w ++ (a ++ ',' :: ws)))

/-- A value, and a way to write it: tables within braces hold no further ones. -/
inductive ValueText : Value → List Char → Prop
  | scalar {v : Value} {w : List Char} (scalarText : ScalarText v w) : ValueText v w
  | braces {ps : List (String × Value)} {w : List Char} (pairsText : PairsText ps w)
      (distinct : (Entries.keys ps).Nodup) :
      ValueText (.table .braces ps) ('\x7b' :: (w ++ ['\x7d']))

/-! ## First characters -/

variable {b a c w s rest tail : List Char} {key : String} {v : Value}

/-- There is a first character, and it is none of these. -/
def BeginsWithout (excluded : List Char) (s : List Char) : Prop :=
  ∃ first rest, s = first :: rest ∧ first ∉ excluded

/-- How a text begins does not depend on what follows it. -/
theorem BeginsWithout.append {excluded : List Char} (h : BeginsWithout excluded s)
    (rest : List Char) : BeginsWithout excluded (s ++ rest) := by
  obtain ⟨first, more, rfl, hfirst⟩ := h
  exact ⟨first, more ++ rest, rfl, hfirst⟩

/-- What begins with none of many characters begins with none of some of them. -/
theorem BeginsWithout.mono {excluded excluded' : List Char} (h : BeginsWithout excluded s)
    (hsub : excluded' ⊆ excluded) : BeginsWithout excluded' s := by
  obtain ⟨first, more, rfl, hfirst⟩ := h
  exact ⟨first, more, rfl, fun hmem => hfirst (hsub hmem)⟩

/-- A bare key is made of letters, digits, hyphens and underscores. -/
theorem isBareKeyChar_iff {x : Char} :
    Statement.isBareKeyChar x = true ↔ x.isAlphanum = true ∨ x = '-' ∨ x = '_' := by
  simp [Statement.isBareKeyChar, or_assoc]

/-- Some characters with which no key begins, though other things do. -/
def otherBeginnings : List Char :=
  [' ', '\t', '\n', '#', '\uFEFF', '[', '\x7d']

/-- A key begins with none of the characters that begin something else. -/
theorem KeyText.begins (h : KeyText key w) : BeginsWithout otherBeginnings w := by
  cases h with
  | bare nonempty chars =>
    cases hkey : key.toList with
    | nil => exact absurd (String.toList_eq_nil_iff.mp hkey) nonempty
    | cons first rest =>
      have hfirst : Statement.isBareKeyChar first = true :=
        isBareKeyChar_iff.mpr (chars first (by rw [hkey]; exact List.mem_cons_self))
      have hothers : otherBeginnings.any Statement.isBareKeyChar = false := rfl
      refine ⟨first, rest, rfl, fun hmem => ?_⟩
      exact List.any_eq_false.mp hothers first hmem hfirst
  | basic string =>
    obtain ⟨chars⟩ := string
    exact ⟨_, _, rfl, by decide⟩
  | literal chars => exact ⟨_, _, rfl, by decide⟩

/-- A string or a truth value does not begin with a blank. -/
theorem ScalarText.begins (h : ScalarText v w) : BeginsWithout [' ', '\t'] w := by
  cases h with
  | string string =>
    obtain ⟨chars⟩ := string
    exact ⟨_, _, rfl, by decide⟩
  | isTrue => exact ⟨_, _, rfl, by decide⟩
  | isFalse => exact ⟨_, _, rfl, by decide⟩

/-- A value does not begin with a blank. -/
theorem ValueText.begins (h : ValueText v w) : BeginsWithout [' ', '\t'] w := by
  cases h with
  | scalar scalarText => exact scalarText.begins
  | braces _ _ => exact ⟨_, _, rfl, by decide⟩

/-- A pair begins with none of the characters that begin something else. -/
theorem PairText.begins {Written : Value → List Char → Prop} {p : String × Value}
    (h : PairText Written p w) : BeginsWithout otherBeginnings w := by
  obtain ⟨keyText, -, -, -⟩ := h
  exact keyText.begins.append _

/-! ## They are written on one line -/

/-- Blanks are on one line. -/
theorem Blanks.onOneLine (h : Blanks b) : OnOneLine b := by
  intro x hx
  obtain rfl | rfl := h x hx <;> decide

/-- A letter or a digit is a text character. -/
theorem isTextChar_of_isAlphanum {x : Char} (h : x.isAlphanum = true) : IsTextChar x := by
  -- no character between the first digit and the last letter is a control character
  have hrange : '0'.val ≤ x.val ∧ x.val ≤ 'z'.val := by
    obtain halpha | hdigit := Bool.or_eq_true_iff.mp h
    · obtain hupper | hlower := Bool.or_eq_true_iff.mp halpha
      · obtain ⟨hlow, hhigh⟩ := of_decide_eq_true hupper
        exact ⟨UInt32.le_trans (by decide) hlow, UInt32.le_trans hhigh (by decide)⟩
      · obtain ⟨hlow, hhigh⟩ := Bool.and_eq_true_iff.mp hlower
        exact ⟨UInt32.le_trans (by decide) (of_decide_eq_true hlow), of_decide_eq_true hhigh⟩
    · obtain ⟨hlow, hhigh⟩ := Bool.and_eq_true_iff.mp hdigit
      exact ⟨of_decide_eq_true hlow, UInt32.le_trans (of_decide_eq_true hhigh) (by decide)⟩
  have hlow : 0x30 ≤ x.toNat := UInt32.le_iff_toNat_le.mp hrange.1
  have hhigh : x.toNat ≤ 0x7A := UInt32.le_iff_toNat_le.mp hrange.2
  exact .inr ⟨by omega, by omega⟩

/-- A key is on one line. -/
theorem KeyText.onOneLine (h : KeyText key w) : OnOneLine w := by
  cases h with
  | bare _ chars =>
    intro x hx
    obtain halphanum | rfl | rfl := chars x hx
    · exact isTextChar_of_isAlphanum halphanum
    · decide
    · decide
  | basic string => exact string.onOneLine
  | literal chars =>
    have hchars : OnOneLine key.toList := fun x hx => (chars x hx).1
    exact .cons (by decide) (hchars.append (.cons (by decide) .nil))

/-- A string or a truth value is on one line. -/
theorem ScalarText.onOneLine (h : ScalarText v w) : OnOneLine w := by
  cases h with
  | string string => exact string.onOneLine
  | isTrue => exact (by decide : OnOneLine "true".toList)
  | isFalse => exact (by decide : OnOneLine "false".toList)

/-- A pair is on one line if its value is. -/
theorem PairText.onOneLine {Written : Value → List Char → Prop} {p : String × Value}
    (h : PairText Written p w) (hvalue : ∀ {v w}, Written v w → OnOneLine w) : OnOneLine w := by
  obtain ⟨keyText, before, behind, valueText⟩ := h
  exact keyText.onOneLine.append
    (before.onOneLine.append (.cons (by decide) (behind.onOneLine.append (hvalue valueText))))

/-- Pairs are on one line. -/
theorem PairsText.onOneLine {ps : List (String × Value)} (h : PairsText ps w) : OnOneLine w := by
  induction h with
  | last before pairText behind =>
    have hpair := pairText.onOneLine ScalarText.onOneLine
    exact before.onOneLine.append (hpair.append behind.onOneLine)
  | cons before pairText behind _ ih =>
    have hpair := pairText.onOneLine ScalarText.onOneLine
    have hothers := behind.onOneLine.append (.cons (by decide : IsTextChar ',') ih)
    exact before.onOneLine.append (hpair.append hothers)

/-- A value is on one line. -/
theorem ValueText.onOneLine (h : ValueText v w) : OnOneLine w := by
  cases h with
  | scalar scalarText => exact scalarText.onOneLine
  | braces pairsText _ =>
    exact .cons (by decide) (pairsText.onOneLine.append (.cons (by decide) .nil))

namespace Statement

/-! ## Blanks and keys -/

/-- Blanks are passed over. -/
theorem skipBlanks_append (h : Blanks b) (rest : List Char) :
    skipBlanks (b ++ rest) = skipBlanks rest := by
  induction b with
  | nil => rfl
  | cons first b ih =>
    obtain ⟨hfirst, hb⟩ := List.forall_mem_cons.mp h
    have hblank : isBlank first = true := by
      obtain rfl | rfl := hfirst <;> rfl
    rw [List.cons_append, skipBlanks, List.dropWhile_cons_of_pos hblank]
    exact ih hb

/-- What does not begin with a blank is not passed over. -/
theorem skipBlanks_of_begins (h : BeginsWithout [' ', '\t'] s) : skipBlanks s = s := by
  obtain ⟨first, rest, rfl, hfirst⟩ := h
  have hblank : ¬isBlank first = true := by
    simpa [isBlank] using hfirst
  rw [skipBlanks, List.dropWhile_cons_of_neg hblank]

/-- Behind a bare key, and blanks, stands a character that is none of the key. -/
theorem head_not_isBareKeyChar {stop : Char} (rest : List Char) (hb : Blanks b)
    (hstop : isBareKeyChar stop = false) :
    ∃ first more, b ++ stop :: rest = first :: more ∧ isBareKeyChar first = false := by
  cases b with
  | nil => exact ⟨stop, rest, rfl, hstop⟩
  | cons first b =>
    refine ⟨first, _, rfl, ?_⟩
    obtain rfl | rfl := hb first List.mem_cons_self <;> rfl

/-- A key that is written is read, up to a character that is none of a bare key. -/
theorem simpleKey_of_keyText (h : KeyText key w) {first : Char} {more : List Char}
    (hfirst : isBareKeyChar first = false) :
    simpleKey (w ++ first :: more) = some (key, first :: more) := by
  cases h with
  | bare nonempty chars =>
    have hbare : ∀ x ∈ key.toList, isBareKeyChar x = true :=
      fun x hx => isBareKeyChar_iff.mpr (chars x hx)
    have htake : (key.toList ++ first :: more).takeWhile isBareKeyChar = key.toList := by
      rw [List.takeWhile_append_of_pos hbare, List.takeWhile_cons_of_neg (by simp [hfirst]),
        List.append_nil]
    cases hkey : key.toList with
    | nil => exact absurd (String.toList_eq_nil_iff.mp hkey) nonempty
    | cons x xs =>
      have hmark : Quotation.isMark x = false := by
        have hx := hbare x (by rw [hkey]; exact List.mem_cons_self)
        cases hm : Quotation.isMark x with
        | false => rfl
        | true =>
          simp only [Quotation.isMark, Bool.or_eq_true, beq_iff_eq] at hm
          obtain rfl | rfl := hm <;> cases hx
      rw [hkey, List.cons_append] at htake
      rw [List.cons_append, simpleKey, hmark]
      simp only [Bool.false_eq_true, if_false, htake, List.isEmpty_cons]
      rw [← hkey, String.ofList_toList]
      congr 2
      rw [hkey, ← List.cons_append]
      exact List.drop_left
  | @basic w string =>
    obtain ⟨chars⟩ := string
    have hline := Quotation.line_of_basicChars (first :: more) chars
    simp [simpleKey, Quotation.isMark, hline]
  | literal chars =>
    have hline := Quotation.line_of_literal (first :: more) chars
    simp [simpleKey, Quotation.isMark, hline]

/-- A key is read with the blanks around it, up to the sign that follows. -/
theorem simpleKey_of_blanks (stop : Char) (rest : List Char) (hb : Blanks b) (hkey : KeyText key w)
    (ha : Blanks a) (hstop : isBareKeyChar stop = false ∧ isBlank stop = false) :
    simpleKey (skipBlanks (b ++ (w ++ (a ++ stop :: rest)))) = some (key, a ++ stop :: rest) ∧
      skipBlanks (a ++ stop :: rest) = stop :: rest := by
  obtain ⟨first, more, heq, hfirst⟩ := head_not_isBareKeyChar rest ha hstop.1
  have hbegins : BeginsWithout [' ', '\t'] (w ++ (a ++ stop :: rest)) :=
    (hkey.begins.mono (by decide)).append _
  constructor
  · rw [skipBlanks_append hb, skipBlanks_of_begins hbegins, heq]
    exact simpleKey_of_keyText hkey hfirst
  · rw [skipBlanks_append ha, skipBlanks, List.dropWhile_cons_of_neg (by simp [hstop.2])]

/-- A path is read up to the sign that ends it, if there are as many steps as keys. -/
theorem pathWithin_of_pathText {stop : Char} {keys : List String} (h : PathText keys w)
    (hstop : stop = '=' ∨ stop = ']') (rest : List Char) (fuel : Nat) :
    pathWithin fuel (w ++ stop :: rest) =
      if keys.length ≤ fuel then some (keys, stop :: rest) else none := by
  have hends : isBareKeyChar stop = false ∧ isBlank stop = false ∧ stop ≠ '.' := by
    obtain rfl | rfl := hstop <;> decide
  obtain ⟨hbare, hblank, hdot⟩ := hends
  induction h generalizing fuel with
  | last before keyText behind =>
    cases fuel with
    | zero => rfl
    | succ fuel =>
      obtain ⟨hkey, hskip⟩ :=
        simpleKey_of_blanks stop rest before keyText behind ⟨hbare, hblank⟩
      rw [List.append_assoc, List.append_assoc, pathWithin, hkey]
      simp only [Option.bind_eq_bind, Option.bind_some, hskip]
      rw [if_pos (by simp)]
      split
      · rename_i hmatch
        exact absurd (List.cons.inj hmatch).1 hdot
      · rfl
  | @cons key keys b w a ws before keyText behind _ ih =>
    cases fuel with
    | zero => rfl
    | succ fuel =>
      obtain ⟨hkey, hskip⟩ :=
        simpleKey_of_blanks '.' (ws ++ stop :: rest) before keyText behind (by decide)
      rw [List.append_assoc, List.append_assoc, List.append_assoc, List.cons_append, pathWithin,
        hkey]
      simp only [Option.bind_eq_bind, Option.bind_some, hskip, ih fuel]
      by_cases hfuel : keys.length ≤ fuel
      · rw [if_pos hfuel, if_pos (by simpa using hfuel)]
        rfl
      · rw [if_neg hfuel, if_neg (by simpa using hfuel)]
        rfl

/-- A path of a single key, up to the sign that ends it. -/
theorem path_of_keyText {stop : Char} (hb : Blanks b) (hkey : KeyText key w) (ha : Blanks a)
    (hstop : stop = '=' ∨ stop = ']') :
    path (b ++ (w ++ (a ++ stop :: rest))) = some ([key], stop :: rest) := by
  have hpath := pathWithin_of_pathText (.last hb hkey ha) hstop rest maxDepth
  rw [List.append_assoc, List.append_assoc] at hpath
  exact hpath

/-! ## Values -/

/-- The characters that may follow a value. -/
def valueEnds : List Char :=
  [' ', '\t', '#', '\n', ',', '\x7d']

/-- What may follow a value: nothing, or one of these characters. -/
def EndsValue (rest : List Char) : Prop :=
  ∀ first, rest.head? = some first → first ∈ valueEnds

/-- Behind a value stands nothing that a bare value could take. -/
theorem EndsValue.takeWhile_eq_nil (h : EndsValue rest) :
    rest.takeWhile Lexeme.isBareValueChar = [] := by
  have hends : valueEnds.any Lexeme.isBareValueChar = false := rfl
  cases rest with
  | nil => rfl
  | cons first rest =>
    exact List.takeWhile_cons_of_neg (List.any_eq_false.mp hends first (h first rfl))

/-- Behind a value stands no quotation mark. -/
theorem EndsValue.head?_ne_mark (h : EndsValue rest) : rest.head? ≠ some '\x22' := by
  intro hhead
  exact absurd (h _ hhead) (by decide)

/-- Blanks may stand between a value and what ends it. -/
theorem EndsValue.blanks_append (hb : Blanks b) (h : EndsValue rest) : EndsValue (b ++ rest) := by
  intro first hfirst
  cases b with
  | nil => exact h first hfirst
  | cons x b =>
    obtain rfl := Option.some.inj hfirst
    obtain rfl | rfl := hb x List.mem_cons_self <;> decide

/-- Blanks and one of the characters that end a value end it. -/
theorem EndsValue.of_blanks {last : Char} (hb : Blanks b) (hlast : last ∈ valueEnds) :
    EndsValue (b ++ last :: rest) := by
  refine EndsValue.blanks_append hb fun first hfirst => ?_
  obtain rfl := Option.some.inj hfirst
  exact hlast

/-- A word that is not a date is read by itself, up to the end of the value. -/
theorem bareValue_of_word {token : List Char}
    (htoken : token.all Lexeme.isBareValueChar = true) (hdate : Lexeme.isDate token = false)
    (hvalue : Lexeme.value? token = some v) (hrest : EndsValue rest) :
    bareValue (token ++ rest) = some (v, rest) := by
  have htake : (token ++ rest).takeWhile Lexeme.isBareValueChar = token := by
    rw [List.takeWhile_append_of_pos (List.all_eq_true.mp htoken), hrest.takeWhile_eq_nil,
      List.append_nil]
  simp [bareValue, htake, hdate, hvalue]

/-- A bare word that means a value is read as that value. -/
theorem value_of_word (depth : Nat) {first : Char} {token : List Char}
    (hfirst : first ∉ ['\x22', '\x27', '[', '\x7b'])
    (htoken : (first :: token).all Lexeme.isBareValueChar = true)
    (hdate : Lexeme.isDate (first :: token) = false)
    (hvalue : Lexeme.value? (first :: token) = some v) (hrest : EndsValue rest) :
    value (depth + 1) (first :: token ++ rest) = some (v, rest) := by
  simp only [List.mem_cons, List.not_mem_nil, or_false, not_or] at hfirst
  have hmark : ¬Quotation.isMark first = true := by
    simp [Quotation.isMark, hfirst.1, hfirst.2.1]
  rw [List.cons_append, value, if_neg hmark, if_neg hfirst.2.2.1, if_neg hfirst.2.2.2]
  exact bareValue_of_word htoken hdate hvalue hrest

/-- A string or a truth value that is written is read. -/
theorem value_of_scalarText (depth : Nat) (h : ScalarText v w) (hrest : EndsValue rest) :
    value (depth + 1) (w ++ rest) = some (v, rest) := by
  cases h with
  | @string s w string =>
    obtain ⟨chars⟩ := string
    have htext := Quotation.text_of_basicChars chars hrest.head?_ne_mark
    have hmark : Quotation.isMark '\x22' = true := rfl
    rw [List.cons_append, List.append_assoc, List.singleton_append, value, if_pos hmark, htext]
    simp
  | isTrue => exact value_of_word depth (by decide) (by decide) (by decide) rfl hrest
  | isFalse => exact value_of_word depth (by decide) (by decide) (by decide) rfl hrest

/-- A pair is read if its value is. -/
theorem pair_of_pairText {Written : Value → List Char → Prop} {reader : Reader Value}
    {p : String × Value} (hb : Blanks b) (h : PairText Written p w)
    (hbegins : ∀ {v w}, Written v w → BeginsWithout [' ', '\t'] w)
    (hreader : ∀ {v w}, Written v w → reader (w ++ rest) = some (v, rest)) :
    pair reader (b ++ (w ++ rest)) = some (([p.1], p.2), rest) := by
  obtain ⟨keyText, before, behind, valueText⟩ := h
  rw [pair, List.append_assoc, List.append_assoc, List.cons_append, List.append_assoc,
    path_of_keyText hb keyText before (.inl rfl)]
  simp only [Option.bind_eq_bind, Option.bind_some]
  rw [skipBlanks_append behind, skipBlanks_of_begins ((hbegins valueText).append _),
    hreader valueText]
  rfl

/-- The pairs of a table are read, if there are as many steps. -/
theorem pairsWithin_of_pairsText (depth : Nat) (rest : List Char) {ps : List (String × Value)}
    (h : PairsText ps w) {fuel : Nat} (hfuel : ps.length ≤ fuel) :
    pairsWithin (value (depth + 1)) fuel (w ++ '\x7d' :: rest) =
      some (ps.map fun p => ([p.1], p.2), rest) := by
  induction h generalizing fuel with
  | @last p b w a before pairText behind =>
    obtain ⟨fuel, rfl⟩ : ∃ n, fuel = n + 1 := Nat.exists_eq_add_one.mpr hfuel
    have hends : EndsValue (a ++ '\x7d' :: rest) := .of_blanks behind (by decide)
    have hpair : pair (value (depth + 1)) (b ++ (w ++ (a ++ '\x7d' :: rest))) = some _ :=
      pair_of_pairText before pairText ScalarText.begins
        fun scalar => value_of_scalarText depth scalar hends
    have hbrace : skipBlanks (a ++ '\x7d' :: rest) = '\x7d' :: rest := by
      rw [skipBlanks_append behind, skipBlanks_of_begins ⟨_, _, rfl, by decide⟩]
    rw [List.append_assoc, List.append_assoc, pairsWithin, hpair]
    simp only [Option.bind_eq_bind, Option.bind_some, hbrace]
    rfl
  | @cons p ps b w a ws before pairText behind _ ih =>
    obtain ⟨fuel, rfl⟩ : ∃ n, fuel = n + 1 :=
      Nat.exists_eq_add_one.mpr (Nat.lt_of_lt_of_le (Nat.succ_pos _) hfuel)
    have hends : EndsValue (a ++ ',' :: (ws ++ '\x7d' :: rest)) := .of_blanks behind (by decide)
    have hpair : pair (value (depth + 1)) (b ++ (w ++ (a ++ ',' :: (ws ++ '\x7d' :: rest)))) =
        some _ :=
      pair_of_pairText before pairText ScalarText.begins
        fun scalar => value_of_scalarText depth scalar hends
    have hcomma : skipBlanks (a ++ ',' :: (ws ++ '\x7d' :: rest)) =
        ',' :: (ws ++ '\x7d' :: rest) := by
      rw [skipBlanks_append behind, skipBlanks_of_begins ⟨_, _, rfl, by decide⟩]
    have hothers := ih (Nat.le_of_succ_le_succ hfuel)
    rw [List.append_assoc, List.append_assoc, List.append_assoc, List.cons_append, pairsWithin,
      hpair]
    simp only [Option.bind_eq_bind, Option.bind_some, hcomma, hothers, List.map_cons]

/-- Pairs are no more than the characters that they are written with. -/
theorem PairsText.length_le {ps : List (String × Value)} (h : PairsText ps w) :
    ps.length ≤ w.length := by
  induction h with
  | @last p b w a _ pairText _ =>
    obtain ⟨first, more, rfl, -⟩ := pairText.begins
    simp only [List.length_append, List.length_cons, List.length_nil]
    omega
  | @cons p ps b w a ws _ pairText _ _ ih =>
    simp only [List.length_append, List.length_cons]
    omega

/-- Blanks before the first key do not matter. -/
theorem PairsText.exists_begins {ps : List (String × Value)} (h : PairsText ps w) :
    ∃ b w', w = b ++ w' ∧ Blanks b ∧ BeginsWithout otherBeginnings w' ∧ PairsText ps w' := by
  have hnil : Blanks [] := by decide
  cases h with
  | last before pairText behind =>
    exact ⟨_, _, rfl, before, pairText.begins.append _, .last hnil pairText behind⟩
  | cons before pairText behind others =>
    exact ⟨_, _, rfl, before, pairText.begins.append _, .cons hnil pairText behind others⟩

/-- Pairs between braces that are written are read as an inline table, if no key is there twice. -/
theorem inlineTable_of_pairsText (depth : Nat) {ps : List (String × Value)} (h : PairsText ps w)
    (hdistinct : (Entries.keys ps).Nodup) :
    inlineTable (value (depth + 1)) (w ++ '\x7d' :: rest) =
      some (.table .braces ps, rest) := by
  obtain ⟨b, w', rfl, hb, hkey, hpairs⟩ := PairsText.exists_begins h
  have hskip : skipBlanks (b ++ w' ++ '\x7d' :: rest) = w' ++ '\x7d' :: rest := by
    rw [List.append_assoc, skipBlanks_append hb,
      skipBlanks_of_begins ((hkey.mono (by decide)).append _)]
  -- as many steps are allowed as characters are left, and no pair is empty
  have hlength : ps.length ≤ (w' ++ '\x7d' :: rest).length := by
    have hle := PairsText.length_le hpairs
    rw [List.length_append]
    omega
  have hread := pairsWithin_of_pairsText depth rest hpairs hlength
  obtain ⟨first, more, rfl, hfirst⟩ := hkey
  rw [inlineTable, hskip]
  split
  · rename_i hbrace
    obtain rfl := (List.cons.inj hbrace).1
    exact absurd (by decide) hfirst
  · rw [hread]
    simp [Entries.ofPairs_of_distinct hdistinct]

/-- A value that is written is read. -/
theorem value_of_valueText (depth : Nat) (h : ValueText v w) (hrest : EndsValue rest) :
    value (depth + 2) (w ++ rest) = some (v, rest) := by
  cases h with
  | scalar scalarText => exact value_of_scalarText (depth + 1) scalarText hrest
  | @braces ps w pairsText distinct =>
    have hmark : ¬Quotation.isMark '\x7b' = true := by decide
    have hbracket : '\x7b' ≠ '[' := by decide
    rw [List.cons_append, List.append_assoc, List.singleton_append, value, if_neg hmark,
      if_neg hbracket, if_pos rfl]
    exact inlineTable_of_pairsText depth pairsText distinct

end Statement

/-! ## What can be written -/

/-- A pair may be written with no blanks around its sign. -/
theorem PairText.of_value {Written : Value → List Char → Prop} {wk wv : List Char}
    (keyText : KeyText key wk) (valueText : Written v wv) :
    PairText Written (key, v) (wk ++ '=' :: wv) :=
  .pair (b := []) (a := []) keyText (by decide) (by decide) valueText

/-- A pair with a string or a truth value is a pair. -/
theorem PairText.of_scalarText {p : String × Value} (h : PairText ScalarText p w) :
    PairText ValueText p w := by
  obtain ⟨keyText, before, behind, scalarText⟩ := h
  exact .pair keyText before behind (.scalar scalarText)

/-- A text without quotation marks and backslashes may stand as it is between quotation marks. -/
theorem ScalarText.of_plain {s : String} (hline : OnOneLine s.toList)
    (hmark : '\x22' ∉ s.toList) (hescape : '\\' ∉ s.toList) :
    ScalarText (.string s) ('\x22' :: (s.toList ++ ['\x22'])) :=
  .string (.quoted (.of_plain hline hmark hescape))

/-- Every string can be written. -/
theorem exists_scalarText_string (s : String) : ∃ w, ScalarText (.string s) w := by
  obtain ⟨w, string⟩ := exists_basicString s
  exact ⟨w, .string string⟩

/-- Both truth values can be written. -/
theorem exists_scalarText_boolean (truth : Bool) : ∃ w, ScalarText (.boolean truth) w := by
  cases truth with
  | true => exact ⟨_, .isTrue⟩
  | false => exact ⟨_, .isFalse⟩

/-- Pairs can be written if each of them can. -/
theorem exists_pairsText {ps : List (String × Value)} (hsome : ps ≠ [])
    (h : ∀ p ∈ ps, ∃ w, PairText ScalarText p w) : ∃ w, PairsText ps w := by
  have hnil : Blanks [] := by decide
  induction ps with
  | nil => exact absurd rfl hsome
  | cons p ps ih =>
    obtain ⟨⟨w, pairText⟩, hothers⟩ := List.forall_mem_cons.mp h
    cases ps with
    | nil => exact ⟨_, .last hnil pairText hnil⟩
    | cons next ps =>
      obtain ⟨ws, others⟩ := ih (List.cons_ne_nil _ _) hothers
      exact ⟨_, .cons hnil pairText hnil others⟩

end PlatformAdmin.Toml
