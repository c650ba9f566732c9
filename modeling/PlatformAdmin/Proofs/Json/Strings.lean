import PlatformAdmin.Proofs.Json.Tokens

/-!
# Strings of JSON

A string is read to its closing mark, whatever stands behind it, and denotes what the grammar says:
`readFrom?_stringText`.  A string through which the reader gets is one of the grammar:
`exists_stringText`.  A high surrogate that waits for its other half denotes no character unless the
half follows: hence the condition `Settles` on what comes next.
-/

set_option autoImplicit false

namespace PlatformAdmin.Json

/-- Whether a low half begins does not depend on what follows it. -/
theorem BeginsLow.append {w : List (Option Char)} (h : BeginsLow w) (rest : List (Option Char)) :
    BeginsLow (w ++ rest) := by
  obtain ⟨u, e, more, hlow, he, rfl⟩ := h
  exact ⟨u, e, more ++ rest, hlow, he, List.append_assoc ..⟩

/-! ## Scans -/

namespace StringScan

variable {s : StringScan} {u l : Nat}

/-- A character that is added settles what was before it. -/
@[simp] theorem settled_push (s : StringScan) (c : Option Char) :
    (s.push c).settled = c :: s.settled :=
  rfl

/-- A high half is no low half. -/
theorem not_isLow_of_isHigh (h : IsHigh u) : ¬IsLow u := by
  rintro ⟨hlow, -⟩
  obtain ⟨-, hhigh⟩ := h
  omega

/-- A unit that is no half of a pair is its own character. -/
theorem pushUnit_of_char (hhigh : ¬IsHigh u) (hlow : ¬IsLow u) :
    s.pushUnit u = s.push (some (Char.ofNat u)) := by
  rw [IsHigh] at hhigh
  rw [IsLow] at hlow
  rw [pushUnit, if_neg hlow, if_neg hhigh]

/-- A high half waits, and what was before it is settled. -/
theorem pushUnit_of_high (h : IsHigh u) :
    s.pushUnit u = { done := s.settled, high := some u } := by
  have hlow := not_isLow_of_isHigh h
  rw [IsLow] at hlow
  rw [IsHigh] at h
  rw [pushUnit, if_neg hlow, if_pos h]

/-- A low half with no high one before it stands for no character. -/
theorem pushUnit_of_low (h : IsLow u) (hs : s.high = none) : s.pushUnit u = s.push none := by
  rw [IsLow] at h
  rw [pushUnit, if_pos h, hs]

/-- A low surrogate completes the high one that waits for it. -/
theorem pushUnit_pair (hu : IsHigh u) (hl : IsLow l) :
    (s.pushUnit u).pushUnit l = s.push (some (pairChar u l)) := by
  rw [IsLow] at hl
  rw [pushUnit_of_high hu, pushUnit, if_pos hl]
  rfl

/-- The reader knows just the short escapes. -/
theorem escaped?_eq_some_iff {letter c : Char} :
    escaped? letter = some c ↔ (letter, c) ∈ shortEscapes := by
  constructor
  · intro h
    unfold escaped? at h
    split_ifs at h with hl hl hl hl hl hl hl hl
    all_goals
      obtain rfl := Option.some.inj h
      rw [hl]
      simp [shortEscapes]
  · intro h
    simp only [shortEscapes, List.mem_cons, Prod.mk.injEq, List.not_mem_nil, or_false] at h
    rcases h with ⟨rfl, rfl⟩ | ⟨rfl, rfl⟩ | ⟨rfl, rfl⟩ | ⟨rfl, rfl⟩ | ⟨rfl, rfl⟩ | ⟨rfl, rfl⟩ |
      ⟨rfl, rfl⟩ | ⟨rfl, rfl⟩ <;> rfl

/-- What comes next does not complete a high surrogate that waits. -/
def Settles (s : StringScan) (text : List (Option Char)) : Prop :=
  s.high = none ∨ ¬BeginsLow text

end StringScan

namespace State

open StringScan

variable {isKey : Bool} {scan scan' : StringScan} {c : Option Char} {u : Nat}
  {cs w e text rest : List (Option Char)} {stack : List Frame} {s : State} {v : Json}

/-- The state behind a string that denotes a text, or none. -/
def closed (isKey : Bool) (stack : List Frame) (text : Option String) : Option State :=
  if isKey then some ⟨.colon text, stack⟩ else complete stack (.string text)

/-! ## Steps within a string -/

/-- A quotation mark closes the string. -/
theorem step_string_end (hplain : scan.escape = .plain) :
    step ⟨.string isKey scan, stack⟩ (some '\x22') = closed isKey stack scan.text := by
  have hend : scan.isEnd (some '\x22') = true := by simp [isEnd, hplain]
  simp only [step, hend, if_true]
  rfl

/-- Any other character is a step of the scan. -/
theorem step_string (hend : scan.isEnd c = false) :
    step ⟨.string isKey scan, stack⟩ c =
      (scan.step c).map fun scan => ⟨.string isKey scan, stack⟩ := by
  simp only [step, hend, Bool.false_eq_true, if_false]

/-- Where the scan takes a step, so does the reader. -/
theorem readFrom?_step_string (hend : scan.isEnd c = false) (hstep : scan.step c = some scan') :
    readFrom? ⟨.string isKey scan, stack⟩ (c :: text) =
      readFrom? ⟨.string isKey scan', stack⟩ text := by
  refine readFrom?_of_step ?_
  rw [step_string hend, hstep, Option.map_some]

/-- Where reading succeeds within a string, the scan took a step. -/
theorem exists_step_string (hend : scan.isEnd c = false)
    (h : readFrom? ⟨.string isKey scan, stack⟩ (c :: text) = some v) :
    ∃ scan', scan.step c = some scan' ∧
      readFrom? ⟨.string isKey scan', stack⟩ text = some v := by
  obtain ⟨s, hs, hrest⟩ := exists_step h
  rw [step_string hend] at hs
  obtain ⟨scan', hscan, rfl⟩ := Option.map_eq_some_iff.mp hs
  exact ⟨scan', hscan, hrest⟩

/-- A string does not end before its closing mark. -/
theorem exists_next_string (h : readFrom? ⟨.string isKey scan, stack⟩ text = some v) :
    ∃ c rest, text = c :: rest := by
  cases text with
  | nil => cases (show none = some v from h)
  | cons c rest => exact ⟨c, rest, rfl⟩

/-! ## Escapes -/

/-- Within an escape no character closes the string. -/
theorem isEnd_of_escape (h : scan.escape ≠ .plain) (c : Option Char) : scan.isEnd c = false := by
  simp [isEnd, h]

/-- A digit adds to the number of an escape, and the last one adds its unit. -/
theorem readFrom?_digit {missing value d : Nat} {x : Char}
    (hescape : scan.escape = .hex missing value) (hd : Text.hexValue? x = some d) :
    readFrom? ⟨.string isKey scan, stack⟩ (some x :: text) =
      readFrom? ⟨.string isKey (if missing = 1 then scan.pushUnit (value * 16 + d)
        else { scan with escape := .hex (missing - 1) (value * 16 + d) }), stack⟩ text := by
  refine readFrom?_step_string (isEnd_of_escape (by rw [hescape]; nofun) _) ?_
  simp only [StringScan.step, hescape, hd, Option.map_some]

/-- Where reading succeeds within a numbered escape, a digit follows. -/
theorem exists_digit {missing value : Nat} (hescape : scan.escape = .hex missing value)
    (h : readFrom? ⟨.string isKey scan, stack⟩ text = some v) :
    ∃ x d rest, text = some x :: rest ∧ Text.hexValue? x = some d := by
  obtain ⟨c, rest, rfl⟩ := exists_next_string h
  obtain ⟨scan', hstep, -⟩ := exists_step_string (isEnd_of_escape (by rw [hescape]; nofun) c) h
  simp only [StringScan.step, hescape] at hstep
  cases c with
  | none => cases hstep
  | some x =>
    obtain ⟨d, hd, -⟩ := Option.map_eq_some_iff.mp hstep
    exact ⟨x, d, rest, rfl, hd⟩

/-- A backslash begins an escape. -/
theorem readFrom?_backslash (hplain : scan.escape = .plain) :
    readFrom? ⟨.string isKey scan, stack⟩ (some '\\' :: text) =
      readFrom? ⟨.string isKey { scan with escape := .begun }, stack⟩ text := by
  refine readFrom?_step_string (by simp [isEnd]) ?_
  simp only [StringScan.step, hplain, if_true]

/-- A `u` begins a numbered escape. -/
theorem readFrom?_letterU (hescape : scan.escape = .begun) :
    readFrom? ⟨.string isKey scan, stack⟩ (some 'u' :: text) =
      readFrom? ⟨.string isKey { scan with escape := .hex 4 0 }, stack⟩ text := by
  refine readFrom?_step_string (isEnd_of_escape (by rw [hescape]; nofun) _) ?_
  simp only [StringScan.step, hescape, if_true]

/-- A numbered escape that is spelled adds its unit. -/
theorem readFrom?_unit (hplain : scan.escape = .plain) (he : UnitText u e)
    (text : List (Option Char)) :
    readFrom? ⟨.string isKey scan, stack⟩ (e ++ text) =
      readFrom? ⟨.string isKey (scan.pushUnit u), stack⟩ text := by
  obtain ⟨ha, hb, hc, hd, rfl⟩ := he
  simp only [List.cons_append, List.nil_append]
  rw [readFrom?_backslash hplain, readFrom?_letterU rfl, readFrom?_digit rfl ha,
    if_neg (by decide), readFrom?_digit rfl hb, if_neg (by decide), readFrom?_digit rfl hc,
    if_neg (by decide), readFrom?_digit rfl hd, if_pos rfl, Nat.zero_mul, Nat.zero_add]
  rfl

/-- After the letter that announces them, four digits follow. -/
theorem exists_unit (hplain : scan.escape = .plain)
    (h : readFrom? ⟨.string isKey scan, stack⟩ (some '\\' :: some 'u' :: text) = some v) :
    ∃ u e rest, UnitText u e ∧ some '\\' :: some 'u' :: text = e ++ rest := by
  rw [readFrom?_backslash hplain, readFrom?_letterU rfl] at h
  obtain ⟨a, i, text, rfl, ha⟩ := exists_digit rfl h
  rw [readFrom?_digit rfl ha, if_neg (by decide)] at h
  obtain ⟨b, j, text, rfl, hb⟩ := exists_digit rfl h
  rw [readFrom?_digit rfl hb, if_neg (by decide)] at h
  obtain ⟨c, k, text, rfl, hc⟩ := exists_digit rfl h
  rw [readFrom?_digit rfl hc, if_neg (by decide)] at h
  obtain ⟨d, l, text, rfl, hd⟩ := exists_digit rfl h
  exact ⟨_, _, text, .digits ha hb hc hd rfl, rfl⟩

/-! ## Whole strings -/

/-- A character that neither ends the string nor begins an escape is taken as it stands. -/
theorem step_char {x : Char} (hplain : scan.escape = .plain) (hescape : x ≠ '\\') :
    scan.step (some x) = if x.toNat < 0x20 then none else some (scan.push (some x)) := by
  simp only [StringScan.step, hplain, hescape, if_false]

/-- Behind a backslash stands a letter of the short escapes, or the escape is refused. -/
theorem step_begun {x : Char} (hescape : scan.escape = .begun) (hx : x ≠ 'u') :
    scan.step (some x) = (escaped? x).map fun c => scan.push (some c) := by
  simp only [StringScan.step, hescape, hx, if_false]

/-- A short escape adds the character that it stands for. -/
theorem readFrom?_escaped {x y : Char} (hescape : scan.escape = .begun) (hx : x ≠ 'u')
    (hy : escaped? x = some y) :
    readFrom? ⟨.string isKey scan, stack⟩ (some x :: text) =
      readFrom? ⟨.string isKey (scan.push (some y)), stack⟩ text := by
  refine readFrom?_step_string (isEnd_of_escape (by rw [hescape]; nofun) _) ?_
  rw [step_begun hescape hx, hy, Option.map_some]

/-- The text of a scan that is followed by these characters. -/
def Denotes (scan : StringScan) (cs : List (Option Char)) : Option String :=
  Text.Utf8.text? (scan.settled.reverse ++ cs)

/-- A character that was added stands before those that follow. -/
theorem denotes_push (c : Option Char) : Denotes (scan.push c) cs = Denotes scan (c :: cs) := by
  simp [Denotes]

/-- A high surrogate that stays alone denotes no character. -/
theorem denotes_pushUnit (h : IsHigh u) :
    Denotes (scan.pushUnit u) cs = Denotes scan (none :: cs) := by
  rw [pushUnit_of_high h]
  simp [Denotes, settled]

/-- Characters that are spelled are read up to the closing quotation mark. -/
theorem readFrom?_stringChars (h : StringChars cs w) (hplain : scan.escape = .plain)
    (hsettles : scan.Settles w) (rest : List (Option Char)) :
    readFrom? ⟨.string isKey scan, stack⟩ (w ++ some '\x22' :: rest) =
      (closed isKey stack (Denotes scan cs)).bind (·.readFrom? rest) := by
  induction h generalizing scan with
  | nil =>
    rw [List.nil_append, readFrom?_cons, step_string_end hplain, StringScan.text, Denotes,
      List.append_nil]
  | @itself x cs w noMark noEscape noControl others ih =>
    have hend : scan.isEnd (some x) = false := by simp [isEnd, noMark]
    have hstep := step_char hplain noEscape
    rw [if_neg (Nat.not_lt.mpr noControl)] at hstep
    rw [List.cons_append, readFrom?_step_string hend hstep, ih rfl (.inl rfl), denotes_push]
  | noChar others ih =>
    have hstep : scan.step none = some (scan.push none) := by simp only [StringScan.step, hplain]
    rw [List.cons_append, readFrom?_step_string (by simp [isEnd]) hstep, ih rfl (.inl rfl),
      denotes_push]
  | @short letter c cs w escape others ih =>
    have hletter : letter ≠ 'u' := by
      rintro rfl
      cases escaped?_eq_some_iff.mpr escape
    rw [List.cons_append, List.cons_append, readFrom?_backslash hplain,
      readFrom?_escaped rfl hletter (escaped?_eq_some_iff.mpr escape), ih rfl (.inl rfl),
      denotes_push]
    rfl
  | unit escape notHigh notLow others ih =>
    rw [List.append_assoc, readFrom?_unit hplain escape, pushUnit_of_char notHigh notLow,
      ih rfl (.inl rfl), denotes_push]
  | pair high low first second others ih =>
    rw [List.append_assoc, List.append_assoc, readFrom?_unit hplain first,
      readFrom?_unit (by rw [pushUnit_of_high high]) second, pushUnit_pair high low,
      ih rfl (.inl rfl), denotes_push]
  | @lone u e cs w escape surrogate unpaired others ih =>
    rw [List.append_assoc, readFrom?_unit hplain escape]
    obtain hhigh | hlow := surrogate
    · have hpushed : (scan.pushUnit u).escape = .plain := by rw [pushUnit_of_high hhigh]
      rw [ih hpushed (.inr (unpaired hhigh)), denotes_pushUnit hhigh]
    · have hnone : scan.high = none :=
        hsettles.resolve_right (not_not_intro ⟨u, e, w, hlow, escape, rfl⟩)
      rw [pushUnit_of_low hlow hnone, ih rfl (.inl rfl), denotes_push]

/-- The text is the rest of the string, its closing mark, and a text behind it. -/
def Closes (isKey : Bool) (stack : List Frame) (scan : StringScan) (text : List (Option Char))
    (v : Json) : Prop :=
  ∃ cs w rest s, text = w ++ some '\x22' :: rest ∧ StringChars cs w ∧
    closed isKey stack (Denotes scan cs) = some s ∧ s.readFrom? rest = some v

/-- One character more before the rest of a string. -/
theorem Closes.of_next (hdenotes : ∀ {cs}, Denotes scan' cs = Denotes scan (c :: cs))
    (hwritten : ∀ cs w more, text = w ++ more → StringChars cs w → StringChars (c :: cs) (e ++ w))
    (h : Closes isKey stack scan' text v) : Closes isKey stack scan (e ++ text) v := by
  obtain ⟨cs, w, rest, s, htext, hcs, hs, hrest⟩ := h
  rw [hdenotes] at hs
  exact ⟨c :: cs, e ++ w, rest, s, by rw [htext, List.append_assoc],
    hwritten cs w _ htext hcs, hs, hrest⟩

/-- In texts shorter than this, what the reader gets through closes the string. -/
def ClosesBelow (isKey : Bool) (stack : List Frame) (v : Json) (n : Nat) : Prop :=
  ∀ text : List (Option Char), text.length < n → ∀ scan : StringScan, scan.escape = .plain →
    scan.Settles text → readFrom? ⟨.string isKey scan, stack⟩ text = some v →
      Closes isKey stack scan text v

/-- An escape by number is a character, half of one, or alone. -/
theorem closes_unit (hplain : scan.escape = .plain) (hsettles : scan.Settles (e ++ text))
    (he : UnitText u e) (h : readFrom? ⟨.string isKey scan, stack⟩ (e ++ text) = some v)
    (ih : ClosesBelow isKey stack v (e ++ text).length) :
    Closes isKey stack scan (e ++ text) v := by
  have hshort : text.length < (e ++ text).length := by
    obtain ⟨-, -, -, -, -⟩ := he
    simp only [List.cons_append, List.nil_append, List.length_cons]
    omega
  rw [readFrom?_unit hplain he] at h
  by_cases hhigh : IsHigh u
  · -- a high surrogate is half of a character only if its other half comes next
    have hpushed : (scan.pushUnit u).escape = .plain := by rw [pushUnit_of_high hhigh]
    by_cases hnext : BeginsLow text
    · obtain ⟨l, e', rest, hl, he', rfl⟩ := hnext
      rw [readFrom?_unit hpushed he', pushUnit_pair hhigh hl] at h
      rw [← List.append_assoc]
      refine .of_next (denotes_push _) (fun cs w _ _ hcs => ?_)
        (ih rest (by simp at hshort ⊢; omega) _ rfl (.inl rfl) h)
      rw [List.append_assoc]
      exact .pair hhigh hl he he' hcs
    · refine .of_next (denotes_pushUnit hhigh) (fun cs w more htext hcs => ?_)
        (ih text hshort _ hpushed (.inr hnext) h)
      rw [htext] at hnext
      exact .lone he (.inl hhigh) (fun _ hw => hnext (hw.append more)) hcs
  · by_cases hlow : IsLow u
    · have hnone : scan.high = none :=
        hsettles.resolve_right (not_not_intro ⟨u, e, text, hlow, he, rfl⟩)
      rw [pushUnit_of_low hlow hnone] at h
      exact .of_next (denotes_push _)
        (fun cs w _ _ hcs => .lone he (.inr hlow) (fun hu => absurd hu hhigh) hcs)
        (ih text hshort _ rfl (.inl rfl) h)
    · rw [pushUnit_of_char hhigh hlow] at h
      exact .of_next (denotes_push _) (fun cs w _ _ hcs => .unit he hhigh hlow hcs)
        (ih text hshort _ rfl (.inl rfl) h)

/-- Where reading succeeds at an escape, the text spells it, if the rest of the text does so. -/
theorem closes_escape (hplain : scan.escape = .plain)
    (hsettles : scan.Settles (some '\\' :: text))
    (h : readFrom? ⟨.string isKey scan, stack⟩ (some '\\' :: text) = some v)
    (ih : ClosesBelow isKey stack v (text.length + 1)) :
    Closes isKey stack scan (some '\\' :: text) v := by
  have hbegun := h
  rw [readFrom?_backslash hplain] at hbegun
  obtain ⟨c, text, rfl⟩ := exists_next_string hbegun
  by_cases hu : c = some 'u'
  · subst hu
    obtain ⟨u, e, rest, he, htext⟩ := exists_unit hplain h
    have hlength := congrArg List.length htext
    rw [List.length_cons] at hlength
    rw [htext] at h hsettles ⊢
    rw [hlength] at ih
    exact closes_unit hplain hsettles he h ih
  · obtain ⟨scan', hstep, hrest⟩ := exists_step_string (by simp [isEnd]) hbegun
    cases c with
    | none => cases hstep
    | some x =>
      rw [step_begun rfl (fun hx => hu (congrArg some hx))] at hstep
      obtain ⟨y, hy, rfl⟩ := Option.map_eq_some_iff.mp hstep
      exact .of_next (e := [some '\\', some x]) (denotes_push _)
        (fun cs w _ _ hcs => .short (escaped?_eq_some_iff.mp hy) hcs)
        (ih text (by simp only [List.length_cons]; omega) _ rfl (.inl rfl) hrest)

/-- A string through which the reader gets is one of the grammar. -/
theorem closes_of_readFrom? (text : List (Option Char)) (hplain : scan.escape = .plain)
    (hsettles : scan.Settles text) (h : readFrom? ⟨.string isKey scan, stack⟩ text = some v) :
    Closes isKey stack scan text v := by
  -- by induction on the length, since an escape takes several characters at a time
  induction hn : text.length using Nat.strongRecOn generalizing scan text with
  | ind n ih =>
    have hbelow : ClosesBelow isKey stack v text.length :=
      fun text hlength scan hplain hsettles h => ih _ (hn ▸ hlength) text hplain hsettles h rfl
    obtain ⟨c, text, rfl⟩ := exists_next_string h
    by_cases hend : c = some '\x22'
    · subst hend
      obtain ⟨s, hs, hrest⟩ := exists_step h
      rw [step_string_end hplain] at hs
      refine ⟨[], [], text, s, rfl, .nil, ?_, hrest⟩
      rwa [Denotes, List.append_nil]
    by_cases hescape : c = some '\\'
    · subst hescape
      exact closes_escape hplain hsettles h hbelow
    obtain ⟨scan', hstep, hrest⟩ := exists_step_string (by simp [isEnd, hend]) h
    cases c with
    | none =>
      simp only [StringScan.step, hplain, Option.some.injEq] at hstep
      subst hstep
      exact .of_next (e := [none]) (denotes_push _) (fun cs w _ _ hcs => .noChar hcs)
        (hbelow text (by simp) _ rfl (.inl rfl) hrest)
    | some x =>
      have hx : x ≠ '\\' := fun hx => hescape (congrArg some hx)
      have hmark : x ≠ '\x22' := fun hx => hend (congrArg some hx)
      rw [step_char hplain hx] at hstep
      split_ifs at hstep with hcontrol
      obtain rfl := Option.some.inj hstep
      exact .of_next (e := [some x]) (denotes_push _)
        (fun cs w _ _ hcs => .itself hmark hx (Nat.le_of_not_lt hcontrol) hcs)
        (hbelow text (by simp) _ rfl (.inl rfl) hrest)

/-! ## From mark to mark -/

/-- A string that is spelled is read whole. -/
theorem readFrom?_stringText {text : Option String} (h : StringText text w)
    (hbegin : s.step (some '\x22') = some ⟨.string isKey {}, stack⟩) (rest : List (Option Char)) :
    s.readFrom? (w ++ rest) = (closed isKey stack text).bind (·.readFrom? rest) := by
  obtain ⟨hcs⟩ := h
  rw [List.cons_append, readFrom?_of_step hbegin, List.append_assoc, List.singleton_append,
    readFrom?_stringChars hcs rfl (.inl rfl)]
  rfl

/-- Where reading succeeds within a string, the text spells it up to its closing quotation mark. -/
theorem exists_stringText (h : readFrom? ⟨.string isKey {}, stack⟩ text = some v) :
    ∃ string w rest s, some '\x22' :: text = w ++ rest ∧ StringText string w ∧
      closed isKey stack string = some s ∧ s.readFrom? rest = some v := by
  obtain ⟨cs, w, rest, s, rfl, hcs, hs, hrest⟩ := closes_of_readFrom? text rfl (.inl rfl) h
  exact ⟨_, _, rest, s, by simp, .quoted hcs, hs, hrest⟩

end State

end PlatformAdmin.Json
