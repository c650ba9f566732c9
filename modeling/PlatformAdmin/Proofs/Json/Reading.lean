import PlatformAdmin.Proofs.Json.Strings

/-!
# Reading accepts what the grammar spells

`read?_eq_some_iff`: a text is read as a value if and only if it spells that value.  What is written
is read by recursion on the grammar; each lemma says how the reader gets through a part of a text,
whatever stands behind it.  Conversely a text through which the reader gets begins with such a part;
this is by induction on the length of the text, since a part of a text is followed by a shorter one.
-/

set_option autoImplicit false

namespace PlatformAdmin.Json

namespace State

variable {s : State} {c : Char} {b w text rest : List (Option Char)} {v v₀ : Json}
  {vs : List Json} {m : Option String × Json} {ms : List (Option String × Json)}
  {mode : Mode} {stack : List Frame}

/-! ## The beginning of a value -/

/-- The words are `null`, `true` and `false`. -/
theorem mem_words {letters : List Char} :
    (letters, v) ∈ words ↔ letters = ['n', 'u', 'l', 'l'] ∧ v = .null ∨
      letters = ['t', 'r', 'u', 'e'] ∧ v = .bool true ∨
        letters = ['f', 'a', 'l', 's', 'e'] ∧ v = .bool false := by
  simp [words]

/-- A word has a first letter and more of them. -/
theorem exists_wordBegins {word : List Char} (h : (word, v) ∈ words) :
    ∃ c letters, word = c :: letters ∧ letters ≠ [] := by
  obtain ⟨rfl, -⟩ | ⟨rfl, -⟩ | ⟨rfl, -⟩ := mem_words.mp h <;>
    exact ⟨_, _, rfl, List.cons_ne_nil _ _⟩

/-- The state behind the first character of a value. -/
inductive ValueBegins (stack : List Frame) : Char → State → Prop
  | array : ValueBegins stack '[' ⟨.firstItem, .items [] :: stack⟩
  | object : ValueBegins stack '\x7b' ⟨.firstKey, .members [] :: stack⟩
  | string : ValueBegins stack '\x22' ⟨.string false {}, stack⟩
  | negative : ValueBegins stack '-' ⟨.number .sign ['-'], stack⟩
  | positive {c : Char} {part : NumberPart} (next : NumberPart.sign.next c = some part) :
      ValueBegins stack c ⟨.number part [c], stack⟩
  | word {c : Char} {letters : List Char} {v : Json} (word : (c :: letters, v) ∈ words) :
      ValueBegins stack c ⟨.word letters v, stack⟩

/-- Behind the sign of a number stands a digit. -/
theorem isDigit_of_next {part : NumberPart} (h : NumberPart.sign.next c = some part) :
    c.isDigit = true := by
  rw [NumberPart.next] at h
  split_ifs at h with hzero hdigit
  · rw [hzero]
    rfl
  · exact hdigit

/-- The reader takes a character for the beginning of a value just if a value begins with it. -/
theorem stepValue_eq_some_iff : stepValue stack c = some s ↔ ValueBegins stack c s := by
  constructor
  · intro h
    unfold stepValue at h
    split_ifs at h with h₁ h₂ h₃ h₄ h₅ h₆ h₇
    case neg =>
      obtain ⟨part, hnext, rfl⟩ := Option.map_eq_some_iff.mp h
      exact .positive hnext
    all_goals
      obtain rfl := Option.some.inj h
      subst c
    · exact .array
    · exact .object
    · exact .string
    · exact .negative
    · exact .word (mem_words.mpr (.inr (.inl ⟨rfl, rfl⟩)))
    · exact .word (mem_words.mpr (.inr (.inr ⟨rfl, rfl⟩)))
    · exact .word (mem_words.mpr (.inl ⟨rfl, rfl⟩))
  · intro h
    cases h with
    | positive next =>
      have hdigit := isDigit_of_next next
      unfold stepValue
      split_ifs with h₁ h₂ h₃ h₄ h₅ h₆ h₇
      case neg => rw [next, Option.map_some]
      all_goals
        subst c
        cases hdigit
    | word word =>
      obtain ⟨hword, rfl⟩ | ⟨hword, rfl⟩ | ⟨hword, rfl⟩ := mem_words.mp word
      all_goals
        obtain ⟨rfl, rfl⟩ := List.cons.inj hword
        rfl
    | _ => rfl

/-- A value begins neither with a blank nor like the end of an array. -/
theorem ValueBegins.separate (h : ValueBegins stack c s) : isSpace c = false ∧ c ≠ ']' := by
  cases h with
  | positive next =>
    have hdigit := isDigit_of_next next
    constructor
    · refine Bool.eq_false_iff.mpr fun hspace => ?_
      obtain rfl | rfl | rfl | rfl := isSpace_iff.mp hspace <;> cases hdigit
    · rintro rfl
      cases hdigit
  | word word =>
    obtain ⟨hword, -⟩ | ⟨hword, -⟩ | ⟨hword, -⟩ := mem_words.mp word
    all_goals
      obtain ⟨rfl, -⟩ := List.cons.inj hword
      decide
  | _ => decide

/-- The beginning of a value is one step of the reader. -/
theorem step_value (h : ValueBegins stack c s) : step ⟨.value, stack⟩ (some c) = some s := by
  rw [IsBetween.value.step_some, stepBetween, h.separate.1, if_neg Bool.false_ne_true]
  exact stepValue_eq_some_iff.mpr h

/-- A number begins with a digit or a sign. -/
theorem exists_numberBegins {w : List Char} (h : NumberText w) :
    ∃ c w' part, w = c :: w' ∧ (∀ stack, ValueBegins stack c ⟨.number part [c], stack⟩) ∧
      part.Ends w' := by
  cases h with
  | positive unsigned =>
    have hends := NumberPart.ends_sign_iff.mpr unsigned
    cases w with
    | nil => cases NumberPart.ends_nil_iff.mp hends
    | cons c w' =>
      obtain ⟨part, hnext, hends⟩ := NumberPart.ends_cons_iff.mp hends
      exact ⟨c, w', part, rfl, fun _ => .positive hnext, hends⟩
  | @negative w' unsigned =>
    exact ⟨'-', w', .sign, rfl, fun _ => .negative, NumberPart.ends_sign_iff.mpr unsigned⟩

/-! ## Words -/

/-- The rest of a word is read, letter by letter, as its value. -/
theorem readFrom?_word {letters : List Char} (hsome : letters ≠ [])
    (hs : complete stack v = some s) (rest : List (Option Char)) :
    readFrom? ⟨.word letters v, stack⟩ (letters.map some ++ rest) = s.readFrom? rest := by
  induction letters with
  | nil => exact absurd rfl hsome
  | cons l letters ih =>
    rw [List.map_cons, List.cons_append]
    cases letters with
    | nil =>
      refine readFrom?_of_step ?_
      simp only [step, if_true, hs]
    | cons l' letters =>
      have hstep : step ⟨.word (l :: l' :: letters) v, stack⟩ (some l) =
          some ⟨.word (l' :: letters) v, stack⟩ := by
        simp only [step, if_true]
      rw [readFrom?_of_step hstep, ih (List.cons_ne_nil _ _)]

/-- Where a word is begun and reading succeeds, its letters follow. -/
theorem exists_word {letters : List Char} (h : readFrom? ⟨.word letters v₀, stack⟩ text = some v) :
    ∃ rest s, text = letters.map some ++ rest ∧ complete stack v₀ = some s ∧
      s.readFrom? rest = some v := by
  induction letters generalizing text with
  | nil =>
    cases text with
    | nil => cases (show none = some v from h)
    | cons c text =>
      obtain ⟨s, hstep, -⟩ := exists_step h
      cases c <;> cases hstep
  | cons l letters ih =>
    cases text with
    | nil => cases (show none = some v from h)
    | cons c text =>
      obtain ⟨s, hstep, hs⟩ := exists_step h
      cases c with
      | none => cases hstep
      | some c =>
        cases letters with
        | nil =>
          simp only [step] at hstep
          split_ifs at hstep with hc
          rw [hc]
          exact ⟨text, s, rfl, hstep, hs⟩
        | cons l' letters =>
          simp only [step] at hstep
          split_ifs at hstep with hc
          obtain rfl := Option.some.inj hstep
          obtain ⟨rest, s, rfl, hcomplete, hrest⟩ := ih hs
          rw [hc]
          exact ⟨rest, s, rfl, hcomplete, hrest⟩

/-! ## What is written is read -/

/-- The first item of an array, and the first member of an object, are read as any other. -/
theorem readFrom?_first {first : Mode} (hfirst : IsBetween first) (hmode : IsBetween mode)
    (hb : Blanks b) (hstep : stepBetween first stack c = stepBetween mode stack c)
    (rest : List (Option Char)) :
    readFrom? ⟨first, stack⟩ (b ++ some c :: rest) =
      readFrom? ⟨mode, stack⟩ (b ++ some c :: rest) := by
  rw [hfirst.readFrom?_blanks hb, hmode.readFrom?_blanks hb, readFrom?_cons, readFrom?_cons,
    hfirst.step_some, hmode.step_some, hstep]

/-- At the first item, what is neither a blank nor the end is taken as a value. -/
theorem stepBetween_firstItem (h : isSpace c = false ∧ c ≠ ']') :
    stepBetween .firstItem stack c = stepBetween .value stack c := by
  simp only [stepBetween, h.1, h.2, if_false, Bool.false_eq_true]

/-- A value begins with a character that the reader takes for the beginning of one. -/
theorem exists_valueBegins (h : Spells v w) :
    ∃ c more, w = some c :: more ∧ ∀ stack, ∃ s, ValueBegins stack c s := by
  cases h with
  | word word =>
    obtain ⟨c, letters, rfl, -⟩ := exists_wordBegins word
    exact ⟨_, _, rfl, fun _ => ⟨_, .word word⟩⟩
  | number numberText =>
    obtain ⟨c, w, part, rfl, hbegins, -⟩ := exists_numberBegins numberText
    exact ⟨_, _, rfl, fun stack => ⟨_, hbegins stack⟩⟩
  | string stringText =>
    obtain ⟨-⟩ := stringText
    exact ⟨_, _, rfl, fun _ => ⟨_, .string⟩⟩
  | emptyArray | array => exact ⟨_, _, rfl, fun _ => ⟨_, .array⟩⟩
  | emptyObject | object => exact ⟨_, _, rfl, fun _ => ⟨_, .object⟩⟩

/-- Where an item follows, the first one is read as any value. -/
theorem readFrom?_firstItem (h : ItemsText vs w) (rest : List (Option Char)) :
    readFrom? ⟨.firstItem, stack⟩ (w ++ rest) = readFrom? ⟨.value, stack⟩ (w ++ rest) := by
  obtain ⟨b, v, w', more, rfl, hb, hv⟩ :
      ∃ b v w' more, w = b ++ (w' ++ more) ∧ Blanks b ∧ Spells v w' := by
    cases h with
    | last before item behind => exact ⟨_, _, _, _, rfl, before, item⟩
    | cons before item behind others => exact ⟨_, _, _, _, rfl, before, item⟩
  obtain ⟨c, more', rfl, hbegins⟩ := exists_valueBegins hv
  obtain ⟨s, hs⟩ := hbegins stack
  simp only [List.append_assoc, List.cons_append]
  exact readFrom?_first .firstItem .value hb (stepBetween_firstItem hs.separate) _

/-- Where a member follows, the first one is read as any member. -/
theorem readFrom?_firstKey (h : MembersText ms w) (rest : List (Option Char)) :
    readFrom? ⟨.firstKey, stack⟩ (w ++ rest) = readFrom? ⟨.key, stack⟩ (w ++ rest) := by
  obtain ⟨b, key, w', more, rfl, hb, ⟨-⟩⟩ :
      ∃ b key w' more, w = b ++ (w' ++ more) ∧ Blanks b ∧ StringText key w' := by
    cases h with
    | last member =>
      obtain ⟨before, keyText⟩ := member
      exact ⟨_, _, _, _, rfl, before, keyText⟩
    | cons member others =>
      obtain ⟨before, keyText⟩ := member
      exact ⟨_, _, _, _, by simp only [List.append_assoc, List.cons_append]; rfl, before, keyText⟩
  simp only [List.append_assoc, List.cons_append]
  exact readFrom?_first .firstKey .key hb rfl _

-- The recursion is on how a value is written: its items and members are parts of the derivation.
mutual

/-- A value is read, whatever stands behind it that may. -/
theorem readFrom?_spells {v : Json} {w : List (Option Char)} (h : Spells v w)
    {stack : List Frame} {s : State} (hs : complete stack v = some s)
    {rest : List (Option Char)} (hrest : Delimited rest) :
    readFrom? ⟨.value, stack⟩ (w ++ rest) = s.readFrom? rest := by
  cases h with
  | @word letters v word =>
    obtain ⟨c, letters, rfl, hsome⟩ := exists_wordBegins word
    rw [List.map_cons, List.cons_append, readFrom?_of_step (step_value (.word word)),
      readFrom?_word hsome hs]
  | number numberText =>
    obtain ⟨c, w, part, rfl, hbegins, q, hq, hcomplete⟩ := exists_numberBegins numberText
    rw [List.map_cons, List.cons_append, readFrom?_of_step (step_value (hbegins stack)),
      readFrom?_digits hq]
    exact readFrom?_number hcomplete hrest (by simpa using hs)
  | string stringText =>
    rw [readFrom?_stringText stringText (step_value .string), closed, if_neg Bool.false_ne_true, hs,
      Option.bind_some]
  | emptyArray blanks =>
    rw [List.cons_append, readFrom?_of_step (step_value .array), List.append_assoc,
      IsBetween.firstItem.readFrom?_blanks blanks, List.singleton_append]
    exact readFrom?_of_step hs
  | emptyObject blanks =>
    rw [List.cons_append, readFrom?_of_step (step_value .object), List.append_assoc,
      IsBetween.firstKey.readFrom?_blanks blanks, List.singleton_append]
    exact readFrom?_of_step hs
  | array items =>
    rw [List.cons_append, readFrom?_of_step (step_value .array), List.append_assoc,
      List.singleton_append, readFrom?_firstItem items, readFrom?_items items, List.reverse_nil,
      List.nil_append, hs, Option.bind_some]
  | object members =>
    rw [List.cons_append, readFrom?_of_step (step_value .object), List.append_assoc,
      List.singleton_append, readFrom?_firstKey members, readFrom?_members members,
      List.reverse_nil, List.nil_append, hs, Option.bind_some]

/-- Items that are spelled are read, and close their array. -/
theorem readFrom?_items {vs : List Json} {w : List (Option Char)} (h : ItemsText vs w)
    {stack : List Frame} {done : List Json} {rest : List (Option Char)} :
    readFrom? ⟨.value, .items done :: stack⟩ (w ++ some ']' :: rest) =
      (complete stack (.array (done.reverse ++ vs))).bind (·.readFrom? rest) := by
  cases h with
  | @last v b w a before item behind =>
    have hdelimited : Delimited (a ++ some ']' :: rest) := .blanks behind (.cons (by decide))
    rw [List.append_assoc, List.append_assoc, IsBetween.value.readFrom?_blanks before,
      readFrom?_spells item rfl hdelimited, IsBetween.afterValue.readFrom?_blanks behind,
      readFrom?_cons, ← List.reverse_cons]
    rfl
  | @cons v vs b w a ws before item behind others =>
    have hdelimited : Delimited (a ++ some ',' :: (ws ++ some ']' :: rest)) :=
      .blanks behind (.cons (by decide))
    have hnext : step ⟨.afterValue, .items (v :: done) :: stack⟩ (some ',') =
        some ⟨.value, .items (v :: done) :: stack⟩ := rfl
    simp only [List.append_assoc, List.cons_append]
    rw [IsBetween.value.readFrom?_blanks before, readFrom?_spells item rfl hdelimited,
      IsBetween.afterValue.readFrom?_blanks behind, readFrom?_of_step hnext,
      readFrom?_items others, List.reverse_cons, List.append_assoc, List.singleton_append]

/-- A member that is spelled is read, and joins those that are done. -/
theorem readFrom?_member {m : Option String × Json} {w : List (Option Char)}
    (h : MemberText m w) {stack : List Frame} {done : List (Option String × Json)}
    {rest : List (Option Char)} (hrest : Delimited rest) :
    readFrom? ⟨.key, .members done :: stack⟩ (w ++ rest) =
      readFrom? ⟨.afterValue, .members (m :: done) :: stack⟩ rest := by
  cases h with
  | @member key v b wk a b' w a' before keyText behind before' value behind' =>
    have hcolon : step ⟨.colon key, .members done :: stack⟩ (some ':') =
        some ⟨.value, .member done key :: stack⟩ := rfl
    simp only [List.append_assoc, List.cons_append]
    rw [IsBetween.key.readFrom?_blanks before, readFrom?_stringText keyText rfl, closed,
      if_pos rfl, Option.bind_some, (IsBetween.colon key).readFrom?_blanks behind,
      readFrom?_of_step hcolon, IsBetween.value.readFrom?_blanks before',
      readFrom?_spells value rfl (.blanks behind' hrest),
      IsBetween.afterValue.readFrom?_blanks behind']

/-- Members that are spelled are read, and close their object. -/
theorem readFrom?_members {ms : List (Option String × Json)} {w : List (Option Char)}
    (h : MembersText ms w) {stack : List Frame} {done : List (Option String × Json)}
    {rest : List (Option Char)} :
    readFrom? ⟨.key, .members done :: stack⟩ (w ++ some '\x7d' :: rest) =
      (complete stack (.object (done.reverse ++ ms))).bind (·.readFrom? rest) := by
  cases h with
  | @last m w member =>
    have hdelimited : Delimited (some '\x7d' :: rest) := .cons (by decide)
    rw [readFrom?_member member hdelimited, readFrom?_cons, ← List.reverse_cons]
    rfl
  | @cons m ms w ws member others =>
    have hnext : step ⟨.afterValue, .members (m :: done) :: stack⟩ (some ',') =
        some ⟨.key, .members (m :: done) :: stack⟩ := rfl
    have hdelimited : Delimited (some ',' :: (ws ++ some '\x7d' :: rest)) := .cons (by decide)
    rw [List.append_assoc, List.cons_append, readFrom?_member member hdelimited,
      readFrom?_of_step hnext, readFrom?_members others, List.reverse_cons, List.append_assoc,
      List.singleton_append]

end

/-! ## What is read was written -/

/-- The text begins with a value, and the reader goes on behind it. -/
def PassesValue (stack : List Frame) (text : List (Option Char)) (v : Json) : Prop :=
  ∃ b w rest v₀ s, text = b ++ (w ++ rest) ∧ Blanks b ∧ Spells v₀ w ∧
    complete stack v₀ = some s ∧ s.readFrom? rest = some v

/-- In texts shorter than this, the reader gets only through values of the grammar. -/
def PassesBelow (n : Nat) (v : Json) : Prop :=
  ∀ text : List (Option Char), text.length < n → ∀ stack,
    readFrom? ⟨.value, stack⟩ text = some v → PassesValue stack text v

/-- A comma, or the end of the array or object, follows a value within it. -/
theorem exists_after {frame : Frame} {again : Mode} {close : Char} {whole : Json}
    (hafter : ∀ c, stepAfter (frame :: stack) c =
      if c = ',' then some ⟨again, frame :: stack⟩
      else if c = close then complete stack whole else none)
    (h : readFrom? ⟨.afterValue, frame :: stack⟩ text = some v) :
    ∃ a rest, Blanks a ∧
      (text = a ++ some ',' :: rest ∧ readFrom? ⟨again, frame :: stack⟩ rest = some v ∨
        text = a ++ some close :: rest ∧ ∃ s, complete stack whole = some s ∧
          s.readFrom? rest = some v) := by
  obtain ⟨a, c, rest, s, rfl, ha, hc, hstep, hs⟩ := IsBetween.afterValue.exists_next rfl h
  refine ⟨a, rest, ha, ?_⟩
  simp only [stepBetween, hc, Bool.false_eq_true, if_false, hafter] at hstep
  split_ifs at hstep with hcomma hclose
  · obtain rfl := Option.some.inj hstep
    exact .inl ⟨by rw [hcomma], hs⟩
  · exact .inr ⟨by rw [hclose], s, hstep, hs⟩

/-- Where reading succeeds among items, the text spells items up to the bracket. -/
theorem exists_items {n : Nat} (hbelow : PassesBelow n v) {done : List Json}
    (hn : text.length < n) (h : readFrom? ⟨.value, .items done :: stack⟩ text = some v) :
    ∃ vs w rest s, text = w ++ some ']' :: rest ∧ ItemsText vs w ∧
      complete stack (.array (done.reverse ++ vs)) = some s ∧ s.readFrom? rest = some v := by
  induction hlength : text.length using Nat.strongRecOn generalizing text done with
  | ind length ih =>
    subst hlength
    obtain ⟨b, w, rest, v₀, s, rfl, hb, hv₀, hs, hrest⟩ := hbelow text hn _ h
    obtain rfl := Option.some.inj hs
    obtain ⟨a, rest, ha, ⟨rfl, hnext⟩ | ⟨rfl, s, hs, hnext⟩⟩ := exists_after (fun _ => rfl) hrest
    · have hshorter : rest.length < (b ++ (w ++ (a ++ some ',' :: rest))).length := by
        simp only [List.length_append, List.length_cons]
        omega
      obtain ⟨vs, ws, rest, s, rfl, hvs, hs, hrest⟩ :=
        ih _ hshorter (Nat.lt_trans hshorter hn) hnext rfl
      refine ⟨v₀ :: vs, _, rest, s, ?_, .cons hb hv₀ ha hvs, ?_, hrest⟩
      · simp only [List.append_assoc, List.cons_append]
      · rwa [List.reverse_cons, List.append_assoc, List.singleton_append] at hs
    · refine ⟨[v₀], _, rest, s, ?_, .last hb hv₀ ha, ?_, hnext⟩
      · simp only [List.append_assoc]
      · rwa [List.reverse_cons] at hs

/-- A key, a colon and a value. -/
theorem exists_member {n : Nat} (hbelow : PassesBelow n v) {done : List (Option String × Json)}
    (hn : text.length < n) (h : readFrom? ⟨.key, .members done :: stack⟩ text = some v) :
    ∃ key v₀ b wk a b' w rest, text = b ++ (wk ++ (a ++ some ':' :: (b' ++ (w ++ rest)))) ∧
      Blanks b ∧ StringText key wk ∧ Blanks a ∧ Blanks b' ∧ Spells v₀ w ∧
      readFrom? ⟨.afterValue, .members ((key, v₀) :: done) :: stack⟩ rest = some v := by
  obtain ⟨b, c, rest, s, rfl, hb, hc, hstep, hs⟩ := IsBetween.key.exists_next rfl h
  simp only [stepBetween, hc, Bool.false_eq_true, if_false, stepKey] at hstep
  split_ifs at hstep with hmark
  obtain rfl := Option.some.inj hstep
  obtain ⟨key, wk, rest', s, hrest, hkey, hclosed, hs⟩ := exists_stringText hs
  rw [← hmark] at hrest
  rw [hrest] at hn ⊢
  obtain rfl := Option.some.inj hclosed
  obtain ⟨a, c, rest, s, rfl, ha, hc, hstep, hs⟩ := (IsBetween.colon key).exists_next rfl hs
  simp only [stepBetween, hc, Bool.false_eq_true, if_false] at hstep
  split_ifs at hstep with hcolon
  obtain rfl := Option.some.inj hstep
  have hshorter : rest.length < n := by
    simp only [List.length_append, List.length_cons] at hn
    omega
  obtain ⟨b', w, rest, v₀, s, rfl, hb', hv₀, hs, hrest⟩ := hbelow rest hshorter _ hs
  obtain rfl := Option.some.inj hs
  exact ⟨key, v₀, b, wk, a, b', w, rest, by rw [hcolon], hb, hkey, ha, hb', hv₀, hrest⟩

/-- Where reading succeeds among members, the text spells members up to the brace. -/
theorem exists_members {n : Nat} (hbelow : PassesBelow n v) {done : List (Option String × Json)}
    (hn : text.length < n) (h : readFrom? ⟨.key, .members done :: stack⟩ text = some v) :
    ∃ ms w rest s, text = w ++ some '\x7d' :: rest ∧ MembersText ms w ∧
      complete stack (.object (done.reverse ++ ms)) = some s ∧ s.readFrom? rest = some v := by
  induction hlength : text.length using Nat.strongRecOn generalizing text done with
  | ind length ih =>
    subst hlength
    obtain ⟨key, v₀, b, wk, a, b', w, rest, rfl, hb, hkey, ha, hb', hv₀, hrest⟩ :=
      exists_member hbelow hn h
    obtain ⟨a', rest, ha', ⟨rfl, hnext⟩ | ⟨rfl, s, hs, hnext⟩⟩ := exists_after (fun _ => rfl) hrest
    · have hshorter : rest.length <
          (b ++ (wk ++ (a ++ some ':' :: (b' ++ (w ++ (a' ++ some ',' :: rest)))))).length := by
        simp only [List.length_append, List.length_cons]
        omega
      obtain ⟨ms, ws, rest, s, rfl, hms, hs, hrest⟩ :=
        ih _ hshorter (Nat.lt_trans hshorter hn) hnext rfl
      have hm : MemberText (key, v₀) _ := .member hb hkey ha hb' hv₀ ha'
      refine ⟨(key, v₀) :: ms, _, rest, s, ?_, .cons hm hms, ?_, hrest⟩
      · simp only [List.append_assoc, List.cons_append]
      · rwa [List.reverse_cons, List.append_assoc, List.singleton_append] at hs
    · refine ⟨[(key, v₀)], _, rest, s, ?_, .last (.member hb hkey ha hb' hv₀ ha'), ?_, hnext⟩
      · simp only [List.append_assoc, List.cons_append]
      · rwa [List.reverse_cons] at hs

/-- Where reading succeeds behind an opening bracket, the text spells an array. -/
theorem exists_array {n : Nat} (hbelow : PassesBelow n v) (hn : text.length < n)
    (h : readFrom? ⟨.firstItem, .items [] :: stack⟩ text = some v) :
    ∃ vs w rest s, some '[' :: text = w ++ rest ∧ Spells (.array vs) w ∧
      complete stack (.array vs) = some s ∧ s.readFrom? rest = some v := by
  obtain ⟨b, c, rest, s, rfl, hb, hc, hstep, hs⟩ := IsBetween.firstItem.exists_next rfl h
  by_cases hend : c = ']'
  · subst hend
    exact ⟨[], _, rest, s, by simp, .emptyArray hb, hstep, hs⟩
  · rw [readFrom?_first .firstItem .value hb (stepBetween_firstItem ⟨hc, hend⟩)] at h
    obtain ⟨vs, w, rest, s, htext, hvs, hs, hrest⟩ := exists_items hbelow hn h
    exact ⟨vs, _, rest, s, by rw [htext]; simp, .array hvs, hs, hrest⟩

/-- Where reading succeeds behind an opening brace, the text spells an object. -/
theorem exists_object {n : Nat} (hbelow : PassesBelow n v) (hn : text.length < n)
    (h : readFrom? ⟨.firstKey, .members [] :: stack⟩ text = some v) :
    ∃ ms w rest s, some '\x7b' :: text = w ++ rest ∧ Spells (.object ms) w ∧
      complete stack (.object ms) = some s ∧ s.readFrom? rest = some v := by
  obtain ⟨b, c, rest, s, rfl, hb, hc, hstep, hs⟩ := IsBetween.firstKey.exists_next rfl h
  by_cases hend : c = '\x7d'
  · subst hend
    exact ⟨[], _, rest, s, by simp, .emptyObject hb, hstep, hs⟩
  · have hfirst : stepBetween .firstKey (.members [] :: stack) c =
        stepBetween .key (.members [] :: stack) c := by
      simp only [stepBetween, hc, hend, if_false, Bool.false_eq_true]
    rw [readFrom?_first .firstKey .key hb hfirst] at h
    obtain ⟨ms, w, rest, s, htext, hms, hs, hrest⟩ := exists_members hbelow hn h
    exact ⟨ms, _, rest, s, by rw [htext]; simp, .object hms, hs, hrest⟩

/-- A value through which the reader gets is one of the grammar. -/
theorem passesValue (text : List (Option Char)) (stack : List Frame)
    (h : readFrom? ⟨.value, stack⟩ text = some v) : PassesValue stack text v := by
  -- the values within an array or object begin behind its bracket, in a shorter text
  induction hlength : text.length using Nat.strongRecOn generalizing text stack with
  | ind length ih =>
    subst hlength
    have hbelow : PassesBelow text.length v := fun text hn stack h => ih _ hn text stack h rfl
    obtain ⟨b, c, rest, s, rfl, hb, hc, hstep, hs⟩ := IsBetween.value.exists_next rfl h
    have hshorter : rest.length < (b ++ some c :: rest).length := by
      simp only [List.length_append, List.length_cons]
      omega
    simp only [stepBetween, hc, Bool.false_eq_true, if_false] at hstep
    have hbegins := stepValue_eq_some_iff.mp hstep
    cases hbegins with
    | array =>
      obtain ⟨vs, w, rest, s, htext, hvs, hs, hrest⟩ := exists_array hbelow hshorter hs
      exact ⟨b, w, rest, _, s, by rw [htext], hb, hvs, hs, hrest⟩
    | object =>
      obtain ⟨ms, w, rest, s, htext, hms, hs, hrest⟩ := exists_object hbelow hshorter hs
      exact ⟨b, w, rest, _, s, by rw [htext], hb, hms, hs, hrest⟩
    | string =>
      obtain ⟨string, w, rest, s, htext, hstring, hs, hrest⟩ := exists_stringText hs
      exact ⟨b, w, rest, _, s, by rw [htext], hb, .string hstring, hs, hrest⟩
    | word word =>
      obtain ⟨rest, s, rfl, hs, hrest⟩ := exists_word hs
      exact ⟨b, _, rest, _, s, rfl, hb, .word word, hs, hrest⟩
    | negative =>
      obtain ⟨w, rest, s, rfl, hends, hs, hrest⟩ := exists_number hs
      have hnumber : NumberText ('-' :: w) := .negative (NumberPart.ends_sign_iff.mp hends)
      exact ⟨b, _, rest, _, s, rfl, hb, .number hnumber, hs, hrest⟩
    | positive next =>
      obtain ⟨w, rest, s, rfl, hends, hs, hrest⟩ := exists_number hs
      have hnumber : NumberText (c :: w) :=
        .positive (NumberPart.ends_sign_iff.mp (NumberPart.ends_cons_iff.mpr ⟨_, next, hends⟩))
      exact ⟨b, _, rest, _, s, rfl, hb, .number hnumber, hs, hrest⟩

/-- Behind the outermost value there are only blanks. -/
theorem eq_of_readFrom?_finished (h : readFrom? ⟨.finished v₀, []⟩ text = some v) :
    v₀ = v ∧ Blanks text := by
  obtain ⟨b, rest, rfl, hb, hrest⟩ := exists_blanks text
  rw [(IsBetween.finished v₀).readFrom?_blanks hb] at h
  cases rest with
  | nil => exact ⟨Option.some.inj h, by rwa [List.append_nil]⟩
  | cons c rest =>
    obtain ⟨s, hstep, -⟩ := exists_step h
    cases c with
    | none => cases hstep
    | some c =>
      simp only [(IsBetween.finished v₀).step_some, stepBetween, hrest c rest rfl,
        Bool.false_eq_true, if_false] at hstep
      cases hstep

end State

/-! ## Whole texts -/

/-- A text is read as a value if and only if it spells that value. -/
theorem read?_eq_some_iff {text : List (Option Char)} {v : Json} :
    read? text = some v ↔ IsText v text := by
  have hread : read? text = State.readFrom? ⟨.value, []⟩ text := rfl
  rw [hread]
  constructor
  · intro h
    obtain ⟨b, w, a, v₀, s, rfl, hb, hv₀, hs, hrest⟩ := State.passesValue text [] h
    obtain rfl := Option.some.inj hs
    obtain ⟨rfl, ha⟩ := State.eq_of_readFrom?_finished hrest
    exact .text hb hv₀ ha
  · rintro (@⟨b, w, a, before, value, behind⟩)
    have hend : State.readFrom? ⟨.finished v, []⟩ (a ++ []) = some v :=
      (State.IsBetween.finished v).readFrom?_blanks behind []
    have hdelimited : State.Delimited (a ++ []) := .blanks behind (.inl rfl)
    rw [List.append_nil] at hend hdelimited
    rw [State.IsBetween.value.readFrom?_blanks before, State.readFrom?_spells value rfl hdelimited,
      hend]

/-- The reader refuses a text just if it spells no value. -/
theorem read?_eq_none_iff {text : List (Option Char)} :
    read? text = none ↔ ∀ v, ¬IsText v text := by
  simp only [← read?_eq_some_iff, Option.eq_none_iff_forall_ne_some, ne_eq]

/-- A text spells one value at most. -/
theorem IsText.unique {text : List (Option Char)} {v v' : Json} (h : IsText v text)
    (h' : IsText v' text) : v = v' :=
  Option.some.inj ((read?_eq_some_iff.mpr h).symm.trans (read?_eq_some_iff.mpr h'))

end PlatformAdmin.Json
