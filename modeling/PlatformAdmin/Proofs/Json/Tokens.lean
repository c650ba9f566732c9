import Mathlib.Tactic.SplitIfs
import PlatformAdmin.Proofs.Json.Numbers

/-!
# The tokens of JSON

`State.readFrom?` is what the reader makes of a text from some state on.  The lemmas of this module
say how it gets through blanks, numbers and strings, whatever follows them, and conversely that a
text through which it gets begins with such a token.  For a token in one direction the reader is
said to go on from the state behind the token; in the other, to have come by such a state.
-/

set_option autoImplicit false

namespace PlatformAdmin.Json

namespace State

/-- The value that is read when a text goes on like this from a state. -/
def readFrom? (s : State) (text : List (Option Char)) : Option Json :=
  (text.foldlM step s).bind value?

variable {s s' : State} {c : Option Char} {text rest : List (Option Char)} {v : Json}
  {mode : Mode} {stack : List Frame}

/-- To read a text is to take a step and read the rest. -/
theorem readFrom?_cons (s : State) (c : Option Char) (text : List (Option Char)) :
    s.readFrom? (c :: text) = (s.step c).bind (·.readFrom? text) := by
  rw [readFrom?, List.foldlM_cons]
  cases s.step c <;> rfl

/-- Where a step is known, reading goes on behind it. -/
theorem readFrom?_of_step (h : s.step c = some s') :
    s.readFrom? (c :: text) = s'.readFrom? text := by
  rw [readFrom?_cons, h, Option.bind_some]

/-- Where reading succeeds, the first character was a step. -/
theorem exists_step (h : s.readFrom? (c :: text) = some v) :
    ∃ s', s.step c = some s' ∧ s'.readFrom? text = some v := by
  rw [readFrom?_cons] at h
  exact Option.bind_eq_some_iff.mp h

/-! ## Between tokens -/

/-- The modes in which the reader is between two tokens. -/
inductive IsBetween : Mode → Prop
  | value : IsBetween .value
  | firstItem : IsBetween .firstItem
  | firstKey : IsBetween .firstKey
  | key : IsBetween .key
  | colon (key : Option String) : IsBetween (.colon key)
  | afterValue : IsBetween .afterValue
  | finished (v : Json) : IsBetween (.finished v)

/-- Between tokens, a character is a step of its own kind. -/
theorem IsBetween.step_some (h : IsBetween mode) (c : Char) :
    step ⟨mode, stack⟩ (some c) = stepBetween mode stack c := by
  cases h <;> rfl

/-- Between tokens, a byte that is no character is refused. -/
theorem IsBetween.step_none (h : IsBetween mode) : step ⟨mode, stack⟩ none = none := by
  cases h <;> rfl

/-- A blank is a space, a tab, a line feed or a carriage return. -/
theorem isSpace_iff {c : Char} :
    isSpace c = true ↔ c = ' ' ∨ c = '\t' ∨ c = '\n' ∨ c = '\r' := by
  simp [isSpace, or_assoc]

/-- Between tokens, blanks are passed over. -/
theorem IsBetween.readFrom?_blanks (h : IsBetween mode) {b : List (Option Char)} (hb : Blanks b)
    (rest : List (Option Char)) :
    readFrom? ⟨mode, stack⟩ (b ++ rest) = readFrom? ⟨mode, stack⟩ rest := by
  induction b with
  | nil => rfl
  | cons c b ih =>
    obtain ⟨hc, hb⟩ := List.forall_mem_cons.mp hb
    have hstep : step ⟨mode, stack⟩ c = some ⟨mode, stack⟩ := by
      obtain ⟨x, rfl, hx⟩ : ∃ x, c = some x ∧ isSpace x = true := by
        obtain rfl | rfl | rfl | rfl := hc <;> exact ⟨_, rfl, rfl⟩
      simp only [h.step_some, stepBetween, hx, if_true]
    rw [List.cons_append, readFrom?_of_step hstep, ih hb]

/-- What a text goes on with behind its blanks is no blank. -/
theorem exists_blanks (text : List (Option Char)) :
    ∃ b rest, text = b ++ rest ∧ Blanks b ∧
      ∀ c more, rest = some c :: more → isSpace c = false := by
  induction text with
  | nil => exact ⟨[], [], rfl, nofun, nofun⟩
  | cons c text ih =>
    by_cases hc : ∃ x, c = some x ∧ isSpace x = true
    · obtain ⟨x, rfl, hx⟩ := hc
      obtain ⟨b, rest, rfl, hb, hrest⟩ := ih
      refine ⟨some x :: b, rest, rfl, List.forall_mem_cons.mpr ⟨?_, hb⟩, hrest⟩
      simpa using isSpace_iff.mp hx
    · refine ⟨[], c :: text, rfl, nofun, ?_⟩
      rintro x more h
      obtain ⟨rfl, -⟩ := List.cons.inj h
      exact Bool.eq_false_iff.mpr fun hx => hc ⟨x, rfl, hx⟩

/-- A text through which the reader gets between tokens has a character that is no blank. -/
theorem IsBetween.exists_next (h : IsBetween mode) (hnone : value? ⟨mode, stack⟩ = none)
    (hread : readFrom? ⟨mode, stack⟩ text = some v) :
    ∃ b c rest s, text = b ++ some c :: rest ∧ Blanks b ∧ isSpace c = false ∧
      stepBetween mode stack c = some s ∧ s.readFrom? rest = some v := by
  obtain ⟨b, rest, rfl, hb, hrest⟩ := exists_blanks text
  rw [h.readFrom?_blanks hb] at hread
  cases rest with
  | nil =>
    rw [show readFrom? ⟨mode, stack⟩ [] = value? ⟨mode, stack⟩ from rfl, hnone] at hread
    cases hread
  | cons c rest =>
    obtain ⟨s, hstep, hs⟩ := exists_step hread
    cases c with
    | none =>
      rw [h.step_none] at hstep
      cases hstep
    | some c =>
      rw [h.step_some] at hstep
      exact ⟨b, c, rest, s, rfl, hb, hrest c rest rfl, hstep, hs⟩

/-! ## Complete values -/

/-- A text before which a value may end. -/
def Delimited (rest : List (Option Char)) : Prop :=
  rest = [] ∨ ∃ c more, rest = some c :: more ∧ c ∈ [' ', '\t', '\n', '\r', ',', ']', '\x7d']

/-- A delimiter delimits, whatever follows it. -/
theorem Delimited.cons {c : Char} (h : c ∈ [' ', '\t', '\n', '\r', ',', ']', '\x7d']) :
    Delimited (some c :: rest) :=
  .inr ⟨c, rest, rfl, h⟩

/-- Blanks may stand before a delimiter. -/
theorem Delimited.blanks {a : List (Option Char)} (ha : Blanks a) (h : Delimited rest) :
    Delimited (a ++ rest) := by
  cases a with
  | nil => exact h
  | cons c a =>
    obtain ⟨hc, -⟩ := List.forall_mem_cons.mp ha
    obtain rfl | rfl | rfl | rfl := hc <;> exact .cons (by decide)

/-- Behind a whole value the reader is between tokens. -/
theorem isBetween_of_complete (h : complete stack v = some s) : IsBetween s.mode := by
  unfold complete at h
  split at h
  · obtain rfl := Option.some.inj h
    exact .finished v
  · obtain rfl := Option.some.inj h
    exact .afterValue
  · obtain rfl := Option.some.inj h
    exact .afterValue
  · cases h

/-! ## Numbers -/

section

variable {p q : NumberPart} {done : List Char}

/-- Characters that carry a number on are read into it. -/
theorem readFrom?_digits {w : List Char} (h : w.foldlM NumberPart.next p = some q)
    (done : List Char) (rest : List (Option Char)) :
    readFrom? ⟨.number p done, stack⟩ (w.map some ++ rest) =
      readFrom? ⟨.number q (w.reverse ++ done), stack⟩ rest := by
  induction w generalizing p done with
  | nil =>
    obtain rfl : p = q := Option.some.inj h
    rfl
  | cons c w ih =>
    rw [List.foldlM_cons] at h
    obtain ⟨p', hp', hrest⟩ := Option.bind_eq_some_iff.mp h
    have hstep : step ⟨.number p done, stack⟩ (some c) = some ⟨.number p' (c :: done), stack⟩ := by
      simp only [step, hp']
    rw [List.map_cons, List.cons_append, readFrom?_of_step hstep, ih hrest, List.reverse_cons,
      List.append_assoc, List.singleton_append]

/-- With a character that does not continue it, a number is complete. -/
theorem step_number {c : Char} (hcomplete : p.isComplete = true) (hnext : p.next c = none)
    (hs : complete stack (.number (String.ofList done.reverse)) = some s) :
    step ⟨.number p done, stack⟩ (some c) = s.step (some c) := by
  have hbetween : s.step (some c) = stepBetween s.mode s.stack c :=
    (isBetween_of_complete hs).step_some c
  simp only [step, hnext, hcomplete, if_true, hs, Option.bind_eq_bind, Option.bind_some, ← hbetween]

/-- No delimiter carries on a number that is complete. -/
theorem NumberPart.next_delimiter (hp : p.isComplete = true) {c : Char}
    (hc : c ∈ [' ', '\t', '\n', '\r', ',', ']', '\x7d']) : p.next c = none := by
  simp only [List.mem_cons, List.not_mem_nil, or_false] at hc
  cases p with
  | zero | whole | fraction | exponent =>
    obtain rfl | rfl | rfl | rfl | rfl | rfl | rfl := hc <;> rfl
  | _ => cases hp

/-- At the end of the text a complete number is a value. -/
theorem value?_number (hp : p.isComplete = true)
    (hs : complete stack (.number (String.ofList done.reverse)) = some s) :
    value? ⟨.number p done, stack⟩ = s.value? := by
  unfold complete at hs
  split at hs
  · obtain rfl := Option.some.inj hs
    simp [value?, hp]
  · obtain rfl := Option.some.inj hs
    rfl
  · obtain rfl := Option.some.inj hs
    rfl
  · cases hs

/-- Before a delimiter a complete number is a value. -/
theorem readFrom?_number (hp : p.isComplete = true) (hrest : Delimited rest)
    (hs : complete stack (.number (String.ofList done.reverse)) = some s) :
    readFrom? ⟨.number p done, stack⟩ rest = s.readFrom? rest := by
  obtain rfl | ⟨c, more, rfl, hc⟩ := hrest
  · exact value?_number hp hs
  · rw [readFrom?_cons, readFrom?_cons, step_number hp (NumberPart.next_delimiter hp hc) hs]

/-- A number through which the reader gets ends at some point. -/
theorem exists_number (h : readFrom? ⟨.number p done, stack⟩ text = some v) :
    ∃ w rest s, text = w.map some ++ rest ∧ p.Ends w ∧
      complete stack (.number (String.ofList (done.reverse ++ w))) = some s ∧
        s.readFrom? rest = some v := by
  induction text generalizing p done with
  | nil =>
    have hvalue : value? ⟨.number p done, stack⟩ = some v := h
    cases stack with
    | cons frame stack => cases hvalue
    | nil =>
      simp only [value?] at hvalue
      split_ifs at hvalue with hp
      obtain rfl := Option.some.inj hvalue
      exact ⟨[], [], _, rfl, NumberPart.ends_nil_iff.mpr hp, by rw [List.append_nil]; rfl, rfl⟩
  | cons c text ih =>
    obtain ⟨s, hstep, hs⟩ := exists_step h
    cases c with
    | none => cases hstep
    | some c =>
      cases hnext : p.next c with
      | some p' =>
        simp only [step, hnext, Option.some.injEq] at hstep
        subst hstep
        obtain ⟨w, rest, s, rfl, hends, hcomplete, hrest⟩ := ih hs
        rw [List.reverse_cons, List.append_assoc, List.singleton_append] at hcomplete
        exact ⟨c :: w, rest, s, rfl, NumberPart.ends_cons_iff.mpr ⟨p', hnext, hends⟩, hcomplete,
          hrest⟩
      | none =>
        simp only [step, hnext] at hstep
        split_ifs at hstep with hp
        obtain ⟨s₀, hs₀, hstep⟩ := Option.bind_eq_some_iff.mp hstep
        refine ⟨[], some c :: text, s₀, rfl, NumberPart.ends_nil_iff.mpr hp, ?_, ?_⟩
        · rw [List.append_nil]
          exact hs₀
        · rw [← (isBetween_of_complete hs₀).step_some] at hstep
          rw [readFrom?_of_step hstep]
          exact hs

end

end State

end PlatformAdmin.Json
