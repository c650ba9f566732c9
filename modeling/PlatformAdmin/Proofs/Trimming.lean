import Mathlib.Data.List.DropRight
import PlatformAdmin.Terminal

/-!
# Trimming

What is dropped from the end of a text is `List.rdropWhile` of its characters, and a text is trimmed
if that and `List.dropWhile` leave it as it is.  Ends that are dropped anyway may be put around a
text, `Text.dropAround_append`, or be dropped first, `Text.dropAround_dropTrailing`.
-/

set_option autoImplicit false

namespace PlatformAdmin.Text

variable {α : Type} {p q : α → Bool}

/-! ## One end -/

/-- To drop an ending is what Mathlib calls to drop from the right. -/
theorem dropTrailing_eq_rdropWhile (p : α → Bool) (xs : List α) :
    dropTrailing p xs = xs.rdropWhile p := rfl

/-- Nothing is dropped exactly if the last element, where there is one, is kept. -/
theorem dropTrailing_eq_self_iff {xs : List α} :
    dropTrailing p xs = xs ↔ ∀ a ∈ xs.getLast?, p a = false := by
  rw [dropTrailing_eq_rdropWhile, List.rdropWhile_eq_self_iff]
  constructor
  · intro h a ha
    obtain ⟨hne, rfl⟩ := List.mem_getLast?_eq_getLast ha
    rw [← Bool.not_eq_true]
    exact h hne
  · intro h hne
    rw [Bool.not_eq_true]
    exact h _ (List.getLast?_eq_getLast_of_ne_nil hne)

/-- An element that is kept protects what stands before it. -/
theorem dropTrailing_append_cons {a : α} (h : p a = false) (xs ys : List α) :
    dropTrailing p (xs ++ a :: ys) = xs ++ a :: dropTrailing p ys := by
  simp only [dropTrailing_eq_rdropWhile]
  induction ys using List.reverseRecOn with
  | nil => exact List.rdropWhile_concat_neg p xs a (by rw [h]; decide)
  | append_singleton ys y ih =>
    rw [← List.cons_append, ← List.append_assoc, List.rdropWhile_concat, List.rdropWhile_concat]
    split
    · exact ih
    · simp

/-- An ending of elements that are dropped makes no difference. -/
theorem dropTrailing_append_of_all {xs ys : List α} (h : ∀ a ∈ ys, p a = true) :
    dropTrailing p (xs ++ ys) = dropTrailing p xs := by
  simp only [dropTrailing_eq_rdropWhile]
  induction ys using List.reverseRecOn with
  | nil => rw [List.append_nil]
  | append_singleton ys y ih =>
    rw [← List.append_assoc, List.rdropWhile_concat_pos p _ y (h y (by simp)),
      ih fun a ha => h a (List.mem_append_left _ ha)]

/-! ## Both ends -/

/-- To drop some of these elements from the end first makes no difference. -/
theorem dropAround_dropTrailing (h : ∀ a, q a = true → p a = true) (xs : List α) :
    dropAround p (dropTrailing q xs) = dropAround p xs := by
  have hsplit : dropTrailing q xs ++ xs.rtakeWhile q = xs := List.rdropWhile_append_rtakeWhile
  have hend : ∀ a ∈ xs.rtakeWhile q, p a = true := fun a ha => h a (List.mem_rtakeWhile_imp ha)
  generalize xs.rtakeWhile q = ys at hsplit hend
  generalize dropTrailing q xs = front at hsplit
  rw [← hsplit]
  -- the end is blank throughout, so it goes with whatever is dropped in front of it
  unfold dropAround
  rw [List.dropWhile_append]
  split
  · rename_i hempty
    have hys : ys.dropWhile p = [] := List.dropWhile_eq_nil_iff.mpr hend
    rw [hys, List.isEmpty_iff.mp hempty]
  · rw [dropTrailing_append_of_all hend]

/-- What is dropped may be put around again. -/
theorem dropAround_append {before after : List α} (hbefore : ∀ a ∈ before, p a = true)
    (hafter : ∀ a ∈ after, p a = true) (xs : List α) :
    dropAround p (before ++ (xs ++ after)) = dropAround p xs := by
  have hstart : dropAround p (before ++ (xs ++ after)) = dropAround p (xs ++ after) := by
    rw [dropAround, List.dropWhile_append_of_pos hbefore, ← dropAround]
  rw [hstart, ← dropAround_dropTrailing (q := p) (fun _ ha => ha) (xs ++ after),
    dropTrailing_append_of_all hafter, dropAround_dropTrailing fun _ ha => ha]

/-- Nothing is left of elements that are all dropped. -/
theorem dropAround_of_all {xs : List α} (h : ∀ a ∈ xs, p a = true) : dropAround p xs = [] := by
  rw [dropAround, List.dropWhile_eq_nil_iff.mpr h]
  rfl

/-- Nothing is left to drop where the ends were dropped. -/
theorem dropAround_dropAround (xs : List α) :
    dropAround p (dropAround p xs) = dropAround p xs := by
  calc dropAround p (dropAround p xs)
      = dropAround p (xs.dropWhile p) := dropAround_dropTrailing (fun _ ha => ha) _
    _ = dropAround p xs := by rw [dropAround, List.dropWhile_idempotent p xs, dropAround]

/-- What is left stood there in the same order. -/
theorem dropAround_sublist (p : α → Bool) (xs : List α) : (dropAround p xs).Sublist xs :=
  (List.rdropWhile_prefix p _).sublist.trans (List.dropWhile_sublist p)

/-! ## Texts -/

/-- Carriage returns at the end of a line are blanks, which trimming takes off anyway. -/
theorem trim_stripReturns (line : String) : trim (Terminal.stripReturns line) = trim line := by
  have hreturn : ∀ c : Char, (c == '\r') = true → isBlank c = true := by
    intro c hc
    rw [beq_iff_eq] at hc
    rw [hc]
    decide
  rw [trim, trim, Terminal.stripReturns, String.toList_ofList, dropAround_dropTrailing hreturn]

/-- Only a text of blanks has nothing left when it is trimmed. -/
theorem trim_eq_empty_iff {text : String} :
    trim text = "" ↔ ∀ c ∈ text.toList, isBlank c = true := by
  constructor
  · intro h c hc
    have hnil : (trim text).toList = [] := by rw [h]; rfl
    rw [trim, String.toList_ofList, dropAround, dropTrailing_eq_rdropWhile,
      List.rdropWhile_eq_nil_iff] at hnil
    rw [← List.takeWhile_append_dropWhile (p := isBlank) (l := text.toList),
      List.mem_append] at hc
    obtain hfront | hback := hc
    · exact List.mem_takeWhile_imp hfront
    · exact hnil c hback
  · intro h
    rw [trim, dropAround_of_all h]

end PlatformAdmin.Text
