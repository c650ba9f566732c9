import PlatformAdmin.Proofs.Consent

/-!
# The lines of the input

A text is cut at its line feeds into segments, and the reader of the input takes one segment after
the other: `Text.segment` is the one of a number, and `Text.behindSegments` is what is left to read
once so many were read.  A terminal that can ask hears the next segment and leaves the rest
(`Terminal.CanAsk.hears`, `Terminal.afterAnswer_of_input`).
-/

set_option autoImplicit false

namespace PlatformAdmin

namespace Text

/-- The segment with a number between the line feeds of a text, the first being number zero.  Behind
the last segment there is nothing. -/
def segment (text : String) (number : Nat) : List Char :=
  (text.toList.splitOn '\n').getD number []

/-- What is left of a text behind so many of its segments and the line feeds that end them. -/
def behindSegments (text : String) (number : Nat) : List Char :=
  ['\n'].intercalate ((text.toList.splitOn '\n').drop number)

/-- No segment has the separator in it. -/
theorem not_mem_of_mem_splitOn {α : Type} [BEq α] [LawfulBEq α] {separator : α}
    {elements piece : List α} (h : piece ∈ elements.splitOn separator) : separator ∉ piece := by
  induction elements generalizing piece with
  | nil =>
    obtain rfl : piece = [] := by simpa [List.splitOn] using h
    exact List.not_mem_nil
  | cons element elements ih =>
    rw [List.splitOn, List.splitOnP_cons_eq_if_modifyHead] at h
    split at h
    · obtain rfl | hpiece := List.mem_cons.mp h
      · exact List.not_mem_nil
      · exact ih hpiece
    · rename_i hne
      cases hpieces : elements.splitOnP (· == separator) with
      | nil => exact absurd hpieces (List.splitOnP_ne_nil _ _)
      | cons first others =>
        have hmem : ∀ piece ∈ first :: others, separator ∉ piece := by
          intro piece hpiece
          rw [← hpieces] at hpiece
          exact ih hpiece
        rw [hpieces, List.modifyHead_cons, List.mem_cons] at h
        obtain rfl | hpiece := h
        · rw [List.mem_cons, not_or]
          exact ⟨fun heq => hne (by simp [heq]), hmem first List.mem_cons_self⟩
        · exact hmem piece (List.mem_cons_of_mem _ hpiece)

/-- Behind no segment stands all of the text. -/
theorem behindSegments_zero (text : String) : behindSegments text 0 = text.toList := by
  rw [behindSegments, List.drop_zero]
  exact List.intercalate_splitOn '\n'

end Text

namespace Terminal

/-- The reader of the input takes the next segment. -/
theorem splitLine_behindSegments (text : String) (number : Nat) :
    splitLine ((Text.behindSegments text number).map some) =
      ((Text.segment text number).map some,
        (Text.behindSegments text (number + 1)).map some) := by
  have hseparator : ∀ piece ∈ text.toList.splitOn '\n', some '\n' ∉ piece.map some := by
    intro piece hpiece hmem
    obtain ⟨c, hc, heq⟩ := List.mem_map.mp hmem
    rw [Option.some.inj heq] at hc
    exact Text.not_mem_of_mem_splitOn hpiece hc
  unfold Text.behindSegments Text.segment
  generalize text.toList.splitOn '\n' = pieces at hseparator
  rw [List.getD_eq_getElem?_getD, ← List.head?_drop, ← List.tail_drop]
  cases hdrop : pieces.drop number with
  | nil => rfl
  | cons piece others =>
    have hpiece : some '\n' ∉ piece.map some := by
      apply hseparator
      apply List.mem_of_mem_drop
      rw [hdrop]
      exact List.mem_cons_self
    cases others with
    | nil => simpa using splitLine_of_not_mem hpiece
    | cons next others =>
      have hsplit : splitLine (piece.map some ++ some '\n' ::
          (['\n'].intercalate (next :: others)).map some) = _ := splitLine_append_cons hpiece
      simpa using hsplit

/-- Questions are allowed, and the streams that they need work. -/
structure CanAsk (t : Terminal) : Prop where
  allowed : t.interactive = true
  writable : t.faults.write = none
  flushable : t.faults.flush = none
  readable : t.faults.read = none

variable {t : Terminal} {text : String} {number : Nat}

/-- The answer to a question is the next segment of the input, without the carriage returns at its
end. -/
theorem CanAsk.hears (h : t.CanAsk)
    (hinput : t.input = (Text.behindSegments text number).map some) :
    t.Hears (stripReturns (String.ofList (Text.segment text number))) := by
  refine ⟨h.allowed, h.writable, h.flushable, h.readable, _, ?_, rfl⟩
  rw [hinput, splitLine_behindSegments]
  exact Text.Utf8.text?_map_some _

/-- An answer takes one line of the input, and shows what was asked. -/
theorem afterAnswer_of_input (hinput : t.input = (Text.behindSegments text number).map some)
    (shown : String) :
    t.afterAnswer shown =
      { t with out := t.out ++ shown
               input := (Text.behindSegments text (number + 1)).map some } := by
  rw [afterAnswer, hinput, splitLine_behindSegments]

end Terminal

end PlatformAdmin
