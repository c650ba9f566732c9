import PlatformAdmin.Proofs.UnansweredPrompts

/-!
# Reads partition the input

Each read takes one segment of the input together with the line feed that ends it, so that what was
read so far is always a beginning of the text, up to a boundary between segments.  That boundary is
the invariant: after `n` reads, what is left is `Text.behindSegments text n`, whether the lines were
read as such or as answers to prompts (`Terminal.readLines_eq`,
`Terminal.CanAsk.exists_putAll_of_input`).

Behind the last segment nothing is left, and every further read finds an empty line there.
-/

set_option autoImplicit false

namespace PlatformAdmin

/-! ## Segments and the line feeds that end them -/

namespace Text

/-- The segment with a number, and the line feed that ends it if there is one. -/
def segmentWithEnd (text : String) (number : Nat) : List Char :=
  segment text number ++ if number < text.toList.count '\n' then ['\n'] else []

/-- There is one more segment than there are separators. -/
theorem length_splitOn {α : Type} [BEq α] [LawfulBEq α] (separator : α) (elements : List α) :
    (elements.splitOn separator).length = elements.count separator + 1 := by
  induction elements with
  | nil => rfl
  | cons element elements ih =>
    rw [List.splitOn, List.splitOnP_cons_eq_if_modifyHead, List.count_cons]
    split
    · exact congrArg (· + 1) ih
    · rw [List.length_modifyHead]
      exact ih

variable (text : String) (number : Nat)

/-- A segment and what stands behind it are what stood behind the one before. -/
theorem segmentWithEnd_append_behindSegments :
    segmentWithEnd text number ++ behindSegments text (number + 1) =
      behindSegments text number := by
  have hlength : number < text.toList.count '\n' ↔
      number + 1 < (text.toList.splitOn '\n').length := by
    rw [length_splitOn]
    omega
  unfold segmentWithEnd segment behindSegments
  simp only [hlength]
  generalize text.toList.splitOn '\n' = pieces
  rw [List.getD_eq_getElem?_getD, ← List.head?_drop, ← List.tail_drop]
  have hdropped : (pieces.drop number).length = pieces.length - number := List.length_drop
  cases hdrop : pieces.drop number with
  | nil =>
    rw [hdrop, List.length_nil] at hdropped
    have hlast : ¬number + 1 < pieces.length := by omega
    simp [hlast]
  | cons piece others =>
    rw [hdrop, List.length_cons] at hdropped
    cases others with
    | nil =>
      have hlast : ¬number + 1 < pieces.length := by
        rw [List.length_nil] at hdropped
        omega
      simp [hlast]
    | cons next others =>
      have hmore : number + 1 < pieces.length := by
        rw [List.length_cons] at hdropped
        omega
      simp [hmore]

/-- The first segments and what is left behind them are the whole text. -/
theorem flatMap_segmentWithEnd_append :
    (List.range number).flatMap (segmentWithEnd text) ++ behindSegments text number =
      text.toList := by
  induction number with
  | zero => exact behindSegments_zero text
  | succ number ih =>
    rw [List.range_succ, List.flatMap_append, List.append_assoc, List.flatMap_singleton,
      segmentWithEnd_append_behindSegments, ih]

variable {text number}

/-- Behind the last segment stands nothing. -/
theorem behindSegments_of_count_lt (h : text.toList.count '\n' < number) :
    behindSegments text number = [] := by
  have hlength : (text.toList.splitOn '\n').length ≤ number := by
    rw [length_splitOn]
    exact h
  rw [behindSegments, List.drop_of_length_le hlength]
  rfl

end Text

/-! ## Lines -/

namespace Terminal

/-- What a segment of a text is read as: it comes without the carriage returns at its end. -/
def lineAt (text : String) (number : Nat) : String :=
  stripReturns (String.ofList (Text.segment text number))

/-- Reads so many lines, one after the other. -/
def readLines (t : Terminal) : Nat → List (Except QuestionError String) × Terminal
  | 0 => ([], t)
  | n + 1 =>
    let (answer, t) := t.readLine
    let (answers, t) := t.readLines n
    (answer :: answers, t)

variable {t : Terminal} {text : String} {number : Nat}

/-- A line that can be read takes one line of the input. -/
theorem readLine_eq (h : t.faults.read = none) :
    t.readLine = (answerOf (splitLine t.input).1, { t with input := (splitLine t.input).2 }) := by
  simp only [readLine, h, answerOf]
  cases Text.Utf8.text? (splitLine t.input).1 <;> rfl

/-- A read at the boundary before a segment takes that segment, and goes to the next boundary. -/
theorem readLine_of_input (h : t.faults.read = none)
    (hinput : t.input = (Text.behindSegments text number).map some) :
    t.readLine = (.ok (lineAt text number),
      { t with input := (Text.behindSegments text (number + 1)).map some }) := by
  rw [readLine_eq h, hinput, splitLine_behindSegments, answerOf, Text.Utf8.text?_map_some]
  rfl

/-- Lines that are read in a row are lines in a row of the text. -/
theorem readLines_eq (h : t.faults.read = none)
    (hinput : t.input = (Text.behindSegments text number).map some) (n : Nat) :
    t.readLines n = ((List.range n).map fun i => .ok (lineAt text (number + i)),
      { t with input := (Text.behindSegments text (number + n)).map some }) := by
  induction n generalizing t number with
  | zero =>
    rw [Nat.add_zero, ← hinput]
    rfl
  | succ n ih =>
    let next : Terminal := { t with input := (Text.behindSegments text (number + 1)).map some }
    have hfirst : t.readLine = (.ok (lineAt text number), next) := readLine_of_input h hinput
    have hrest : next.readLines n = _ := ih h rfl
    simp only [readLines, hfirst, hrest, List.range_succ_eq_map]
    simp [next, Nat.add_assoc, Nat.add_comm 1]

/-- At the end of the input every read finds an empty line, and leaves the terminal as it is. -/
theorem readLines_of_input_eq_nil (h : t.faults.read = none) (hinput : t.input = []) (n : Nat) :
    t.readLines n = (List.replicate n (.ok ""), t) := by
  have hread : t.readLine = (.ok "", t) := by
    have hsplit : splitLine t.input = ([], t.input) := by rw [hinput, splitLine]
    rw [readLine_eq h, hsplit]
    rfl
  induction n with
  | zero => rfl
  | succ n ih =>
    simp only [readLines, hread, ih]
    rfl

/-- A last line without line feed is read once. -/
theorem readLines_of_last (h : t.faults.read = none) {line : List Char} (hline : '\n' ∉ line)
    (hinput : t.input = line.map some) (n : Nat) :
    t.readLines (n + 1) =
      (.ok (stripReturns (String.ofList line)) :: List.replicate n (.ok ""),
        { t with input := [] }) := by
  have hlast : some '\n' ∉ line.map some := by simpa using hline
  have hread : t.readLine = (.ok (stripReturns (String.ofList line)), { t with input := [] }) := by
    rw [readLine_eq h, hinput, splitLine_of_not_mem hlast, answerOf, Text.Utf8.text?_map_some]
  have hrest := readLines_of_input_eq_nil (t := { t with input := [] }) h rfl n
  simp only [readLines, hread, hrest]

/-! ## Answers -/

/-- Puts prompts, one after the other. -/
def putAll (t : Terminal) (prompts : List Prompt) : Terminal :=
  prompts.foldl (fun t p => (t.put p).2) t

/-- Any prompt that can be put takes one line of the input, and means what that line says. -/
theorem CanAsk.exists_put_of_input (h : t.CanAsk)
    (hinput : t.input = (Text.behindSegments text number).map some) (p : Prompt) :
    ∃ shown, t.put p =
      (.ok (p.meaning (lineAt text number)), t.afterPrompts shown text (number + 1)) := by
  obtain ⟨shown, hput⟩ := h.exists_put p
  refine ⟨[shown], ?_⟩
  rw [hput, afterAnswer_of_input hinput, hinput, splitLine_behindSegments, answerOf,
    Text.Utf8.text?_map_some]
  simp [Terminal.afterPrompts, lineAt, Except.map]

/-- Prompts take as many segments as lines that are read, whichever prompts they are. -/
theorem CanAsk.exists_putAll_of_input (h : t.CanAsk)
    (hinput : t.input = (Text.behindSegments text number).map some) (prompts : List Prompt) :
    ∃ shown, t.putAll prompts = t.afterPrompts shown text (number + prompts.length) := by
  induction prompts generalizing t number with
  | nil => exact ⟨[], (afterPrompts_nil hinput).symm⟩
  | cons p prompts ih =>
    obtain ⟨first, hput⟩ := h.exists_put_of_input hinput p
    obtain ⟨shown, hall⟩ := ih (h.afterPrompts first text (number + 1)) rfl
    refine ⟨first ++ shown, ?_⟩
    show (t.put p).2.putAll prompts = _
    rw [hput, hall, afterPrompts_afterPrompts, List.length_cons, Nat.add_assoc, Nat.add_comm 1]

/-- Each read returns the next segment of the text that the input serves, without the carriage
returns at its end; what was read and what is left are always the whole text.  Once nothing is left,
which is so at the latest behind the segment that follows the last line feed, every read finds an
empty line and changes nothing; a last line without line feed is read once before that.  Prompts of
either kind read in the same way. -/
theorem reads_partition {text : String} {t : Terminal} (hread : t.faults.read = none)
    (hinput : t.input = text.toList.map some) (n : Nat) :
    let s := t.readLines n
    s.1 = (List.range n).map (fun i => .ok (lineAt text i)) ∧
    ((List.range n).flatMap (Text.segmentWithEnd text)).map some ++ s.2.input = t.input ∧
    (s.2.input = [] → ∀ m, s.2.readLines m = (List.replicate m (.ok ""), s.2)) ∧
    (text.toList.count '\n' < n → s.2.input = []) ∧
    (∀ line, '\n' ∉ line → s.2.input = line.map some → ∀ m, s.2.readLines (m + 1) =
      (.ok (stripReturns (String.ofList line)) :: List.replicate m (.ok ""),
        { s.2 with input := [] })) ∧
    (t.CanAsk → ∀ prompts, prompts.length = n → ∀ p,
      (t.putAll prompts).input = s.2.input ∧
      ((t.putAll prompts).put p).1 = .ok (p.meaning (lineAt text n)) ∧
      ((t.putAll prompts).put p).2.input = s.2.readLine.2.input) := by
  intro s
  have hstart : t.input = (Text.behindSegments text 0).map some := by
    rw [hinput, Text.behindSegments_zero]
  have hs : s = ((List.range n).map fun i => .ok (lineAt text i),
      { t with input := (Text.behindSegments text n).map some }) := by
    simpa using readLines_eq hread hstart n
  have hleft : s.2.input = (Text.behindSegments text n).map some := by rw [hs]
  have hreads : s.2.faults.read = none := by rw [hs]; exact hread
  refine ⟨by rw [hs], ?_, fun hnil => readLines_of_input_eq_nil hreads hnil, fun hcount => ?_,
    fun line hline hlast => readLines_of_last hreads hline hlast, ?_⟩
  · rw [hleft, ← List.map_append, Text.flatMap_segmentWithEnd_append, hinput]
  · rw [hleft, Text.behindSegments_of_count_lt hcount, List.map_nil]
  · rintro hcan prompts rfl p
    obtain ⟨shown, hall⟩ := hcan.exists_putAll_of_input hstart prompts
    rw [Nat.zero_add] at hall
    obtain ⟨more, hput⟩ :=
      (hcan.afterPrompts shown text prompts.length).exists_put_of_input rfl p
    rw [hall, hput, readLine_of_input hreads hleft, hleft]
    exact ⟨rfl, rfl, rfl⟩

/-- Runs of carriage returns, an empty line and a last line without line feed; the second segment
is the password that is asked for after a question. -/
theorem reads_partition_returns :
    let text := "a\r\r\nsecret\r\n\nlast\r"
    let t := Terminal.ofInput text
    let s := t.readLines 3
    t.faults.read = none ∧ t.input = text.toList.map some ∧
      s.1 = [.ok "a", .ok "secret", .ok ""] ∧ s.2.input = "last\r".toList.map some ∧
      s.2.readLines 3 = ([.ok "last", .ok "", .ok ""], { s.2 with input := [] }) ∧
      t.CanAsk ∧
      ((t.putAll [.question "Really?"]).put (.secret "Password")).1 = .ok "secret" := by
  intro text t s
  have hcan : t.CanAsk := ⟨rfl, rfl, rfl, rfl⟩
  have hinput : t.input = text.toList.map some := rfl
  obtain ⟨hanswers, -, -, -, hlast, -⟩ := reads_partition hcan.readable hinput 3
  obtain ⟨-, -, -, -, -, hprompts⟩ := reads_partition hcan.readable hinput 1
  have hleft : s.2.input = "last\r".toList.map some := by decide
  refine ⟨hcan.readable, hinput, hanswers.trans (by decide), hleft, ?_, hcan, ?_⟩
  · exact (hlast "last\r".toList (by decide) hleft 2).trans rfl
  · obtain ⟨-, hsecret, -⟩ := hprompts hcan [.question "Really?"] rfl (.secret "Password")
    exact hsecret.trans (by decide)

end Terminal

end PlatformAdmin
