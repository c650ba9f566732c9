import PlatformAdmin.Proofs.Consent
import PlatformAdmin.Proofs.Decoding
import PlatformAdmin.Proofs.Replies

/-!
# Lists of warnings

The platform lists warnings in headers of one name, joined with commas.  `CarriedBy` says how
headers carry a list of warnings: spread over any number of them, with blanks around the warnings
and nothing between some of the commas.  To split undoes this: `warningsOf_of_carriedBy`.  What was
split can be joined and split again.

A value is split only if all of it is text.  So a warning keeps its place whatever the other values
hold, `warningsOfValue_at`, but one byte that is no text silences the whole value in which it
stands, `warningsOfValue_of_odd`.
-/

set_option autoImplicit false

namespace PlatformAdmin

variable {σ : Type}

namespace Http

/-! ## Text in headers -/

/-- A character that the value of a header can hold as text: a visible ASCII character, a space or a
tab. -/
def IsTextChar (c : Char) : Prop :=
  c = '\t' ∨ 0x20 ≤ c.toNat ∧ c.toNat < 0x7F

instance (c : Char) : Decidable (IsTextChar c) :=
  inferInstanceAs (Decidable (_ ∨ _))

/-- A character that a header can hold is ASCII: UTF-8 writes it as one byte, that of its number. -/
theorem utf8EncodeChar_of_isTextChar {c : Char} (h : IsTextChar c) :
    String.utf8EncodeChar c = [UInt8.ofNat c.toNat] ∧ c.toNat < 0x7F := by
  have hlt : c.toNat < 0x7F := by
    obtain rfl | ⟨-, hlt⟩ := h
    · decide
    · exact hlt
  have hval : c.val.toNat = c.toNat := rfl
  refine ⟨?_, hlt⟩
  unfold String.utf8EncodeChar
  simp only [hval]
  rw [if_pos (by omega)]

/-- A byte is text in a header just if its character can stand in one. -/
theorem isTextByte_iff {b : UInt8} :
    isTextByte b = true ↔ IsTextChar (Char.ofNat b.toNat) := by
  have hall : ∀ n < 256, isTextByte (UInt8.ofNat n) = true ↔ IsTextChar (Char.ofNat n) := by
    decide +kernel
  have hb := hall b.toNat b.toNat_lt
  rwa [UInt8.ofNat_toNat] at hb

/-- Text is read from a header as it was written. -/
theorem headerText?_encode {text : String} (h : ∀ c ∈ text.toList, IsTextChar c) :
    headerText? (Text.Utf8.encode text) = some text.toList := by
  have hread : ∀ s : List Char, (∀ c ∈ s, IsTextChar c) →
      headerText? (s.flatMap String.utf8EncodeChar) = some s := by
    intro s
    induction s with
    | nil => exact fun _ => rfl
    | cons c s ih =>
      intro hs
      obtain ⟨hbytes, hlt⟩ := utf8EncodeChar_of_isTextChar (hs c List.mem_cons_self)
      have hbyte : Char.ofNat (UInt8.ofNat c.toNat).toNat = c := by
        rw [Text.Utf8.toNat_ofNat_of_lt (by omega), Char.ofNat_toNat]
      have htext : isTextByte (UInt8.ofNat c.toNat) = true := by
        rw [isTextByte_iff, hbyte]
        exact hs c List.mem_cons_self
      have hrest := ih fun d hd => hs d (List.mem_cons_of_mem c hd)
      rw [headerText?, Option.ite_none_right_eq_some] at hrest
      rw [headerText?, List.flatMap_cons, hbytes, List.singleton_append, List.all_cons, htext,
        Bool.true_and, if_pos hrest.1, List.map_cons, hbyte, Option.some.inj hrest.2]
  exact hread text.toList h

/-- The text of a header holds only characters that can stand in one. -/
theorem isTextChar_of_headerText? {value : List UInt8} {s : List Char}
    (h : headerText? value = some s) : ∀ c ∈ s, IsTextChar c := by
  rw [headerText?, Option.ite_none_right_eq_some] at h
  obtain ⟨hall, hs⟩ := h
  obtain rfl := Option.some.inj hs
  intro c hc
  obtain ⟨b, hb, rfl⟩ := List.mem_map.mp hc
  exact isTextByte_iff.mp (List.all_eq_true.mp hall b hb)

end Http

/-! ## Warnings, joined with commas -/

/-- What can stand between two commas in a header. -/
def IsPiece (s : List Char) : Prop :=
  ∀ c ∈ s, Http.IsTextChar c ∧ c ≠ ','

instance (s : List Char) : Decidable (IsPiece s) :=
  List.decidableBAll (fun c => Http.IsTextChar c ∧ c ≠ ',') s

/-- A text that can be a warning in a list: it is not empty, has no comma in it and no blanks at its
ends, and a header can hold it. -/
structure IsWarning (w : String) : Prop where
  ne_empty : w ≠ ""
  isPiece : IsPiece w.toList
  trimmed : Text.trim w = w

instance (w : String) : Decidable (IsWarning w) :=
  decidable_of_iff (w ≠ "" ∧ IsPiece w.toList ∧ Text.trim w = w)
    ⟨fun h => ⟨h.1, h.2.1, h.2.2⟩, fun h => ⟨h.ne_empty, h.isPiece, h.trimmed⟩⟩

/-- Spaces and tabs. -/
def IsPadding (b : List Char) : Prop :=
  ∀ c ∈ b, c = ' ' ∨ c = '\t'

instance (b : List Char) : Decidable (IsPadding b) :=
  List.decidableBAll (fun c => c = ' ' ∨ c = '\t') b

/-- Warnings are joined with commas: each may have blanks around it, and there may be nothing but
blanks between two commas or at an end. -/
inductive Joined : List String → List Char → Prop
  | nothing {b : List Char} (blanks : IsPadding b) : Joined [] b
  | warning {w : String} {b a : List Char} (isWarning : IsWarning w) (before : IsPadding b)
      (behind : IsPadding a) : Joined [w] (b ++ (w.toList ++ a))
  | comma {ws ws' : List String} {s s' : List Char} (left : Joined ws s) (right : Joined ws' s') :
      Joined (ws ++ ws') (s ++ ',' :: s')

/-- Headers carry warnings: those of the name for it, in any case of its letters, hold a share each,
in order, and other headers may stand between them. -/
inductive CarriedBy : List String → List (String × List UInt8) → Prop
  | nothing : CarriedBy [] []
  | other {name : String} {value : List UInt8} {ws : List String}
      {headers : List (String × List UInt8)}
      (otherName : Text.lowerAscii name.toList ≠ "x-cf-warnings".toList)
      (others : CarriedBy ws headers) : CarriedBy ws ((name, value) :: headers)
  | share {name : String} {s : List Char} {ws ws' : List String}
      {headers : List (String × List UInt8)}
      (sameName : Text.lowerAscii name.toList = "x-cf-warnings".toList) (joined : Joined ws s)
      (others : CarriedBy ws' headers) :
      CarriedBy (ws ++ ws') ((name, Text.Utf8.encode (String.ofList s)) :: headers)

/-- Padding is blank. -/
theorem IsPadding.isBlank {b : List Char} (h : IsPadding b) : ∀ c ∈ b, Text.isBlank c = true := by
  intro c hc
  obtain rfl | rfl := h c hc <;> decide

/-- Padding can stand between two commas. -/
theorem IsPadding.isPiece {b : List Char} (h : IsPadding b) : IsPiece b := by
  intro c hc
  obtain rfl | rfl := h c hc <;> decide

/-- Nothing is padding. -/
theorem isPadding_nil : IsPadding [] := nofun

namespace IsPiece

variable {s s' : List Char}

/-- What stands between commas is text that a header can hold. -/
theorem isTextChar (h : IsPiece s) : ∀ c ∈ s, Http.IsTextChar c :=
  fun c hc => (h c hc).1

/-- What stands between commas has no comma. -/
theorem comma_not_mem (h : IsPiece s) : ',' ∉ s :=
  fun hmem => (h _ hmem).2 rfl

/-- Two such pieces, one behind the other, are such a piece. -/
theorem append (h : IsPiece s) (h' : IsPiece s') : IsPiece (s ++ s') := by
  intro c hc
  obtain hc | hc := List.mem_append.mp hc
  · exact h c hc
  · exact h' c hc

end IsPiece

namespace Joined

variable {ws : List String} {s : List Char}

/-- Joined warnings are text that a header can hold. -/
theorem isTextChar (h : Joined ws s) : ∀ c ∈ s, Http.IsTextChar c := by
  induction h with
  | nothing blanks => exact blanks.isPiece.isTextChar
  | warning isWarning before behind =>
    exact (before.isPiece.append (isWarning.isPiece.append behind.isPiece)).isTextChar
  | comma left right ihleft ihright =>
    intro c hc
    rw [List.mem_append, List.mem_cons] at hc
    obtain hc | rfl | hc := hc
    · exact ihleft c hc
    · decide
    · exact ihright c hc

/-- The plain way to join warnings. -/
theorem of_intercalate (h : ∀ w ∈ ws, IsWarning w) : Joined ws (",".intercalate ws).toList := by
  have hplain : ∀ w, IsWarning w → Joined [w] w.toList := by
    intro w hw
    have hjoined := Joined.warning hw isPadding_nil isPadding_nil
    rwa [List.nil_append, List.append_nil] at hjoined
  induction ws with
  | nil => exact .nothing isPadding_nil
  | cons w ws ih =>
    have hw := hplain w (h w List.mem_cons_self)
    cases ws with
    | nil => simpa using hw
    | cons w' ws =>
      have hjoined := Joined.comma hw (ih fun u hu => h u (List.mem_cons_of_mem w hu))
      rw [String.intercalate_cons_cons, String.toList_append, String.toList_append]
      simpa using hjoined

end Joined

namespace PlatformClient

variable {ws : List String} {s : List Char}

/-! ## Splitting -/

/-- At a comma the list of warnings falls into those before it and those behind it. -/
theorem warningsIn_append (s s' : List Char) :
    warningsIn (s ++ ',' :: s') = warningsIn s ++ warningsIn s' := by
  have hcomma : (',' == ',') = true := rfl
  rw [warningsIn, Url.splitWhere_append (p := (· == ',')) hcomma, List.map_append,
    List.filterMap_append, ← warningsIn, ← warningsIn]

/-- What stands between two commas is one warning, or none if it is blank. -/
theorem warningsIn_of_isPiece {text : String} (h : IsPiece text.toList) :
    warningsIn text.toList = if Text.trim text = "" then [] else [Text.trim text] := by
  have hwhole : ∀ c ∈ text.toList, (c == ',') = false := by
    intro c hc
    exact beq_eq_false_iff_ne.mpr (h c hc).2
  rw [warningsIn, Url.splitWhere_of_forall hwhole, Text.trim]
  cases htrimmed : Text.dropAround Text.isBlank text.toList with
  | nil => simp [htrimmed]
  | cons c rest => simp [htrimmed]

/-- The warnings read from a list are those that were joined. -/
theorem warningsIn_of_joined (h : Joined ws s) : warningsIn s = ws := by
  induction h with
  | @nothing b blanks =>
    have hpiece : IsPiece (String.ofList b).toList := by
      rw [String.toList_ofList]
      exact blanks.isPiece
    have hnothing := warningsIn_of_isPiece hpiece
    rw [String.toList_ofList, Text.trim, String.toList_ofList,
      Text.dropAround_of_all blanks.isBlank, if_pos rfl] at hnothing
    exact hnothing
  | @warning w b a isWarning before behind =>
    have hpiece : IsPiece (String.ofList (b ++ (w.toList ++ a))).toList := by
      rw [String.toList_ofList]
      exact before.isPiece.append (isWarning.isPiece.append behind.isPiece)
    have hone := warningsIn_of_isPiece hpiece
    rw [String.toList_ofList, Text.trim, String.toList_ofList,
      Text.dropAround_append before.isBlank behind.isBlank, ← Text.trim, isWarning.trimmed,
      if_neg isWarning.ne_empty] at hone
    exact hone
  | comma left right ihleft ihright => rw [warningsIn_append, ihleft, ihright]

/-- The warnings in one value of the header. -/
def warningsOfValue (value : List UInt8) : List String :=
  match Http.headerText? value with
  | some text => warningsIn text
  | none => []

/-- The warnings of a head are those of each value of the header, one value after the other. -/
theorem warningsOf_eq (head : Http.Head) :
    warningsOf head = (head.values warningHeader).flatMap warningsOfValue :=
  rfl

/-- The warnings of a value are those that were joined in it. -/
theorem warningsOfValue_of_joined (h : Joined ws s) :
    warningsOfValue (Text.Utf8.encode (String.ofList s)) = ws := by
  have htext : ∀ c ∈ (String.ofList s).toList, Http.IsTextChar c := by
    rw [String.toList_ofList]
    exact h.isTextChar
  rw [warningsOfValue, Http.headerText?_encode htext, String.toList_ofList]
  exact warningsIn_of_joined h

/-- The warnings of a head are those that its headers carry. -/
theorem warningsOf_of_carriedBy {headers : List (String × List UInt8)}
    (h : CarriedBy ws headers) (status : Nat) : warningsOf ⟨status, headers⟩ = ws := by
  have hlower : Text.lowerAscii warningHeader.toList = "x-cf-warnings".toList := by decide
  induction h with
  | nothing => rfl
  | @other name value ws headers otherName others ih =>
    have hname : Text.equalsIgnoringCase name warningHeader = false := by
      rw [Text.equalsIgnoringCase, hlower, beq_eq_false_iff_ne]
      exact otherName
    rw [← ih, warningsOf_eq, warningsOf_eq, Http.Head.values, Http.Head.values,
      List.filterMap_cons_none (by rw [hname]; rfl)]
  | @share name s ws ws' headers sameName joined others ih =>
    have hname : Text.equalsIgnoringCase name warningHeader = true := by
      rw [Text.equalsIgnoringCase, hlower, beq_iff_eq]
      exact sameName
    rw [← ih, warningsOf_eq, warningsOf_eq, Http.Head.values, Http.Head.values,
      List.filterMap_cons_some (by rw [if_pos hname]), List.flatMap_cons,
      warningsOfValue_of_joined joined]

/-- Whatever the headers are, what is taken from them are warnings. -/
theorem isWarning_of_mem_warningsOf {head : Http.Head} {w : String} (h : w ∈ warningsOf head) :
    IsWarning w := by
  rw [warningsOf_eq, List.mem_flatMap] at h
  obtain ⟨value, -, hw⟩ := h
  cases htext : Http.headerText? value with
  | none =>
    rw [warningsOfValue, htext] at hw
    cases hw
  | some s =>
    rw [warningsOfValue, htext] at hw
    obtain ⟨trimmed, htrimmed, hsome⟩ := List.mem_filterMap.mp hw
    obtain ⟨piece, hpiece, rfl⟩ := List.mem_map.mp htrimmed
    have hchars := Url.mem_of_mem_splitWhere hpiece
    rw [Option.ite_none_left_eq_some] at hsome
    obtain ⟨hne, hsome⟩ := hsome
    obtain rfl := Option.some.inj hsome
    refine ⟨?_, ?_, ?_⟩
    · rintro hempty
      apply hne
      rw [← String.toList_ofList (l := Text.dropAround _ _), hempty]
      rfl
    · intro c hc
      rw [String.toList_ofList] at hc
      obtain ⟨hmem, hcomma⟩ := hchars c ((Text.dropAround_sublist _ _).subset hc)
      exact ⟨Http.isTextChar_of_headerText? htext c hmem, beq_eq_false_iff_ne.mp hcomma⟩
    · rw [Text.trim, String.toList_ofList, Text.dropAround_dropAround]

/-- Whatever list of warnings headers carry is taken from them.  Whatever is taken from headers are
warnings without commas or blanks at their ends, and the same are taken once they are joined
again. -/
theorem warnings_split_as_joined :
    (∀ ws head, CarriedBy ws head.headers → warningsOf head = ws) ∧
      ∀ head : Http.Head,
        (∀ w ∈ warningsOf head, w ≠ "" ∧ Text.trim w = w ∧ ',' ∉ w.toList) ∧
        ∀ status, warningsOf ⟨status,
          [(warningHeader, Text.Utf8.encode (",".intercalate (warningsOf head)))]⟩ =
            warningsOf head := by
  refine ⟨fun ws head h => warningsOf_of_carriedBy h head.status, fun head => ⟨?_, ?_⟩⟩
  · intro w hw
    have hwarning := isWarning_of_mem_warningsOf hw
    exact ⟨hwarning.ne_empty, hwarning.trimmed, hwarning.isPiece.comma_not_mem⟩
  · intro status
    have hjoined : Joined (warningsOf head) (",".intercalate (warningsOf head)).toList :=
      .of_intercalate fun w hw => isWarning_of_mem_warningsOf hw
    have hcarried : CarriedBy (warningsOf head ++ []) [(warningHeader,
        Text.Utf8.encode (String.ofList (",".intercalate (warningsOf head)).toList))] :=
      .share (by decide) hjoined .nothing
    rw [List.append_nil, String.ofList_toList] at hcarried
    exact warningsOf_of_carriedBy hcarried status

/-- Three warnings in two headers, with blanks, with nothing between two commas and with another
header between the two. -/
theorem warnings_split_as_joined_spread :
    let head : Http.Head := ⟨422, [("x-CF-warnings", Text.Utf8.encode " late,\t,so slow ,"),
      ("Date", [0xFF]), ("X-CF-WARNINGS", Text.Utf8.encode "x")]⟩
    CarriedBy ["late", "so slow", "x"] head.headers ∧
      warningsOf head = ["late", "so slow", "x"] := by
  intro head
  have hlate : IsWarning "late" := by decide
  have hslow : IsWarning "so slow" := by decide
  have hx : IsWarning "x" := by decide
  have hspace : IsPadding [' '] := by decide
  have htab : IsPadding ['\t'] := by decide
  have hfirst : Joined ["late", "so slow"] " late,\t,so slow ,".toList :=
    .comma (.warning hlate hspace isPadding_nil)
      (.comma (.nothing htab)
        (.comma (.warning hslow isPadding_nil hspace) (.nothing isPadding_nil)))
  have hsecond : Joined ["x"] "x".toList := .warning hx isPadding_nil isPadding_nil
  have hcarried : CarriedBy ["late", "so slow", "x"] head.headers :=
    .share (by decide) hfirst (.other (by decide) (.share (by decide) hsecond .nothing))
  exact ⟨hcarried, warnings_split_as_joined.1 _ head hcarried⟩

end PlatformClient

/-! ## Replies and their heads -/

/-- What a reply begins with, if there is one. -/
def Http.Delivery.head? : Http.Delivery → Option Http.Head
  | .lost => none
  | .brokenOff head => some head
  | .whole head _ => some head

namespace PlatformClient

/-- A request was sent for a call, and a reply with this head came back, or broke off behind it. -/
def Hears (c : PlatformClient) (net : Http.Network σ) (call : Call) (remote : σ)
    (head : Http.Head) : Prop :=
  ∃ e ∈ c.sent net call remote, e.2.head? = some head

variable {c : PlatformClient} {net : Http.Network σ} {call : Call} {remote : σ} {head : Http.Head}

/-- A reply to a call is heard just if a request is sent for it and the delivery has that head. -/
theorem hears_iff : c.Hears net call remote head ↔
    ∃ request, c.requestFor? net call = some request ∧
      (net.deliver request remote).1.head? = some head := by
  constructor
  · rintro ⟨e, he, hhead⟩
    obtain ⟨hrequest, hdelivery⟩ := mem_sent_iff.mp he
    rw [← hdelivery] at hhead
    exact ⟨e.1, hrequest, hhead⟩
  · rintro ⟨request, hrequest, hhead⟩
    exact ⟨(request, _), mem_sent_iff.mpr ⟨hrequest, rfl⟩, hhead⟩

/-- A reply that came in full was heard. -/
theorem Gets.hears {body : List UInt8} (h : c.Gets net call remote head body) :
    c.Hears net call remote head := by
  obtain ⟨request, hsent⟩ := h
  exact ⟨_, hsent, rfl⟩

/-- The warnings of a response are those of the head, also where the body did not come. -/
theorem warnings_responseOf {α : Type} {read : List UInt8 → Outcome α} {delivery : Http.Delivery}
    (h : delivery.head? = some head) : (responseOf read delivery).warnings = warningsOf head := by
  cases delivery with
  | lost => cases h
  | brokenOff | whole =>
    obtain rfl := Option.some.inj h
    rfl

/-- The warnings of an exchange are those of the head that was delivered. -/
theorem exchange_warnings_of_head {α : Type} {read : List UInt8 → Outcome α}
    {sent : Except PlatformError Http.Request} {request : Http.Request}
    (hsent : sent.toOption = some request)
    (hhead : (net.deliver request remote).1.head? = some head) :
    (exchange net sent read remote).1.warnings = warningsOf head := by
  rw [exchange_of_request hsent]
  exact warnings_responseOf hhead

/-- The warnings come from the head of a reply, whatever else becomes of it. -/
theorem warnings_of_hears (h : c.Hears net call remote head) :
    (c.answer net call remote).1.warnings = warningsOf head := by
  obtain ⟨request, hrequest, hhead⟩ := hears_iff.mp h
  cases call with
  | currentUser => cases hrequest
  | findUser username =>
    change (exchange net _ (firstResource ListedUser.ofJson?) remote).1.warnings = _
    exact exchange_warnings_of_head hrequest hhead
  | deleteUser user => exact exchange_warnings_of_head hrequest hhead
  | findBroker name => exact exchange_warnings_of_head hrequest hhead
  | updateBroker guid update => exact exchange_warnings_of_head hrequest hhead

/-! ## Odd bytes -/

/-- A value with a byte that is no text holds no warnings. -/
theorem warningsOfValue_of_odd {value : List UInt8} (h : value.all Http.isTextByte = false) :
    warningsOfValue value = [] := by
  rw [warningsOfValue, Http.headerText?, if_neg (by rw [h]; decide)]

/-- The warnings of two values that a comma joins are those of the first, then those of the
second. -/
theorem warningsOfValue_append {left right : List UInt8} (hleft : left.all Http.isTextByte = true)
    (hright : right.all Http.isTextByte = true) :
    warningsOfValue (left ++ 0x2C :: right) = warningsOfValue left ++ warningsOfValue right := by
  have hcomma : Http.isTextByte 0x2C = true := by decide
  have hall : (left ++ 0x2C :: right).all Http.isTextByte = true := by
    rw [List.all_append, List.all_cons, hleft, hcomma, hright]
    rfl
  unfold warningsOfValue Http.headerText?
  rw [if_pos hall, if_pos hleft, if_pos hright, List.map_append, List.map_cons]
  exact warningsIn_append _ _

/-- A value that is text all through is split at its commas. -/
theorem warningsOfValue_intercalate {pieces : List (List UInt8)}
    (h : ([0x2C].intercalate pieces).all Http.isTextByte = true) :
    warningsOfValue ([0x2C].intercalate pieces) = pieces.flatMap warningsOfValue := by
  induction pieces with
  | nil => rfl
  | cons piece pieces ih =>
    cases pieces with
    | nil => simp
    | cons next others =>
      rw [List.intercalate_cons_cons, List.append_assoc, List.singleton_append] at h ⊢
      rw [List.all_append, List.all_cons, Bool.and_eq_true, Bool.and_eq_true] at h
      obtain ⟨hpiece, -, hrest⟩ := h
      rw [List.flatMap_cons, warningsOfValue_append hpiece hrest, ih hrest]

/-- Values that commas join are text if each of them is. -/
theorem all_isTextByte_intercalate (pieces : List (List UInt8)) :
    ([0x2C].intercalate pieces).all Http.isTextByte =
      pieces.all fun piece => piece.all Http.isTextByte := by
  induction pieces with
  | nil => rfl
  | cons piece pieces ih =>
    cases pieces with
    | nil => simp
    | cons next others =>
      have hcomma : ([0x2C] : List UInt8).all Http.isTextByte = true := by decide
      rw [List.intercalate_cons_cons, List.all_append, List.all_append, hcomma, Bool.and_true, ih]
      rfl

/-- A text without a comma is one warning, without the blanks around it. -/
theorem warningsOfValue_encode {text : String} (hpiece : IsPiece text.toList)
    (hblank : Text.trim text ≠ "") :
    warningsOfValue (Text.Utf8.encode text) = [Text.trim text] := by
  rw [warningsOfValue, Http.headerText?_encode hpiece.isTextChar]
  change warningsIn text.toList = _
  rw [warningsIn_of_isPiece hpiece, if_neg hblank]

/-- What a piece of a value says stands between what the pieces before it and behind it say. -/
theorem warningsOfValue_at {front back : List (List UInt8)} {text : String}
    (hall : ([0x2C].intercalate (front ++ Text.Utf8.encode text :: back)).all
      Http.isTextByte = true)
    (hpiece : IsPiece text.toList) (hblank : Text.trim text ≠ "") :
    warningsOfValue ([0x2C].intercalate (front ++ Text.Utf8.encode text :: back)) =
      warningsOfValue ([0x2C].intercalate front) ++
        Text.trim text :: warningsOfValue ([0x2C].intercalate back) := by
  have hpieces := hall
  rw [all_isTextByte_intercalate, List.all_append, List.all_cons, Bool.and_eq_true,
    Bool.and_eq_true, ← all_isTextByte_intercalate, ← all_isTextByte_intercalate] at hpieces
  obtain ⟨hfront, -, hback⟩ := hpieces
  rw [warningsOfValue_intercalate hall, List.flatMap_append, List.flatMap_cons,
    warningsOfValue_encode hpiece hblank, ← warningsOfValue_intercalate hfront,
    ← warningsOfValue_intercalate hback, List.singleton_append]

/-- A warning in a value that is text all through is passed on in its place, whatever the other
values hold.  A value with one byte that is no text says nothing at all, and the others say what
they would say without it. -/
theorem warnings_of_whole_values (c : PlatformClient) (net : Http.Network σ) (call : Call)
    (remote : σ) (head : Http.Head) (h : c.Hears net call remote head)
    (before after : List (List UInt8)) (value : List UInt8)
    (hvalues : head.values warningHeader = before ++ value :: after) :
    (value.all Http.isTextByte = true → ∀ (front back : List (List UInt8)) (text : String),
      value = [0x2C].intercalate (front ++ Text.Utf8.encode text :: back) →
      IsPiece text.toList → Text.trim text ≠ "" →
      (c.answer net call remote).1.warnings =
        (before ++ [[0x2C].intercalate front]).flatMap warningsOfValue ++
          Text.trim text :: ([0x2C].intercalate back :: after).flatMap warningsOfValue) ∧
      (value.all Http.isTextByte = false →
        (c.answer net call remote).1.warnings = (before ++ after).flatMap warningsOfValue) := by
  have hwarnings : (c.answer net call remote).1.warnings =
      before.flatMap warningsOfValue ++
        (warningsOfValue value ++ after.flatMap warningsOfValue) := by
    rw [warnings_of_hears h, warningsOf_eq, hvalues, List.flatMap_append, List.flatMap_cons]
  constructor
  · rintro hall front back text rfl hpiece hblank
    rw [hwarnings, warningsOfValue_at hall hpiece hblank, List.flatMap_append,
      List.flatMap_singleton,
      List.flatMap_cons, List.append_assoc, List.append_assoc, List.cons_append]
  · intro hodd
    rw [hwarnings, warningsOfValue_of_odd hodd, List.nil_append, List.flatMap_append]

/-- Of two values the one with an odd byte is silent, and the other says all it holds. -/
theorem warnings_of_whole_values_beside :
    let odd : List UInt8 := Text.Utf8.encode "disk full" ++ [0x2C, 0xFF]
    let whole := Text.Utf8.encode "late, slow"
    let head : Http.Head := ⟨204, [("x-cf-warnings", odd), ("x-cf-warnings", whole)]⟩
    let net : Http.Network Unit := { deliver := fun _ _ => (.whole head [], ()) }
    let c := ofSession "http://h" "t" none false
    let call := Call.deleteUser ⟨"g-1", "ann"⟩
    c.Hears net call () head ∧ odd.all Http.isTextByte = false ∧
      (c.answer net call ()).1.warnings = [whole].flatMap warningsOfValue ∧
      whole.all Http.isTextByte = true ∧ (c.answer net call ()).1.warnings = ["late", "slow"] := by
  intro odd whole head net c call
  have hgets : c.Gets net call () head [] := gets_of_isSome (by decide +kernel) fun _ => rfl
  have hhears : c.Hears net call () head := hgets.hears
  have hodd : odd.all Http.isTextByte = false := by decide
  have hwhole : whole.all Http.isTextByte = true := by decide
  have hsilent := (warnings_of_whole_values c net call () head hhears [] [whole] odd
    (by decide)).2 hodd
  have hsaid := (warnings_of_whole_values c net call () head hhears [odd] [] whole
    (by decide)).1 hwhole [Text.Utf8.encode "late"] [] " slow" (by decide) (by decide) (by decide)
  refine ⟨hhears, hodd, hsilent, hwhole, hsaid.trans ?_⟩
  decide +kernel

/-- One odd byte silences a warning that has none. -/
theorem warning_lost_beside_odd_byte :
    let value : List UInt8 := Text.Utf8.encode "disk full" ++ [0x2C, 0xFF]
    let head : Http.Head := ⟨204, [("X-Cf-Warnings", value)]⟩
    let net : Http.Network Unit := { deliver := fun _ _ => (.whole head [], ()) }
    let c := ofSession "http://h" "t" none false
    let call := Call.deleteUser ⟨"g-1", "ann"⟩
    c.Hears net call () head ∧ head.values warningHeader = [value] ∧
      value = [0x2C].intercalate [Text.Utf8.encode "disk full", [0xFF]] ∧
      "disk full" ∉ (c.answer net call ()).1.warnings := by
  intro value head net c call
  have hgets : c.Gets net call () head [] := gets_of_isSome (by decide +kernel) fun _ => rfl
  have hhears : c.Hears net call () head := hgets.hears
  exact ⟨hhears, by decide, by decide, by decide +kernel⟩

end PlatformClient

end PlatformAdmin
