import PlatformAdmin.Proofs.Json.Reading
import PlatformAdmin.Proofs.Json.Records
import PlatformAdmin.Proofs.Replies

/-!
# What is said of a refusal

A server that refuses a request may list errors, each with a detail.  The list is read as a whole:
if every entry can be read, the first detail that is not empty is said of the refusal, but a single
entry that cannot be read, such as one whose detail is null, loses the details of all others.  Then,
as for a body that is no JSON, the reason phrase of the status is said.
`PlatformClient.refusals_described` states this of every refusal.
-/

set_option autoImplicit false

namespace PlatformAdmin

variable {σ : Type}

/-! ## Errors in a list -/

/-- An entry of a list of errors that can be read, with its detail; without one it is empty. -/
inductive Json.SaysDetail : Json → String → Prop
  | nothing {v : Json} (record : v.IsRecord ["detail"] []) : SaysDetail v ""
  | detail {v : Json} {detail : String}
      (record : v.IsRecord ["detail"] [("detail", .ofText detail)]) : SaysDetail v detail
  | emptyRow : SaysDetail (.array []) ""
  | row {detail : String} : SaysDetail (.array [.ofText detail]) detail

/-- A body that lists errors. -/
def Json.ListsErrors (entries : List Json) (body : List UInt8) : Prop :=
  ∃ v : Json, v.IsText (Text.Utf8.decode body) ∧ v.IsRecord ["errors"] [("errors", .array entries)]

/-- A value is text exactly if it is a text. -/
theorem Json.text?_eq_some_iff {v : Json} {text : String} :
    v.text? = some text ↔ v = .ofText text := by
  constructor
  · intro h
    cases v with
    | string written => exact congrArg Json.string h
    | _ => cases h
  · rintro rfl
    rfl

namespace PlatformClient

/-- A detail that is said is read. -/
theorem errorDetail?_of_saysDetail {v : Json} {detail : String} (h : v.SaysDetail detail) :
    errorDetail? v = some detail := by
  unfold errorDetail?
  cases h with
  | nothing record | detail record =>
    rw [Json.record?_of_isRecord record]
    rfl
  | emptyRow | row => rfl

/-- A detail that is read is said. -/
theorem saysDetail_of_errorDetail? {v : Json} {detail : String} (h : errorDetail? v = some detail) :
    v.SaysDetail detail := by
  unfold errorDetail? at h
  obtain ⟨fields, hfields, h⟩ := Option.bind_eq_some_iff.mp h
  split at h
  · rename_i field
    cases field with
    | none =>
      obtain rfl := Option.some.inj h
      obtain hrecord | rfl := Json.isRecord_of_record? hfields
      · exact .nothing hrecord
      · exact .emptyRow
    | some v =>
      obtain rfl := Json.text?_eq_some_iff.mp h
      obtain hrecord | rfl := Json.isRecord_of_record? hfields
      · exact .detail hrecord
      · exact .row
  · cases h

/-- A detail that is null, or anything else but a text, cannot be read. -/
theorem not_saysDetail {v field : Json} (h : v.IsRecord ["detail"] [("detail", field)])
    (hfield : ∀ text, field ≠ .ofText text) (detail : String) : ¬v.SaysDetail detail := by
  intro hsays
  have hread : errorDetail? v = field.text? := by
    rw [errorDetail?, Json.record?_of_isRecord h]
    rfl
  rw [errorDetail?_of_saysDetail hsays] at hread
  exact hfield detail (Json.text?_eq_some_iff.mp hread.symm)

/-! ## Descriptions -/

/-- What is said of a refusal for which no detail is given. -/
def usualText (status : Nat) : String :=
  (Http.reason? status).getD "unexpected response"

/-- The text of a refusal is the first detail that is not empty, and else the usual one for the
status. -/
theorem refusalText_eq (status : Nat) (body : List UInt8) :
    refusalText status body =
      ((((Json.ofBytes? body).bind errorDetails?).getD []).find? (· != "")).getD
        (usualText status) := by
  dsimp only [refusalText]
  split
  · rename_i hdetail
    rw [hdetail, Option.getD_some]
  · rename_i hnone
    rw [hnone]
    rfl

/-- The details of a body are those of its errors, if all of them can be read. -/
theorem errorDetails?_of_listsErrors {entries : List Json} {body : List UInt8}
    (h : Json.ListsErrors entries body) :
    (Json.ofBytes? body).bind errorDetails? = entries.mapM errorDetail? := by
  obtain ⟨v, htext, hrecord⟩ := h
  rw [Json.ofBytes?, Json.read?_eq_some_iff.mpr htext, Option.bind_some, errorDetails?,
    Json.record?_of_isRecord hrecord]
  rfl

/-- What is said of a refusal, by the status and the body of the reply. -/
structure Describes (description : String) (status : Nat) (body : List UInt8) : Prop where
  /-- The first detail is said that is not empty, if all entries can be read. -/
  of_readable : ∀ entries details, Json.ListsErrors entries body →
    List.Forall₂ Json.SaysDetail entries details →
      description = (details.find? (· != "")).getD (usualText status)
  /-- One entry that cannot be read loses all details. -/
  of_unreadable : ∀ entries, Json.ListsErrors entries body →
    (∃ entry ∈ entries, ∀ detail, ¬entry.SaysDetail detail) → description = usualText status
  of_noJson : (∀ v : Json, ¬v.IsText (Text.Utf8.decode body)) → description = usualText status

/-- The text of a refusal describes it as the platform means it. -/
theorem describes_refusalText (status : Nat) (body : List UInt8) :
    Describes (refusalText status body) status body where
  of_readable entries details hlists hdetails := by
    have hread : entries.mapM errorDetail? = some details :=
      Json.mapM_eq_some_iff.mpr (hdetails.imp fun _ _ => errorDetail?_of_saysDetail)
    rw [refusalText_eq, errorDetails?_of_listsErrors hlists, hread, Option.getD_some]
  of_unreadable entries hlists hentry := by
    obtain ⟨entry, hmem, hunreadable⟩ := hentry
    have hentry : errorDetail? entry = none :=
      Option.eq_none_iff_forall_ne_some.mpr fun detail h =>
        hunreadable detail (saysDetail_of_errorDetail? h)
    rw [refusalText_eq, errorDetails?_of_listsErrors hlists, Json.mapM_eq_none_of_mem hmem hentry]
    rfl
  of_noJson hnone := by
    rw [refusalText_eq, Json.ofBytes?, Json.read?_eq_none_iff.mpr hnone]
    rfl

/-- What is said of a request that the server refuses. -/
theorem refusals_described (c : PlatformClient) (call : Call) (net : Http.Network σ) (remote : σ)
    (head : Http.Head) (body : List UInt8) (hgets : c.Gets net call remote head body)
    (hfailure : head.status / 100 ≠ 2) (hfound : head.status ≠ 404)
    (hauthorized : head.status ≠ 401) :
    ∃ description,
      (c.answer net call remote).1.outcome = .error (.refused head.status description) ∧
        Describes description head.status body := by
  refine ⟨refusalText head.status body, ?_, describes_refusalText head.status body⟩
  rw [answer_eq_of_gets hgets]
  change outcomeOf (reading call) head.status body = _
  rw [outcomeOf, if_neg (Http.isSuccess_iff.not.mpr hfailure), if_neg hfound, if_neg hauthorized]

/-- An entry without a detail is passed over. -/
theorem refusals_described_detail :
    let body := Text.Utf8.encode
      "\x7b\"errors\":[\x7b\"code\":1\x7d,\x7b\"detail\":\"n\\u006f\",\"title\":null\x7d]\x7d"
    let entries : List Json :=
      [.ofMembers [("code", .number "1")], .ofMembers [("detail", .ofText "no"), ("title", .null)]]
    let head : Http.Head := ⟨422, []⟩
    let net : Http.Network Unit := { deliver := fun _ _ => (.whole head body, ()) }
    let c := ofSession "http://h" "t" none false
    let call := Call.deleteUser ⟨"g-1", "ann"⟩
    c.Gets net call () head body ∧
      (head.status / 100 ≠ 2 ∧ head.status ≠ 404 ∧ head.status ≠ 401) ∧
      Json.ListsErrors entries body ∧ List.Forall₂ Json.SaysDetail entries ["", "no"] ∧
      (c.answer net call ()).1.outcome = .error (.refused 422 "no") := by
  intro body entries head net c call
  have hgets : c.Gets net call () head body := gets_of_isSome (by decide +kernel) fun _ => rfl
  have hlists : Json.ListsErrors entries body := by
    refine ⟨.ofMembers [("errors", .array entries)], ?_, _, [], rfl, .refl _, nofun⟩
    rw [← Json.read?_eq_some_iff]
    simp only [body, entries]
    rfl
  have hdetails : List.Forall₂ Json.SaysDetail entries ["", "no"] := by
    refine .cons (.nothing ⟨_, [("code", _)], rfl, .refl _, by decide⟩) (.cons ?_ .nil)
    exact .detail ⟨_, [("title", _)], rfl, .refl _, by decide⟩
  obtain ⟨description, houtcome, hdescribes⟩ :=
    refusals_described c call net () head body hgets (by decide) (by decide) (by decide)
  refine ⟨hgets, by decide, hlists, hdetails, ?_⟩
  rw [houtcome, hdescribes.of_readable entries _ hlists hdetails]
  rfl

/-- A detail that is null loses the detail of the entry behind it. -/
theorem refusals_described_detail_lost :
    let body := Text.Utf8.encode
      "\x7b\"errors\":[\x7b\"detail\":null\x7d,\x7b\"detail\":\"no\"\x7d]\x7d"
    let silent : Json := .ofMembers [("detail", .null)]
    let saying : Json := .ofMembers [("detail", .ofText "no")]
    let head : Http.Head := ⟨422, []⟩
    let net : Http.Network Unit := { deliver := fun _ _ => (.whole head body, ()) }
    let c := ofSession "http://h" "t" none false
    let call := Call.deleteUser ⟨"g-1", "ann"⟩
    c.Gets net call () head body ∧ Json.ListsErrors [silent, saying] body ∧
      (∀ detail, ¬silent.SaysDetail detail) ∧ saying.SaysDetail "no" ∧
      (c.answer net call ()).1.outcome = .error (.refused 422 "Unprocessable Entity") := by
  intro body silent saying head net c call
  have hgets : c.Gets net call () head body := gets_of_isSome (by decide +kernel) fun _ => rfl
  have hlists : Json.ListsErrors [silent, saying] body := by
    refine ⟨.ofMembers [("errors", .array [silent, saying])], ?_, _, [], rfl, .refl _, nofun⟩
    rw [← Json.read?_eq_some_iff]
    simp only [body, silent, saying]
    rfl
  have hsilent : ∀ detail, ¬silent.SaysDetail detail :=
    not_saysDetail ⟨_, [], rfl, .refl _, nofun⟩ (fun _ => nofun)
  have hsays : saying.SaysDetail "no" := .detail ⟨_, [], rfl, .refl _, nofun⟩
  exact ⟨hgets, hlists, hsilent, hsays, by decide +kernel⟩

end PlatformClient

end PlatformAdmin
