import PlatformAdmin.Proofs.Decoding
import PlatformAdmin.Proofs.Json.Reading
import PlatformAdmin.Proofs.Json.Records
import PlatformAdmin.Proofs.Replies

/-!
# Lists of resources

A lookup is answered with a list of resources.  `Call.Lists` says which answers a JSON value lists,
by its members alone: their order, members that nobody asks for and the way in which the text is
written make no difference.  `PlatformClient.lookup_answers_listed`: the first answer that is listed
is the answer to the lookup.
-/

set_option autoImplicit false

namespace PlatformAdmin

variable {σ : Type}

/-! ## What is listed -/

/-- The members of a user in a list, when this name was asked for. -/
inductive User.Members (requested : String) : User → List (String × Json) → Prop
  | unnamed {guid : String} : Members requested ⟨guid, requested⟩ [("guid", .ofText guid)]
  | null {guid : String} :
      Members requested ⟨guid, requested⟩ [("guid", .ofText guid), ("username", .null)]
  | named {guid username : String} :
      Members requested ⟨guid, username⟩ [("guid", .ofText guid), ("username", .ofText username)]

/-- The members of a service broker in a list. -/
inductive ServiceBroker.Members : ServiceBroker → List (String × Json) → Prop
  | withoutUrl {guid name : String} :
      Members ⟨guid, name, ""⟩ [("guid", .ofText guid), ("name", .ofText name)]
  | withUrl {guid name url : String} :
      Members ⟨guid, name, url⟩
        [("guid", .ofText guid), ("name", .ofText name), ("url", .ofText url)]

/-- A JSON value lists a possible answer to a call as one of its resources. -/
def Call.ListsOne : (call : Call) → call.Answer → Json → Prop
  | .findUser requested, user, v =>
    ∃ members, user.Members requested members ∧ v.IsRecord ["guid", "username"] members
  | .findBroker _, broker, v =>
    ∃ members, broker.Members members ∧ v.IsRecord ["guid", "name", "url"] members
  | _, _, _ => False

/-- A JSON value lists these answers to a call, in this order. -/
def Call.Lists (call : Call) (answers : List call.Answer) (envelope : Json) : Prop :=
  ∃ items, List.Forall₂ call.ListsOne answers items ∧
    envelope.IsRecord ["resources"] [("resources", .array items)]

/-- The first of some answers, if there is any. -/
def Outcome.first {α : Type} : List α → Outcome α
  | [] => .notFound
  | a :: _ => .success a

namespace PlatformClient

/-! ## Lists are read -/

/-- The members of a user are read as the user, with the requested name if there is none. -/
theorem ListedUser.exists_ofJson? {requested : String} {user : User}
    {members : List (String × Json)} {v : Json} (h : user.Members requested members)
    (hv : v.IsRecord ["guid", "username"] members) :
    ∃ listed, ofJson? v = some listed ∧
      user = ⟨listed.guid, listed.username.getD requested⟩ := by
  unfold ofJson?
  rw [Json.record?_of_isRecord hv]
  cases h with
  | @unnamed guid => exact ⟨⟨guid, none⟩, rfl, rfl⟩
  | @null guid => exact ⟨⟨guid, none⟩, rfl, rfl⟩
  | @named guid username => exact ⟨⟨guid, some username⟩, rfl, rfl⟩

/-- The members of a broker are read as the broker. -/
theorem brokerOfJson?_of_isRecord {broker : ServiceBroker} {members : List (String × Json)}
    {v : Json} (h : broker.Members members) (hv : v.IsRecord ["guid", "name", "url"] members) :
    brokerOfJson? v = some broker := by
  unfold brokerOfJson?
  rw [Json.record?_of_isRecord hv]
  cases h <;> rfl

/-- What is listed is read resource by resource. -/
theorem resources?_of_isRecord {α : Type} {read : Json → Option α} {items : List Json} {v : Json}
    (h : v.IsRecord ["resources"] [("resources", .array items)]) :
    resources? read v = items.mapM read := by
  unfold resources?
  rw [Json.record?_of_isRecord h]
  rfl

/-- What is read of each of some items, in the order of the answers that they list. -/
theorem exists_mapM_of_forall₂ {α β : Type} {read : Json → Option α} (answer : α → β)
    {Lists : β → Json → Prop} (hread : ∀ b v, Lists b v → ∃ a, read v = some a ∧ b = answer a)
    {answers : List β} {items : List Json} (h : List.Forall₂ Lists answers items) :
    ∃ listed, items.mapM read = some listed ∧ answers = listed.map answer := by
  induction h with
  | nil => exact ⟨[], rfl, rfl⟩
  | cons hone _ ih =>
    obtain ⟨a, ha, rfl⟩ := hread _ _ hone
    obtain ⟨listed, hlisted, rfl⟩ := ih
    refine ⟨a :: listed, ?_, rfl⟩
    rw [List.mapM_cons, ha, hlisted]
    rfl

/-- The first of the resources makes the answer, if all of them can be read. -/
theorem firstResource_andThen {α β : Type} {read : Json → Option α} (answer : α → β)
    {body : List UInt8} {envelope : Json} {listed : List α}
    (hbody : Json.ofBytes? body = some envelope)
    (hlisted : resources? read envelope = some listed) :
    ((firstResource read body).andThen fun a => .success (answer a)) =
      .first (listed.map answer) := by
  rw [firstResource, hbody, Option.bind_some, hlisted]
  cases listed <;> rfl

/-- A body that lists answers is read as the first of them. -/
theorem reading_of_lists {call : Call} {answers : List call.Answer} {envelope : Json}
    {body : List UInt8} (hbody : Json.ofBytes? body = some envelope)
    (hlookup : call.isLookup = true) (h : call.Lists answers envelope) :
    reading call body = .first answers := by
  obtain ⟨items, hitems, henvelope⟩ := h
  cases call with
  | findUser requested =>
    obtain ⟨listed, hlisted, rfl⟩ := exists_mapM_of_forall₂
      (fun r : ListedUser => User.mk r.guid (r.username.getD requested))
      (fun _ _ ⟨_, hmembers, hv⟩ => ListedUser.exists_ofJson? hmembers hv) hitems
    rw [← resources?_of_isRecord henvelope] at hlisted
    exact firstResource_andThen _ hbody hlisted
  | findBroker name =>
    obtain ⟨listed, hlisted, rfl⟩ := exists_mapM_of_forall₂ id
      (fun _ _ ⟨_, hmembers, hv⟩ => ⟨_, brokerOfJson?_of_isRecord hmembers hv, rfl⟩) hitems
    rw [← resources?_of_isRecord henvelope] at hlisted
    exact firstResource_andThen _ hbody hlisted
  | _ => cases hlookup

/-! ## Answers to lookups -/

/-- A body is read as a value exactly if it is a text of that value. -/
theorem ofBytes?_encode {text : String} {v : Json} :
    Json.ofBytes? (Text.Utf8.encode text) = some v ↔ v.IsText (text.toList.map some) := by
  rw [Json.ofBytes?, Text.Utf8.encode, Text.Utf8.decode_flatMap_utf8EncodeChar,
    Json.read?_eq_some_iff]

/-- However a list of resources is written, a lookup that gets it in a success is answered with the
first of them, and with nothing if there is none. -/
theorem lookup_answers_listed (c : PlatformClient) (call : Call) (net : Http.Network σ) (remote : σ)
    (head : Http.Head) (text : String) (envelope : Json) (answers : List call.Answer)
    (hlookup : call.isLookup = true)
    (hgets : c.Gets net call remote head (Text.Utf8.encode text))
    (hsuccess : head.status / 100 = 2) (htext : envelope.IsText (text.toList.map some))
    (hlists : call.Lists answers envelope) :
    (c.answer net call remote).1.outcome = .first answers := by
  rw [answer_eq_of_gets hgets]
  change outcomeOf (reading call) head.status (Text.Utf8.encode text) = _
  rw [outcomeOf, if_pos (Http.isSuccess_iff.mpr hsuccess)]
  exact reading_of_lists (ofBytes?_encode.mpr htext) hlookup hlists

set_option maxRecDepth 4000 in
/-- Two users, of whom one has no name: with escapes, blanks, members that nobody asks for and a
member before the guid. -/
theorem lookup_answers_listed_escaped :
    let text := "\x7b \"n\":[2e0,\x7b\"\\ud800\":null\x7d],\"resources\":[" ++
      "\x7b\"username\":\"\\u0061n\",\"guid\":\"\\ud83d\\ude00\"\x7d,\x7b\"guid\":\"g\"\x7d ]\x7d"
    let named : Json := .ofMembers [("username", .ofText "an"), ("guid", .ofText "😀")]
    let unnamed : Json := .ofMembers [("guid", .ofText "g")]
    let envelope : Json := .ofMembers
      [("n", .array [.number "2e0", .object [(none, .null)]]),
        ("resources", .array [named, unnamed])]
    let head : Http.Head := ⟨200, []⟩
    let net : Http.Network Unit := { deliver := fun _ _ =>
        (.whole head (Text.Utf8.encode text), ()) }
    let c := ofSession "http://h" "t" none false
    let call := Call.findUser "an"
    let answers : List User := [⟨"😀", "an"⟩, ⟨"g", "an"⟩]
    call.isLookup = true ∧ c.Gets net call () head (Text.Utf8.encode text) ∧
      head.status / 100 = 2 ∧ envelope.IsText (text.toList.map some) ∧ call.Lists answers envelope ∧
      (c.answer net call ()).1.outcome = .success (⟨"😀", "an"⟩ : User) := by
  intro text named unnamed envelope head net c call answers
  have hgets : c.Gets net call () head (Text.Utf8.encode text) :=
    gets_of_isSome (by decide +kernel) fun _ => rfl
  have htext : envelope.IsText (text.toList.map some) := by
    rw [← Json.read?_eq_some_iff]
    simp only [text, envelope, named, unnamed]
    rfl
  have hlists : call.Lists answers envelope := by
    refine ⟨[named, unnamed], ?_, _, [("n", _)], rfl, .swap _ _ _, by decide⟩
    refine .cons ⟨_, .named, _, [], rfl, .swap _ _ _, nofun⟩ ?_
    exact .cons ⟨_, .unnamed, _, [], rfl, .refl _, nofun⟩ .nil
  exact ⟨rfl, hgets, by decide, htext, hlists,
    lookup_answers_listed c call net () head text envelope answers rfl hgets (by decide) htext
      hlists⟩

end PlatformClient

end PlatformAdmin
