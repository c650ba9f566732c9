import PlatformAdmin.Proofs.Agreement
import PlatformAdmin.Proofs.Resources

/-!
# What a reply comes to

A request that is sent may bring a whole reply: a status, headers and a body.  The outcome of the
call depends on the kind of the status, and in a success on whether the call is a lookup and on what
its body lists.  `Call.Comes` has a case for each of these, and `Response.Classified` says for each
kind of outcome exactly which replies lead to it.  The warnings come from the headers alone.
-/

set_option autoImplicit false

namespace PlatformAdmin

variable {σ : Type}

/-! ## Statuses and descriptions -/

/-- The codes of success are those from 200 to 299. -/
theorem Http.isSuccess_iff {status : Nat} : isSuccess status = true ↔ status / 100 = 2 := by
  rw [isSuccess, Bool.and_eq_true, decide_eq_true_iff, decide_eq_true_iff]
  omega

/-- No usual text is empty. -/
theorem Http.reason?_ne_empty {status : Nat} {reason : String} (h : reason? status = some reason) :
    reason ≠ "" := by
  have hnonempty : ∀ entry ∈ registeredReasons, entry.2 ≠ "" := by decide
  obtain ⟨before, after, hsplit, -⟩ := List.lookup_eq_some_iff.mp h
  refine hnonempty (status, reason) ?_
  rw [hsplit]
  exact List.mem_append_right before List.mem_cons_self

/-- A refusal is never without a text. -/
theorem PlatformClient.refusalText_ne_empty (status : Nat) (body : List UInt8) :
    refusalText status body ≠ "" := by
  dsimp only [refusalText]
  split
  · rename_i detail hdetail
    simpa using List.find?_some hdetail
  · cases hreason : Http.reason? status with
    | none => decide
    | some reason => exact Http.reason?_ne_empty hreason

/-! ## Outcomes of a call -/

/-- How many resources the body of a reply lists for a lookup; nothing if the body is no list of
what is looked up. -/
def Call.listed? (body : List UInt8) : Call → Option Nat
  | .findUser _ =>
    ((Json.ofBytes? body).bind (PlatformClient.resources? PlatformClient.ListedUser.ofJson?)).map
      List.length
  | .findBroker _ =>
    ((Json.ofBytes? body).bind (PlatformClient.resources? PlatformClient.brokerOfJson?)).map
      List.length
  | _ => none

/-- What a call comes to when a success has this body. -/
inductive Call.Reads (call : Call) (body : List UInt8) : Outcome call.Answer → Prop
  | done {answer : call.Answer} (mutation : call.isMutation = true) :
      Reads call body (.success answer)
  | found {answer : call.Answer} {others : Nat} (lookup : call.isLookup = true)
      (listed : call.listed? body = some (others + 1)) : Reads call body (.success answer)
  | absent (lookup : call.isLookup = true) (listed : call.listed? body = some 0) :
      Reads call body .notFound
  | unreadable {detail : String} (lookup : call.isLookup = true)
      (listed : call.listed? body = none) : Reads call body (.error (.unreadable detail))

/-- What a call comes to when its reply has this status and body. -/
inductive Call.Comes (call : Call) (status : Nat) (body : List UInt8) : Outcome call.Answer → Prop
  | read {o : Outcome call.Answer} (success : status / 100 = 2) (reads : call.Reads body o) :
      Comes call status body o
  | notFound (missing : status = 404) : Comes call status body .notFound
  | invalidToken (unauthorized : status = 401) : Comes call status body (.error .invalidToken)
  | refused {description : String} (failure : status / 100 ≠ 2) (found : status ≠ 404)
      (authorized : status ≠ 401) (nonempty : description ≠ "") :
      Comes call status body (.error (.refused status description))

/-- Which replies lead to each kind of outcome. -/
structure Response.Classified (call : Call) (head : Http.Head) (body : List UInt8)
    (r : Response call.Answer) : Prop where
  success_iff : r.outcome.isSuccess = true ↔ head.status / 100 = 2 ∧
    (call.isMutation = true ∨ call.isLookup = true ∧ ∃ n, call.listed? body = some (n + 1))
  notFound_iff : r.outcome = .notFound ↔ head.status = 404 ∨
    head.status / 100 = 2 ∧ call.isLookup = true ∧ call.listed? body = some 0
  invalidToken_iff : r.outcome = .error .invalidToken ↔ head.status = 401
  unreadable_iff : (∃ detail, r.outcome = .error (.unreadable detail)) ↔
    head.status / 100 = 2 ∧ call.isLookup = true ∧ call.listed? body = none
  refused_iff : ∀ status, (∃ description, description ≠ "" ∧
      r.outcome = .error (.refused status description)) ↔
    status = head.status ∧ head.status / 100 ≠ 2 ∧ head.status ≠ 404 ∧ head.status ≠ 401
  warnings_eq : r.warnings = PlatformClient.warningsOf head

/-- An outcome that comes from a reply is classified by it. -/
theorem Call.Comes.classified {call : Call} {head : Http.Head} {body : List UInt8}
    {o : Outcome call.Answer} (h : call.Comes head.status body o)
    (hkind : call.isLookup = !call.isMutation) :
    Response.Classified call head body ⟨o, PlatformClient.warningsOf head⟩ := by
  cases h with
  | read success reads =>
    -- no other kind of outcome has a status of this range
    have hfound : head.status ≠ 404 := by omega
    have hauthorized : head.status ≠ 401 := by omega
    cases reads with
    | done mutation => constructor <;> simp_all [Outcome.isSuccess]
    | found lookup listed => constructor <;> simp_all [Outcome.isSuccess]
    | absent lookup listed => constructor <;> simp_all [Outcome.isSuccess]
    | unreadable lookup listed => constructor <;> simp_all [Outcome.isSuccess]
  | notFound missing => constructor <;> simp [Outcome.isSuccess, missing]
  | invalidToken unauthorized => constructor <;> simp [Outcome.isSuccess, unauthorized]
  | @refused description failure found authorized nonempty =>
    constructor
    case refused_iff =>
      intro status
      constructor
      · rintro ⟨_, -, herror⟩
        cases herror
        exact ⟨rfl, failure, found, authorized⟩
      · rintro ⟨rfl, -⟩
        exact ⟨description, nonempty, rfl⟩
    all_goals simp [Outcome.isSuccess, failure, found, authorized]

/-! ## Answers of the client -/

/-- To answer with what was found changes no outcome. -/
theorem Outcome.andThen_success {α : Type} (o : Outcome α) :
    (o.andThen fun a => .success a) = o := by
  cases o <;> rfl

namespace PlatformClient

/-- A request was sent for a call, and this whole reply came back. -/
def Gets (c : PlatformClient) (net : Http.Network σ) (call : Call) (remote : σ) (head : Http.Head)
    (body : List UInt8) : Prop :=
  ∃ request, (request, .whole head body) ∈ c.sent net call remote

variable {c : PlatformClient} {call : Call} {body : List UInt8}

/-- A reply is got exactly if there is a request, and the reply is what comes back whole for it. -/
theorem gets_iff {net : Http.Network σ} {remote : σ} {head : Http.Head} :
    c.Gets net call remote head body ↔ ∃ request, c.requestFor? net call = some request ∧
      (net.deliver request remote).1 = .whole head body := by
  constructor
  · rintro ⟨request, hsent⟩
    exact ⟨request, mem_sent_iff.mp hsent⟩
  · rintro ⟨request, hsent⟩
    exact ⟨request, mem_sent_iff.mpr hsent⟩

/-- A reply is got if there is a request and it comes back whole for any. -/
theorem gets_of_isSome {net : Http.Network σ} {remote : σ} {head : Http.Head}
    (hrequest : (c.requestFor? net call).isSome = true)
    (hwhole : ∀ request, (net.deliver request remote).1 = .whole head body) :
    c.Gets net call remote head body := by
  obtain ⟨request, hrequest⟩ := Option.isSome_iff_exists.mp hrequest
  exact gets_iff.mpr ⟨request, hrequest, hwhole request⟩

/-- What is done with an answer may be done with the body. -/
theorem andThen_outcomeOf {α β : Type} (read : List UInt8 → Outcome α) (f : α → Outcome β)
    (status : Nat) (body : List UInt8) :
    (outcomeOf read status body).andThen f =
      outcomeOf (fun body => (read body).andThen f) status body := by
  unfold outcomeOf
  split_ifs <;> rfl

/-- An outcome comes from a reply if its value is read from the body. -/
theorem outcomeOf_comes {read : List UInt8 → Outcome call.Answer} (status : Nat)
    (h : call.Reads body (read body)) : call.Comes status body (outcomeOf read status body) := by
  unfold outcomeOf
  split_ifs with hsuccess hmissing hunauthorized
  · exact .read (Http.isSuccess_iff.mp hsuccess) h
  · exact .notFound hmissing
  · exact .invalidToken hunauthorized
  · rw [Http.isSuccess_iff] at hsuccess
    exact .refused hsuccess hmissing hunauthorized (refusalText_ne_empty status body)

/-- A lookup goes by the first of the resources that are listed. -/
theorem reads_firstResource {α : Type} {read : Json → Option α} (f : α → call.Answer)
    (hlookup : call.isLookup = true)
    (hlisted : call.listed? body =
      ((Json.ofBytes? body).bind (resources? read)).map List.length) :
    call.Reads body ((firstResource read body).andThen fun a => .success (f a)) := by
  unfold firstResource
  cases hbody : (Json.ofBytes? body).bind (resources? read) with
  | none =>
    rw [hbody] at hlisted
    exact .unreadable hlookup hlisted
  | some listed =>
    rw [hbody] at hlisted
    cases listed with
    | nil => exact .absent hlookup hlisted
    | cons first others => exact .found hlookup hlisted

/-- How a client reads the body of a success. -/
def reading : (call : Call) → List UInt8 → Outcome call.Answer
  | .currentUser, _ => .notFound
  | .findUser username, body =>
    (firstResource ListedUser.ofJson? body).andThen fun r =>
      .success ⟨r.guid, r.username.getD username⟩
  | .deleteUser _, _ => .success ()
  | .findBroker _, body => (firstResource brokerOfJson? body).andThen fun r => .success r
  | .updateBroker _ _, _ => .success ()

/-- The body of a reply is read as the call asks. -/
theorem reads_reading (hkind : call.isLookup = !call.isMutation) (body : List UInt8) :
    call.Reads body (reading call body) := by
  cases call with
  | currentUser => cases hkind
  | findUser username => exact reads_firstResource _ rfl rfl
  | deleteUser user => exact .done rfl
  | findBroker name => exact reads_firstResource _ rfl rfl
  | updateBroker guid update => exact .done rfl

/-- The answer to a request that is sent is what its delivery means. -/
theorem exchange_of_request {α : Type} {read : List UInt8 → Outcome α}
    {sent : Except PlatformError Http.Request} {request : Http.Request} {net : Http.Network σ}
    {remote : σ} (hsent : sent.toOption = some request) :
    (exchange net sent read remote).1 = responseOf read (net.deliver request remote).1 := by
  obtain rfl := eq_ok_of_toOption_eq_some hsent
  rfl

/-- What comes back whole is the response. -/
theorem exchange_of_whole {α : Type} {read : List UInt8 → Outcome α}
    {sent : Except PlatformError Http.Request} {request : Http.Request} {net : Http.Network σ}
    {remote : σ} {head : Http.Head} (hsent : sent.toOption = some request)
    (hwhole : (net.deliver request remote).1 = .whole head body) :
    (exchange net sent read remote).1 = ⟨outcomeOf read head.status body, warningsOf head⟩ := by
  rw [exchange_of_request hsent, hwhole]
  rfl

/-- Status, headers and body of a whole reply decide the answer. -/
theorem answer_eq_of_gets {net : Http.Network σ} {remote : σ} {head : Http.Head}
    (h : c.Gets net call remote head body) :
    (c.answer net call remote).1 =
      ⟨outcomeOf (reading call) head.status body, warningsOf head⟩ := by
  obtain ⟨request, hrequest, hwhole⟩ := gets_iff.mp h
  cases call with
  | currentUser => cases hrequest
  | findUser username =>
    change (exchange net _ (firstResource ListedUser.ofJson?) remote).1.andThen _ = _
    rw [exchange_of_whole hrequest hwhole, Response.andThen, andThen_outcomeOf]
    rfl
  | deleteUser user => exact exchange_of_whole hrequest hwhole
  | findBroker name =>
    have hreading : reading (.findBroker name) = firstResource brokerOfJson? := by
      funext body
      exact Outcome.andThen_success _
    rw [hreading]
    exact exchange_of_whole hrequest hwhole
  | updateBroker guid update => exact exchange_of_whole hrequest hwhole

/-- A call that gets a reply is either a lookup or a change. -/
theorem isLookup_of_gets {net : Http.Network σ} {remote : σ} {head : Http.Head}
    (h : c.Gets net call remote head body) : call.isLookup = !call.isMutation := by
  obtain ⟨request, hrequest, -⟩ := gets_iff.mp h
  cases call with
  | currentUser => cases hrequest
  | _ => rfl

/-- Every whole reply to a request is classified by its status, and a success by what the call is
and what the body lists.  Replies with the same headers bring the same warnings, and to a change all
successes with the same headers are the same. -/
theorem replies_classified (c : PlatformClient) (call : Call) (net : Http.Network σ) (remote : σ)
    (head : Http.Head) (body : List UInt8) (h : c.Gets net call remote head body) :
    Response.Classified call head body (c.answer net call remote).1 ∧
      ∀ (remote' : σ) (head' : Http.Head) (body' : List UInt8),
        c.Gets net call remote' head' body' → head'.headers = head.headers →
          (c.answer net call remote').1.warnings = (c.answer net call remote).1.warnings ∧
            (call.isMutation = true → head.status / 100 = 2 → head'.status / 100 = 2 →
              (c.answer net call remote').1 = (c.answer net call remote).1) := by
  have hkind := isLookup_of_gets h
  refine ⟨?_, fun remote' head' body' h' hheaders => ?_⟩
  · rw [answer_eq_of_gets h]
    exact (outcomeOf_comes head.status (reads_reading hkind body)).classified hkind
  · have hwarnings : warningsOf head' = warningsOf head := by
      unfold warningsOf Http.Head.values
      rw [hheaders]
    rw [answer_eq_of_gets h, answer_eq_of_gets h', hwarnings]
    refine ⟨rfl, fun hmutation hsuccess hsuccess' => ?_⟩
    rw [outcomeOf, outcomeOf, if_pos (Http.isSuccess_iff.mpr hsuccess),
      if_pos (Http.isSuccess_iff.mpr hsuccess')]
    cases call with
    | deleteUser user => rfl
    | updateBroker guid update => rfl
    | _ => cases hmutation

/-- A refusal with a detail, and with a warning beside it. -/
theorem replies_classified_refusal :
    let head : Http.Head := ⟨422, [("x-cf-warnings", Text.Utf8.encode "late, slow")]⟩
    let body := Text.Utf8.encode "\x7b\"errors\":[\x7b\"detail\":\"no\"\x7d]\x7d"
    let net : Http.Network Unit := { deliver := fun _ _ => (.whole head body, ()) }
    let c := ofSession "http://h" "t" none false
    let call := Call.deleteUser ⟨"g-1", "ann"⟩
    c.Gets net call () head body ∧
      (c.answer net call ()).1 = ⟨.error (.refused 422 "no"), ["late", "slow"]⟩ ∧
      Response.Classified call head body (c.answer net call ()).1 := by
  intro head body net c call
  have hgets : c.Gets net call () head body := gets_of_isSome (by decide +kernel) fun _ => rfl
  exact ⟨hgets, by decide +kernel, (replies_classified c call net () head body hgets).1⟩

end PlatformClient

end PlatformAdmin
