import PlatformAdmin.Http.ScriptedServer
import PlatformAdmin.Proofs.Decoding
import PlatformAdmin.Proofs.Resources

/-!
# What is sent for a token

A session's token may be any text.  If its bytes hold a control character other than the tab, a line
end among them, no call sends anything, and each one that would ask the server fails for the token.
Otherwise each request has one value of the header for it, by the rule that `AuthorizationFor`
states, and a call is made wherever its address is one.
-/

set_option autoImplicit false

namespace PlatformAdmin

variable {σ : Type}

/-! ## Bytes that a header cannot hold -/

/-- A control character other than the tab, as a byte. -/
def Http.IsControlByte (b : UInt8) : Prop :=
  b.toNat < 32 ∧ b.toNat ≠ 9 ∨ b.toNat = 127

instance (b : UInt8) : Decidable (Http.IsControlByte b) :=
  inferInstanceAs (Decidable (_ ∨ _))

namespace Http

/-- A character of ASCII is spelled by one byte. -/
theorem utf8EncodeChar_of_lt {c : Char} (h : c.toNat < 0x80) :
    String.utf8EncodeChar c = [UInt8.ofNat c.toNat] := by
  have hval : c.val.toNat = c.toNat := rfl
  unfold String.utf8EncodeChar
  simp only [hval]
  rw [if_pos (by omega)]

/-- No byte of a longer character is an ASCII character. -/
theorem le_of_mem_utf8EncodeChar {c : Char} (h : 0x80 ≤ c.toNat) {b : UInt8}
    (hb : b ∈ String.utf8EncodeChar c) : 0x80 ≤ b.toNat := by
  have hval : c.val.toNat = c.toNat := rfl
  have hvalid : c.toNat < 0xD800 ∨ 0xDFFF < c.toNat ∧ c.toNat < 0x110000 := c.valid
  unfold String.utf8EncodeChar at hb
  simp only [hval] at hb
  generalize c.toNat = v at h hvalid hb
  split_ifs at hb with h1 h2 h3
  · omega
  all_goals
    simp only [List.mem_cons, List.not_mem_nil, or_false] at hb
    rcases hb with rfl | rfl | rfl | rfl <;>
      rw [Text.Utf8.toNat_ofNat_of_lt (by omega)] <;> omega

/-- A character has a control byte exactly if it is one. -/
theorem exists_isControlByte_iff {c : Char} :
    (∃ b ∈ String.utf8EncodeChar c, IsControlByte b) ↔
      c.toNat < 32 ∧ c.toNat ≠ 9 ∨ c.toNat = 127 := by
  by_cases hc : c.toNat < 0x80
  · have hbyte : (UInt8.ofNat c.toNat).toNat = c.toNat :=
      Text.Utf8.toNat_ofNat_of_lt (by omega)
    simp [utf8EncodeChar_of_lt hc, IsControlByte, hbyte]
  · constructor
    · rintro ⟨b, hb, hcontrol⟩
      have hlow := le_of_mem_utf8EncodeChar (Nat.not_lt.mp hc) hb
      unfold IsControlByte at hcontrol
      omega
    · intro h
      omega

/-- A text can be the value of a header exactly if none of its bytes is a control character. -/
theorem isHeaderValue_eq_false_iff {value : String} :
    isHeaderValue value = false ↔ ∃ b ∈ Text.Utf8.encode value, IsControlByte b := by
  have htab : ∀ c : Char, c = '\t' ↔ c.toNat = 9 := by
    intro c
    constructor
    · rintro rfl
      rfl
    · intro h
      rw [← Char.ofNat_toNat c, h]
  have hchar : ∀ c : Char, (c == '\t' || (0x20 ≤ c.toNat && c.toNat != 0x7F)) = false ↔
      ∃ b ∈ String.utf8EncodeChar c, IsControlByte b := by
    intro c
    rw [exists_isControlByte_iff]
    simp only [Bool.or_eq_false_iff, beq_eq_false_iff_ne, ne_eq, htab, Bool.and_eq_false_imp,
      decide_eq_true_eq, bne_eq_false_iff_eq]
    omega
  simp only [isHeaderValue, List.all_eq_false, Bool.not_eq_true, hchar, Text.Utf8.encode,
    List.mem_flatMap]
  constructor
  · rintro ⟨c, hc, b, hb, hcontrol⟩
    exact ⟨b, ⟨c, hc, hb⟩, hcontrol⟩
  · rintro ⟨b, ⟨c, hc, hb⟩, hcontrol⟩
    exact ⟨c, hc, b, hb, hcontrol⟩

end Http

/-! ## The value for a token -/

/-- A token names its scheme if it begins with the word for it, in any case of its letters, and a
space. -/
def NamesScheme (token : String) : Prop :=
  ∃ scheme rest, token.toList = scheme ++ rest ∧ Text.lowerAscii scheme = "bearer ".toList

/-- What is sent for a token. -/
inductive AuthorizationFor (token : String) : String → Prop
  | named (scheme : NamesScheme token) : AuthorizationFor token token
  | unnamed (noScheme : ¬NamesScheme token) : AuthorizationFor token ("bearer " ++ token)

/-- A token names its scheme exactly if it begins with the scheme's name in some case. -/
theorem namesScheme_iff {token : String} : NamesScheme token ↔
    "bearer ".toList.isPrefixOf (Text.lowerAscii token.toList) = true := by
  rw [List.isPrefixOf_iff_prefix]
  constructor
  · rintro ⟨scheme, rest, htoken, hscheme⟩
    refine ⟨Text.lowerAscii rest, ?_⟩
    rw [htoken, ← hscheme, Text.lowerAscii, Text.lowerAscii, Text.lowerAscii, List.map_append]
  · rintro ⟨rest, hrest⟩
    obtain ⟨scheme, others, htoken, hscheme, -⟩ := List.map_eq_append_iff.mp hrest.symm
    exact ⟨scheme, others, htoken, hscheme⟩

/-- What is sent for a token names its scheme. -/
theorem AuthorizationFor.namesScheme {token value : String} (h : AuthorizationFor token value) :
    NamesScheme value := by
  cases h with
  | named scheme => exact scheme
  | unnamed noScheme => exact ⟨"bearer ".toList, token.toList, String.toList_append, rfl⟩

/-- What is sent for a token that names its scheme is the token itself. -/
theorem AuthorizationFor.eq_of_namesScheme {token value : String} (h : AuthorizationFor token value)
    (hscheme : NamesScheme token) : value = token := by
  cases h with
  | named scheme => rfl
  | unnamed noScheme => exact absurd hscheme noScheme

/-- The name of the scheme has no control character in it, so only the token matters. -/
theorem AuthorizationFor.isHeaderValue {token value : String} (h : AuthorizationFor token value) :
    Http.isHeaderValue value = Http.isHeaderValue token := by
  cases h with
  | named scheme => rfl
  | unnamed noScheme =>
    rw [Http.isHeaderValue, String.toList_append, List.all_append]
    rfl

namespace PlatformClient

/-- The client sends for a token what the rule gives. -/
theorem authorizationFor_authorizationOf (token : String) :
    AuthorizationFor token (authorizationOf token) := by
  unfold authorizationOf
  split_ifs with hscheme
  · exact .named (namesScheme_iff.mpr hscheme)
  · exact .unnamed fun hnames => hscheme (namesScheme_iff.mp hnames)

/-! ## Calls that ask the server -/

variable {c : PlatformClient} {net : Http.Network σ} {call : Call}

/-- The address at which a call is made, if it is one. -/
def address? (c : PlatformClient) (net : Http.Network σ) (call : Call) : Option Url :=
  (c.url? net call.path).map fun u => call.parameter?.elim u fun p => u.addQuery p.1 p.2

/-- Any call but the one for the current user is made by a request to its address. -/
theorem exists_requestFor?_eq (c : PlatformClient) (net : Http.Network σ)
    (hcall : call ≠ .currentUser) :
    ∃ method body, c.requestFor? net call =
      (c.request method (c.address? net call) body).toOption := by
  cases call with
  | currentUser => exact absurd rfl hcall
  | findUser username => exact ⟨.get, none, rfl⟩
  | findBroker name => exact ⟨.get, none, rfl⟩
  | deleteUser user =>
    refine ⟨.delete, none, ?_⟩
    have haddress : c.address? net (.deleteUser user) = c.url? net ("/v3/users/" ++ user.guid) :=
      Option.map_id'
    rw [haddress]
    rfl
  | updateBroker guid update =>
    refine ⟨.patch, some (updateBody update), ?_⟩
    have haddress : c.address? net (.updateBroker guid update) =
        c.url? net ("/v3/service_brokers/" ++ guid) := Option.map_id'
    rw [haddress]
    rfl

/-- With a token that fits into no header, such a call fails at once. -/
theorem answer_of_unfit (hfits : Http.isHeaderValue c.authorization = false)
    (hcall : call ≠ .currentUser) (remote : σ) :
    c.answer net call remote = (.error .invalidToken, remote) := by
  have hrequest : ∀ method url body, c.request method url body = .error .invalidToken := by
    intro method url body
    simp [request, hfits]
  cases call with
  | currentUser => exact absurd rfl hcall
  | findUser username =>
    simp only [answer, findUserRequest, hrequest, exchange]
    rfl
  | findBroker name => simp only [answer, findBrokerRequest, hrequest, exchange]
  | deleteUser user => simp only [answer, deleteUserRequest, hrequest, exchange]
  | updateBroker guid update => simp only [answer, updateBrokerRequest, hrequest, exchange]

/-- With such a token nothing is sent. -/
theorem sent_of_unfit (hfits : Http.isHeaderValue c.authorization = false)
    (hcall : call ≠ .currentUser) (remote : σ) : c.sent net call remote = [] := by
  have hanswer : c.answer net.logged call (remote, []) = (.error .invalidToken, (remote, [])) :=
    answer_of_unfit hfits hcall _
  exact congrArg (fun answered => answered.2.2) hanswer

/-- With any other, it sends a request exactly if its address is one, and not too long. -/
theorem sent_ne_nil_iff (hfits : Http.isHeaderValue c.authorization = true)
    (hcall : call ≠ .currentUser) (remote : σ) : c.sent net call remote ≠ [] ↔
      ∃ u, c.address? net call = some u ∧ u.text.utf8ByteSize ≤ Http.maxUrlBytes := by
  obtain ⟨method, body, hrequest⟩ := c.exists_requestFor?_eq net hcall
  rw [Ne, sent_eq_nil_iff, hrequest]
  constructor
  · intro hsome
    cases hr : c.request method (c.address? net call) body with
    | error e =>
      rw [hr] at hsome
      exact absurd rfl hsome
    | ok request =>
      obtain ⟨-, u, hu, hsize, -⟩ := c.request_eq_ok_iff.mp hr
      exact ⟨u, hu, hsize⟩
  · rintro ⟨u, hu, hsize⟩ hnone
    obtain ⟨request, hr⟩ := exists_request_eq_ok hfits hsize method body
    rw [hu, hr] at hnone
    cases hnone

/-- The values of a header in a request; letters of its name count in either case. -/
def headerValues (request : Http.Request) (name : String) : List String :=
  (request.headers.filter fun h => Text.equalsIgnoringCase h.1 name).map (·.2)

/-- A request has the one value that the client sends for its token. -/
theorem headerValues_of_mem_sent {remote : σ} {e : Http.Exchange}
    (he : e ∈ c.sent net call remote) :
    headerValues e.1 "Authorization" = [c.authorization] := by
  have hrequest := requestFor?_of_mem_sent he
  by_cases hcall : call = .currentUser
  · subst hcall
    cases hrequest
  · obtain ⟨method, body, heq⟩ := c.exists_requestFor?_eq net hcall
    rw [heq] at hrequest
    obtain ⟨-, u, -, -, hto⟩ := c.request_eq_ok_iff.mp (eq_ok_of_toOption_eq_some hrequest)
    have haccept : Text.equalsIgnoringCase "accept" "Authorization" = false := by decide
    have hagent : Text.equalsIgnoringCase "user-agent" "Authorization" = false := by decide
    have hcontent : Text.equalsIgnoringCase "content-type" "Authorization" = false := by decide
    have hauthorization : Text.equalsIgnoringCase "authorization" "Authorization" = true := by
      decide
    rw [← hto, headerValues, requestTo, headers, contentHeaders]
    cases body <;> simp [haccept, hagent, hcontent, hauthorization]

/-- A token with a control character in it is never sent: every call that would ask the server fails
for the token, whatever the server's address, and sends nothing.  With any other token such a call
sends a request wherever its address is one, and each request carries the one value that the rule
gives for the token.  The rule gives that value for itself. -/
theorem token_sent_or_refused (net : Http.Network σ) (base token : String) (user : Option String)
    (skipSslValidation : Bool) :
    let c := ofSession base token user skipSslValidation
    AuthorizationFor token c.authorization ∧
      ((∃ b ∈ Text.Utf8.encode token, Http.IsControlByte b) →
        ∀ call, call ≠ .currentUser → ∀ remote,
          c.answer net call remote = ({ outcome := .error .invalidToken, warnings := [] }, remote) ∧
            c.sent net call remote = []) ∧
      ((¬∃ b ∈ Text.Utf8.encode token, Http.IsControlByte b) →
        ∀ call, call ≠ .currentUser → ∀ remote,
          (c.sent net call remote ≠ [] ↔
            ∃ u, c.address? net call = some u ∧ u.text.utf8ByteSize ≤ Http.maxUrlBytes) ∧
          ∀ e ∈ c.sent net call remote, headerValues e.1 "Authorization" = [c.authorization]) ∧
      ∀ base' user' skipSslValidation',
        (ofSession base' c.authorization user' skipSslValidation').authorization =
          c.authorization := by
  intro c
  have hrule : AuthorizationFor token c.authorization := authorizationFor_authorizationOf token
  refine ⟨hrule, ?_, ?_, ?_⟩
  · intro hcontrol call hcall remote
    have hfits : Http.isHeaderValue c.authorization = false := by
      rw [hrule.isHeaderValue]
      exact Http.isHeaderValue_eq_false_iff.mpr hcontrol
    exact ⟨answer_of_unfit hfits hcall remote, sent_of_unfit hfits hcall remote⟩
  · intro hnone call hcall remote
    have hfits : Http.isHeaderValue c.authorization = true := by
      rw [hrule.isHeaderValue, ← Bool.not_eq_false]
      exact fun hfalse => hnone (Http.isHeaderValue_eq_false_iff.mp hfalse)
    exact ⟨sent_ne_nil_iff hfits hcall remote, fun e he => headerValues_of_mem_sent he⟩
  · intro base' user' skipSslValidation'
    have hagain := authorizationFor_authorizationOf c.authorization
    exact hagain.eq_of_namesScheme hrule.namesScheme

/-- A token that goes on with a header of its own behind a line end, and one that names its scheme
in other letters. -/
theorem token_sent_or_refused_scheme :
    let down : Http.Network Unit := .down
    let call := Call.deleteUser ⟨"g", "ann"⟩
    let bad := ofSession "http://h" "t\r\nx-admin: 1" none false
    let good := ofSession "http://h/" "BEARER é" none false
    (∃ b ∈ Text.Utf8.encode "t\r\nx-admin: 1", Http.IsControlByte b) ∧
      bad.sent down call () = [] ∧
      (¬∃ b ∈ Text.Utf8.encode "BEARER é", Http.IsControlByte b) ∧
      good.sent down call () ≠ [] ∧
      ∀ e ∈ good.sent down call (), headerValues e.1 "Authorization" = ["BEARER é"] := by
  intro down call bad good
  have hcall : call ≠ .currentUser := nofun
  have hcontrol : ∃ b ∈ Text.Utf8.encode "t\r\nx-admin: 1", Http.IsControlByte b :=
    ⟨13, by decide, by decide⟩
  have hnone : ¬∃ b ∈ Text.Utf8.encode "BEARER é", Http.IsControlByte b := by decide
  have hany : (good.address? down call).any (fun u =>
      u.text.utf8ByteSize ≤ Http.maxUrlBytes) = true := by
    decide +kernel
  have haddress : ∃ u, good.address? down call = some u ∧
      u.text.utf8ByteSize ≤ Http.maxUrlBytes := by
    simpa [Option.any_eq_true] using hany
  obtain ⟨-, hrefused, -, -⟩ :=
    token_sent_or_refused down "http://h" "t\r\nx-admin: 1" none false
  obtain ⟨-, -, hsends, -⟩ := token_sent_or_refused down "http://h/" "BEARER é" none false
  obtain ⟨hiff, hvalues⟩ := hsends hnone call hcall ()
  exact ⟨hcontrol, (hrefused hcontrol call hcall ()).2, hnone, hiff.mpr haddress, hvalues⟩

end PlatformClient

end PlatformAdmin
