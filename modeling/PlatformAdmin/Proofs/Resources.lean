import PlatformAdmin.Http.ScriptedServer
import PlatformAdmin.Proofs.Sites
import PlatformAdmin.Proofs.Traffic

/-!
# Which resource a request changes

The client changes a resource by a request to an address that it writes with the identifier of
the resource as it is.  Where the address of the server is that of a site, such a request names
the resource exactly if the identifier stands for itself.  Requests for two such resources go to
two addresses.  An identifier with a slash in it, or a question mark, or an escape, leads
elsewhere.
-/

set_option autoImplicit false

namespace PlatformAdmin

variable {σ : Type}

/-! ## Resources -/

/-- The collections of resources that the client knows. -/
inductive Collection
  | users
  | serviceBrokers
  deriving DecidableEq, Repr

/-- The name of a collection on the server. -/
def Collection.name : Collection → String
  | .users => "users"
  | .serviceBrokers => "service_brokers"

/-- The path of a collection below the address of the server. -/
def Collection.path (k : Collection) : String := "/v3/" ++ k.name

/-- A resource, by its identifier in its collection. -/
@[ext]
structure Resource where
  collection : Collection
  guid : String
  deriving DecidableEq, Repr

/-- The path below the address of the server at which a call is made. -/
def Call.path : Call → String
  | .currentUser => ""
  | .findUser _ => Collection.users.path
  | .deleteUser user => Collection.users.path ++ "/" ++ user.guid
  | .findBroker _ => Collection.serviceBrokers.path
  | .updateBroker guid _ => Collection.serviceBrokers.path ++ "/" ++ guid

/-- The parameter by which a lookup names what it looks for. -/
def Call.parameter? : Call → Option (String × String)
  | .findUser username => some ("usernames", username)
  | .findBroker name => some ("names", name)
  | _ => none

/-- The resource that a call changes, and the method by which it does. -/
def Call.changed? : Call → Option (Http.Method × Resource)
  | .deleteUser user => some (.delete, ⟨.users, user.guid⟩)
  | .updateBroker guid _ => some (.patch, ⟨.serviceBrokers, guid⟩)
  | _ => none

/-- The path of a change ends in the identifier of its resource, and a change has no parameter. -/
theorem Call.path_of_changed {call : Call} {method : Http.Method} {resource : Resource}
    (h : call.changed? = some (method, resource)) :
    call.path = resource.collection.path ++ "/" ++ resource.guid ∧ call.parameter? = none := by
  cases call with
  | currentUser => cases h
  | findUser username => cases h
  | findBroker name => cases h
  | deleteUser user =>
    obtain ⟨-, rfl⟩ := Prod.mk.inj (Option.some.inj h)
    exact ⟨rfl, rfl⟩
  | updateBroker guid update =>
    obtain ⟨-, rfl⟩ := Prod.mk.inj (Option.some.inj h)
    exact ⟨rfl, rfl⟩

namespace Url

/-- The name of a collection can be a segment. -/
theorem Collection.isName (k : Collection) : IsName k.name := by
  cases k with
  | users => exact ⟨by decide, by decide⟩
  | serviceBrokers => exact ⟨by decide, by decide⟩

namespace Site

variable (site : Site)

/-- The site of a collection. -/
def collection (k : Collection) : Site where
  scheme := site.scheme
  authority := site.authority
  segments := site.segments ++ ["v3", k.name]
  authority_ne := site.authority_ne
  authority_plain := site.authority_plain
  names := by
    intro s hs
    obtain hs | hs := List.mem_append.mp hs
    · exact site.names s hs
    · obtain rfl | rfl : s = "v3" ∨ s = k.name := by simpa using hs
      · exact ⟨by decide, by decide⟩
      · exact Collection.isName k
  last_ne := by
    have hlast : (site.segments ++ ["v3", k.name]).getLast? = some k.name := by simp
    rw [hlast]
    cases k <;> decide

/-- A collection is written behind its site. -/
theorem collection_text (k : Collection) :
    (site.collection k).text = site.text ++ k.path := by
  rw [← String.toList_inj]
  simp [text, written, collection, slashed, Collection.path]

/-- The collections of a site are on its server. -/
theorem collection_server? (k : Collection) (rules : NameRules) :
    (site.collection k).server? rules = site.server? rules := rfl

/-- A collection lies below its site. -/
theorem collection_path (k : Collection) :
    (site.collection k).path = site.path ++ k.path := by
  have hname : encodeExcept pathKeeps k.name.toList = k.name.toList := by
    cases k <;> decide
  have hversion : encodeExcept pathKeeps ['v', '3'] = ['v', '3'] := by decide
  rw [← String.toList_inj, path, path, collection, List.map_append, slashed_append]
  simp [slashed, Collection.path, hname, hversion]

end Site

/-- The path of a change is written below the site of the collection. -/
theorem Site.text_append_path (site : Site) {call : Call} {method : Http.Method}
    {resource : Resource} (h : call.changed? = some (method, resource)) :
    site.text ++ call.path =
      (site.collection resource.collection).text ++ "/" ++ resource.guid := by
  obtain ⟨hpath, -⟩ := Call.path_of_changed h
  rw [hpath, collection_text, String.append_assoc, String.append_assoc, String.append_assoc]

/-- One address names one resource only. -/
theorem eq_of_names {u u' : Url} {site : Site} {r r' : Resource}
    (h : u.Names (site.path ++ r.collection.path) r.guid)
    (h' : u'.Names (site.path ++ r'.collection.path) r'.guid) (htarget : u.target = u'.target) :
    r = r' := by
  obtain ⟨hquery, segment, hsegment, hpath, hdecode⟩ := h
  obtain ⟨hquery', segment', hsegment', hpath', hdecode'⟩ := h'
  rw [target, target, hquery, hquery', hpath, hpath', ← String.toList_inj] at htarget
  have hcut : (site.path ++ r.collection.path).toList ++ '/' :: segment =
      (site.path ++ r'.collection.path).toList ++ '/' :: segment' := by
    simpa [marked] using htarget
  obtain ⟨hfront, rfl⟩ := eq_of_slash_append_eq hsegment hsegment' hcut
  have hcollection : ∀ k k' : Collection, k.path = k'.path → k = k' := by
    intro k k'
    cases k <;> cases k' <;> decide
  rw [String.toList_append, String.toList_append, List.append_cancel_left_eq,
    String.toList_inj] at hfront
  exact Resource.ext (hcollection _ _ hfront)
    (Text.Utf8.encode_inj (hdecode.symm.trans hdecode'))

end Url

namespace PlatformClient

variable {c : PlatformClient} {net : Http.Network σ} {remote : σ}

/-! ## What is sent -/

/-- What is sent for a call, with what comes back for it. -/
def sent (c : PlatformClient) (net : Http.Network σ) (call : Call) (remote : σ) :
    List Http.Exchange :=
  ((c.gateway net.logged).answer call (remote, [])).2.2

/-- What is sent for a call is the exchange for its request. -/
theorem sent_eq (call : Call) :
    c.sent net call remote = exchangeOn net (c.requestFor? net call) remote := by
  change (c.answer net.logged call (remote, [])).2.2 = _
  rw [answer_logged]
  rfl

/-- A call sends its request, or nothing. -/
theorem map_sent (call : Call) :
    (c.sent net call remote).map Prod.fst = (c.requestFor? net call).toList := by
  rw [sent_eq, exchangeOn]
  cases c.requestFor? net call <;> rfl

/-- Nothing is sent for a call exactly if it has no request. -/
theorem sent_eq_nil_iff (call : Call) :
    c.sent net call remote = [] ↔ c.requestFor? net call = none := by
  rw [← List.map_eq_nil_iff (f := Prod.fst), map_sent, Option.toList_eq_nil_iff]

/-- What is sent for a call is its request, with what comes back for that. -/
theorem mem_sent_iff {call : Call} {e : Http.Exchange} : e ∈ c.sent net call remote ↔
    c.requestFor? net call = some e.1 ∧ (net.deliver e.1 remote).1 = e.2 := by
  rw [sent_eq, exchangeOn, Option.mem_toList, Option.map_eq_some_iff]
  constructor
  · rintro ⟨request, hrequest, rfl⟩
    exact ⟨hrequest, rfl⟩
  · rintro ⟨hrequest, hdelivery⟩
    exact ⟨e.1, hrequest, by rw [hdelivery]⟩

/-- Whatever is sent for a call is its request. -/
theorem requestFor?_of_mem_sent {call : Call} {e : Http.Exchange} (h : e ∈ c.sent net call remote) :
    c.requestFor? net call = some e.1 :=
  (mem_sent_iff.mp h).1

/-- A request that can be made has the address it was made for. -/
theorem url_eq_of_request_eq_ok {method : Http.Method} {url : Option Url} {body : Option Json}
    {request : Http.Request} (h : c.request method url body = .ok request) :
    url = some request.url := by
  obtain ⟨-, u, rfl, -, rfl⟩ := c.request_eq_ok_iff.mp h
  rfl

/-- A request can be made if the token fits into a header and the address is not too long. -/
theorem exists_request_eq_ok {u : Url} (hfits : Http.isHeaderValue c.authorization = true)
    (hsize : u.text.utf8ByteSize ≤ Http.maxUrlBytes) (method : Http.Method) (body : Option Json) :
    ∃ request, c.request method (some u) body = .ok request :=
  ⟨_, c.request_eq_ok_iff.mpr ⟨hfits, u, rfl, hsize, rfl⟩⟩

/-- What is made of a request is the request itself. -/
theorem eq_ok_of_toOption_eq_some {x : Except PlatformError Http.Request} {request : Http.Request}
    (h : x.toOption = some request) : x = .ok request := by
  cases x with
  | error e => cases h
  | ok r => exact congrArg Except.ok (Option.some.inj h)

/-- The address of a request is that of the path of the call, with the parameter of the call. -/
theorem exists_url_of_requestFor? {call : Call} {request : Http.Request}
    (h : c.requestFor? net call = some request) :
    (∃ rest, call.path = "/v3/" ++ rest) ∧ ∃ u, c.url? net call.path = some u ∧
      request.url = call.parameter?.elim u fun p => u.addQuery p.1 p.2 := by
  cases call with
  | currentUser => cases h
  | findUser username =>
    have hurl := url_eq_of_request_eq_ok (eq_ok_of_toOption_eq_some h)
    obtain ⟨u, hu, hrequest⟩ := Option.map_eq_some_iff.mp hurl
    exact ⟨⟨_, rfl⟩, u, hu, hrequest.symm⟩
  | deleteUser user =>
    refine ⟨⟨"users" ++ ("/" ++ user.guid), ?_⟩, _,
      url_eq_of_request_eq_ok (eq_ok_of_toOption_eq_some h), rfl⟩
    rw [Call.path, String.append_assoc]
    rfl
  | findBroker name =>
    have hurl := url_eq_of_request_eq_ok (eq_ok_of_toOption_eq_some h)
    obtain ⟨u, hu, hrequest⟩ := Option.map_eq_some_iff.mp hurl
    exact ⟨⟨_, rfl⟩, u, hu, hrequest.symm⟩
  | updateBroker guid update =>
    refine ⟨⟨"service_brokers" ++ ("/" ++ guid), ?_⟩, _,
      url_eq_of_request_eq_ok (eq_ok_of_toOption_eq_some h), rfl⟩
    rw [Call.path, String.append_assoc]
    rfl

/-- The request for a change has its method. -/
theorem method_of_changed {call : Call} {method : Http.Method} {resource : Resource}
    {request : Http.Request} (hcall : call.changed? = some (method, resource))
    (h : c.requestFor? net call = some request) : request.method = method := by
  cases call with
  | currentUser => cases hcall
  | findUser username => cases hcall
  | findBroker name => cases hcall
  | deleteUser user =>
    obtain ⟨rfl, -⟩ := Prod.mk.inj (Option.some.inj hcall)
    exact c.method_eq_of_request_eq_ok (eq_ok_of_toOption_eq_some h)
  | updateBroker guid update =>
    obtain ⟨rfl, -⟩ := Prod.mk.inj (Option.some.inj hcall)
    exact c.method_eq_of_request_eq_ok (eq_ok_of_toOption_eq_some h)

/-- The address of a change is written below the collection, on the server of the site. -/
theorem url?_of_changed {site : Url.Site} (hbase : c.base = site.text) {call : Call}
    {method : Http.Method} {resource : Resource}
    (hcall : call.changed? = some (method, resource)) :
    c.url? net call.path = (site.server? net.nameRules).map fun server =>
      (site.collection resource.collection).below server resource.guid := by
  rw [url?, hbase, site.text_append_path hcall, Url.Site.parse?_below, Url.Site.collection_server?]

/-- A change is sent to the server of the site, at the address below the collection. -/
theorem url_of_changed {site : Url.Site} (hbase : c.base = site.text) {call : Call}
    {method : Http.Method} {resource : Resource} {request : Http.Request}
    (hcall : call.changed? = some (method, resource)) (h : c.requestFor? net call = some request) :
    ∃ server, site.server? net.nameRules = some server ∧
      request.url = (site.collection resource.collection).below server resource.guid := by
  obtain ⟨-, u, hu, hurl⟩ := exists_url_of_requestFor? h
  obtain ⟨-, hparameter⟩ := Call.path_of_changed hcall
  rw [url?_of_changed hbase hcall, Option.map_eq_some_iff] at hu
  obtain ⟨server, hserver, rfl⟩ := hu
  rw [hurl, hparameter]
  exact ⟨server, hserver, rfl⟩

/-- A change is sent, if the token fits into a header and the address on the server of the site is
not too long. -/
theorem exists_sent_of_changed {site : Url.Site} (hbase : c.base = site.text) {call : Call}
    {method : Http.Method} {resource : Resource} (hcall : call.changed? = some (method, resource))
    {server : String} (hserver : site.server? net.nameRules = some server)
    (hfits : Http.isHeaderValue c.authorization = true)
    (hsize : ((site.collection resource.collection).below server resource.guid).text.utf8ByteSize ≤
      Http.maxUrlBytes) : ∃ e, c.sent net call remote = [e] := by
  have hurl : c.url? net call.path =
      some ((site.collection resource.collection).below server resource.guid) := by
    rw [url?_of_changed hbase hcall, hserver, Option.map_some]
  have hrequest : ∃ request, c.requestFor? net call = some request := by
    cases call with
    | currentUser => cases hcall
    | findUser username => cases hcall
    | findBroker name => cases hcall
    | deleteUser user =>
      obtain ⟨request, hok⟩ := exists_request_eq_ok hfits hsize .delete none
      rw [← hurl] at hok
      exact ⟨request, congrArg Except.toOption hok⟩
    | updateBroker guid update =>
      obtain ⟨request, hok⟩ := exists_request_eq_ok hfits hsize .patch (some (updateBody update))
      rw [← hurl] at hok
      exact ⟨request, congrArg Except.toOption hok⟩
  obtain ⟨request, hrequest⟩ := hrequest
  rw [sent_eq, hrequest]
  exact ⟨_, rfl⟩

/-- A change sends one request, if it can be sent.  It goes to the server of the site, and names the
resource exactly if the identifier stands for itself.  Where identifiers do, requests with one
target change one resource. -/
theorem mutation_names_resource (net : Http.Network σ) {c : PlatformClient} {site : Url.Site}
    (hbase : c.base = site.text) :
    (∀ call method resource, call.changed? = some (method, resource) → ∀ remote,
      (∀ server, site.server? net.nameRules = some server →
        Http.isHeaderValue c.authorization = true →
          ((site.collection resource.collection).below server resource.guid).text.utf8ByteSize ≤
            Http.maxUrlBytes → ∃ e, c.sent net call remote = [e]) ∧
      ∀ e ∈ c.sent net call remote,
        e.1.method = method ∧ e.1.url.scheme = site.scheme ∧
          site.server? net.nameRules = some e.1.url.authority ∧
          (e.1.url.Names (site.path ++ resource.collection.path) resource.guid ↔
            Url.StandsForItself resource.guid)) ∧
      ∀ call method resource, call.changed? = some (method, resource) →
        ∀ call' method' resource', call'.changed? = some (method', resource') →
          Url.StandsForItself resource.guid → Url.StandsForItself resource'.guid →
            ∀ remote, ∀ e ∈ c.sent net call remote, ∀ remote', ∀ e' ∈ c.sent net call' remote',
              e.1.url.target = e'.1.url.target → resource = resource' := by
  have hnames : ∀ call method resource, call.changed? = some (method, resource) →
      ∀ remote, ∀ e ∈ c.sent net call remote,
        e.1.method = method ∧ e.1.url.scheme = site.scheme ∧
          site.server? net.nameRules = some e.1.url.authority ∧
          (e.1.url.Names (site.path ++ resource.collection.path) resource.guid ↔
            Url.StandsForItself resource.guid) := by
    intro call method resource hcall remote e he
    have hrequest := requestFor?_of_mem_sent he
    have hmethod := method_of_changed hcall hrequest
    obtain ⟨server, hserver, hurl⟩ := url_of_changed hbase hcall hrequest
    have hiff := (site.collection resource.collection).names_iff server resource.guid
    rw [Url.Site.collection_path] at hiff
    rw [hurl]
    exact ⟨hmethod, rfl, hserver, hiff⟩
  refine ⟨?_, ?_⟩
  · intro call method resource hcall remote
    refine ⟨?_, hnames call method resource hcall remote⟩
    intro server hserver hfits hsize
    exact exists_sent_of_changed hbase hcall hserver hfits hsize
  · intro call method resource hcall call' method' resource' hcall' hself hself' remote e he
      remote' e' he' htarget
    obtain ⟨-, -, -, hiff⟩ := hnames call method resource hcall remote e he
    obtain ⟨-, -, -, hiff'⟩ := hnames call' method' resource' hcall' remote' e' he'
    exact Url.eq_of_names (hiff.mpr hself) (hiff'.mpr hself') htarget

/-- A user whose identifier stands for itself is named by the request to delete the user. -/
theorem mutation_names_resource_user :
    let server : Http.ScriptedServer := { authority := "h", script := [{ status := 204 }] }
    let c := ofSession "http://h/cf/" "t" none false
    let site : Url.Site :=
      ⟨.http, "h", ["cf"], by decide, by decide, by simpa using ⟨by decide, by decide⟩, by decide⟩
    let call := Call.deleteUser ⟨"g 1", "ann"⟩
    c.base = site.text ∧ call.changed? = some (.delete, ⟨.users, "g 1"⟩) ∧
      Url.StandsForItself "g 1" ∧
        ∃ e ∈ c.sent Http.ScriptedServer.network call server,
          e.1.method = .delete ∧ e.1.url.Names "/cf/v3/users" "g 1" := by
  intro server c site call
  have hbase : c.base = site.text := by decide +kernel
  have hcall : call.changed? = some (.delete, ⟨.users, "g 1"⟩) := rfl
  have hself : Url.StandsForItself "g 1" := by
    refine Url.standsForItself_iff.mpr ⟨by decide, ?_, ?_, by decide, ?_⟩
    · simp [Url.isSlash]
    · simp [Url.endsPath]
    · rw [← Url.decode_eq_iff]
      decide
  obtain ⟨hchange, -⟩ := mutation_names_resource Http.ScriptedServer.network hbase
  obtain ⟨hsends, hnames⟩ := hchange call .delete ⟨.users, "g 1"⟩ hcall server
  obtain ⟨e, hsent⟩ := hsends "h" (by decide +kernel) (by decide) (by decide +kernel)
  have hmem : e ∈ c.sent Http.ScriptedServer.network call server := by
    rw [hsent]
    exact List.mem_singleton_self e
  obtain ⟨hmethod, -, -, hiff⟩ := hnames e hmem
  exact ⟨hbase, hcall, hself, e, hmem, hmethod, hiff.mpr hself⟩

/-- An identifier of two dots leads out of the collection, one with a slash to a place below
another user, and one with a number sign to another user. -/
theorem mutation_names_resource_elsewhere :
    let server : Http.ScriptedServer := { authority := "h", script := [{ status := 204 }] }
    let c := ofSession "http://h" "t" none false
    let targets := fun guid =>
      (c.sent Http.ScriptedServer.network (.deleteUser ⟨guid, "ann"⟩) server).map (·.1.url.target)
    targets ".." = ["/v3/"] ∧ targets "a/b" = ["/v3/users/a/b"] ∧ targets "a#b" = targets "a" ∧
      targets "a" = ["/v3/users/a"] := by
  decide +kernel

end PlatformClient

end PlatformAdmin
