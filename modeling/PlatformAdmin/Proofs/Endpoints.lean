import PlatformAdmin.Proofs.Consent
import PlatformAdmin.Proofs.Resources
import PlatformAdmin.Proofs.Servers

/-!
# Where requests go

The client writes the paths of the platform behind the endpoint that the configuration names,
without the slashes at its end.  Where the endpoint is the address of a site, with slashes at its
end or none, every request goes to the endpoint's server, and to the documented path below the
endpoint's own; nothing is sent if the site has no server.  The configuration accepts other
endpoints too.  One that holds nothing but slashes after its scheme makes `v3` the server, and one
with a question mark or a number sign keeps its own path, whatever the request is for.
-/

set_option autoImplicit false

namespace PlatformAdmin

variable {σ : Type}

namespace Url

/-! ## The ends of addresses -/

/-- A path whose last name is not empty ends in no slash. -/
theorem ne_slash_of_getLast?_slashed {names : List (List Char)} (hlast : names.getLast? ≠ some [])
    (h : ∀ s ∈ names, '/' ∉ s) : ∀ c ∈ (slashed names).getLast?, c ≠ '/' := by
  obtain rfl | ⟨front, last, rfl⟩ := List.eq_nil_or_concat names
  · exact nofun
  · rw [List.concat_eq_append] at h hlast ⊢
    rw [List.getLast?_concat, ne_eq, Option.some.injEq] at hlast
    have hend : slashed (front ++ [last]) = (slashed front ++ ['/']) ++ last := by
      simp [slashed]
    intro c hc
    rw [hend, List.getLast?_append_of_ne_nil _ hlast] at hc
    rintro rfl
    exact h last (by simp) (List.mem_of_getLast? hc)

/-- Each slash at the end of a path is a segment without characters. -/
theorem slashed_map_nil {slashes : List Char} (h : ∀ c ∈ slashes, c = '/') :
    slashed (slashes.map fun _ => []) = slashes := by
  induction slashes with
  | nil => rfl
  | cons c slashes ih =>
    have hc := h c List.mem_cons_self
    rw [List.map_cons, slashed, List.flatMap_cons, ← slashed,
      ih fun d hd => h d (List.mem_cons_of_mem _ hd), hc]
    rfl

/-- Something is written for every text but the empty one. -/
theorem encodeExcept_ne_nil {keeps : Char → Bool} {s : List Char} (h : s ≠ []) :
    encodeExcept keeps s ≠ [] := by
  cases s with
  | nil => exact absurd rfl h
  | cons c s =>
    rw [encodeExcept_cons]
    obtain ⟨x, y, rest, hc⟩ := exists_percentChar_eq c
    split
    · exact List.cons_ne_nil _ _
    · rw [hc]
      exact List.cons_ne_nil _ _

/-- The path of an address without slashes at its end. -/
def ownPath (u : Url) : String :=
  String.ofList (Text.dropTrailing (· == '/') u.path.toList)

/-- The address is that of a site, but for slashes at its end. -/
structure IsAt (rules : NameRules) (u : Url) (site : Site) : Prop where
  scheme : u.scheme = site.scheme
  /-- The server of the address is the one that the site names. -/
  server : site.server? rules = some u.authority
  ownPath : u.ownPath = site.path

namespace Site

variable (site : Site)

/-- No segment of a site has a slash in it. -/
theorem slash_not_mem_of_mem_segments {s : List Char} (h : s ∈ site.segments.map String.toList) :
    '/' ∉ s :=
  fun hmem => absurd ((site.slashless_of_mem_segments h).1 _ hmem) (by decide)

/-- The last segment of a site is not empty. -/
theorem getLast?_segments : (site.segments.map String.toList).getLast? ≠ some [] := by
  rw [List.getLast?_map]
  intro h
  obtain ⟨s, hs, hnil⟩ := Option.map_eq_some_iff.mp h
  refine site.last_ne ?_
  rw [hs, String.toList_eq_nil_iff.mp hnil]

/-- An endpoint that is the address of a site loses the slashes at its end, and no more. -/
theorem dropTrailing_text {slashes : List Char} (h : ∀ c ∈ slashes, c = '/') :
    Text.dropTrailing (· == '/') (site.text ++ String.ofList slashes).toList =
      site.text.toList := by
  rw [String.toList_append, String.toList_ofList,
    Text.dropTrailing_append_of_all fun c hc => beq_iff_eq.mpr (h c hc),
    Text.dropTrailing_eq_self_iff, toList_text]
  have hsplit : site.scheme.name.toList ++ ':' :: '/' :: '/' ::
      (site.authority.toList ++ site.written) =
        (site.scheme.name.toList ++ [':', '/', '/']) ++
          (site.authority.toList ++ site.written) := by
    simp
  have hne : site.authority.toList ++ site.written ≠ [] := fun hnil =>
    site.authority_ne (String.toList_eq_nil_iff.mp (List.append_eq_nil_iff.mp hnil).1)
  intro c hc
  rw [hsplit, List.getLast?_append_of_ne_nil _ hne, List.getLast?_append, Option.mem_def,
    Option.or_eq_some_iff] at hc
  rw [beq_eq_false_iff_ne]
  obtain hc | ⟨-, hc⟩ := hc
  · exact ne_slash_of_getLast?_slashed site.getLast?_segments
      (fun s hs => site.slash_not_mem_of_mem_segments hs) c hc
  · rintro rfl
    exact absurd (List.all_eq_true.mp site.authority_plain _ (List.mem_of_getLast? hc))
      (by decide)

/-- Slashes at the end of a path do not belong to the path of the site. -/
theorem dropTrailing_path {slashes : List Char} (h : ∀ c ∈ slashes, c = '/') :
    Text.dropTrailing (· == '/') (site.path.toList ++ slashes) = site.path.toList := by
  rw [Text.dropTrailing_append_of_all fun c hc => beq_iff_eq.mpr (h c hc),
    Text.dropTrailing_eq_self_iff, path, String.toList_ofList]
  have hencoded : ∀ c ∈ (slashed (site.segments.map fun s =>
      encodeExcept pathKeeps s.toList)).getLast?, c ≠ '/' := by
    refine ne_slash_of_getLast?_slashed ?_ ?_
    · rw [List.getLast?_map]
      intro h
      obtain ⟨s, hs, hnil⟩ := Option.map_eq_some_iff.mp h
      refine encodeExcept_ne_nil ?_ hnil
      intro hs'
      refine site.last_ne ?_
      rw [hs, String.toList_eq_nil_iff.mp hs']
    · intro s hs
      obtain ⟨segment, hsegment, rfl⟩ := List.mem_map.mp hs
      exact slash_not_mem_encodeExcept
        (site.slash_not_mem_of_mem_segments (List.mem_map_of_mem hsegment))
  intro c hc
  rw [beq_eq_false_iff_ne]
  exact hencoded c hc

/-- Nothing is dropped of slashes. -/
theorem trimmed_of_slashes {slashes : List Char} (h : ∀ c ∈ slashes, c = '/') :
    trimmed slashes = slashes := by
  refine trimmed_eq_self_iff.mpr ⟨?_, ?_⟩
  · intro c hc
    rw [h c hc]
    decide
  · intro c hc
    rw [h c (List.mem_of_getLast? hc)]
    decide

/-- The address of a site with slashes at its end is read part by part. -/
theorem parse?_slashes (rules : NameRules) {slashes : List Char} (h : ∀ c ∈ slashes, c = '/') :
    parse? rules (site.text ++ String.ofList slashes) = (site.server? rules).map fun server => {
      scheme := site.scheme
      authority := server
      segments := pathOf (site.written ++ slashes) } := by
  have hkeeps : ∀ c ∈ slashes, (!endsPath c) = true := by
    intro c hc
    rw [h c hc]
    decide
  have htake := List.takeWhile_eq_self_iff.mpr hkeeps
  have htail : ∀ c ∈ (trimmed slashes).head?, isSlash c = true ∨ endsPath c = true := by
    intro c hc
    rw [trimmed_of_slashes h] at hc
    rw [h c (List.mem_of_head? hc)]
    exact .inl (by decide)
  rw [site.parse?_append rules htail, trimmed_of_slashes h, htake,
    List.dropWhile_eq_nil_iff.mpr hkeeps]
  rfl

/-- The path of an address that is written behind a site is that of the site with the slashes behind
it. -/
theorem path_of_segments {slashes : List Char} (h : ∀ c ∈ slashes, c = '/')
    (hne : site.segments ≠ [] ∨ slashes ≠ []) {u : Url}
    (hu : u.segments = pathOf (site.written ++ slashes)) :
    u.path.toList = site.path.toList ++ slashes := by
  have hnames : ∀ s ∈ site.segments.map String.toList ++ slashes.map (fun _ => []),
      (∀ c ∈ s, isSlash c = false) ∧ isDots s = false := by
    intro s hs
    obtain hs | hs := List.mem_append.mp hs
    · exact site.slashless_of_mem_segments hs
    · obtain ⟨_, -, rfl⟩ := List.mem_map.mp hs
      exact ⟨nofun, rfl⟩
  have hnames_ne : site.segments.map String.toList ++ slashes.map (fun _ => []) ≠ [] := by
    intro hnil
    obtain ⟨hsegments, hslashes⟩ := List.append_eq_nil_iff.mp hnil
    obtain hne | hne := hne
    · exact hne (List.map_eq_nil_iff.mp hsegments)
    · exact hne (List.map_eq_nil_iff.mp hslashes)
  have hwritten : site.written ++ slashes =
      slashed (site.segments.map String.toList ++ slashes.map (fun _ => [])) := by
    rw [slashed_append, slashed_map_nil h, ← written]
  rw [hwritten, pathOf_names hnames_ne hnames] at hu
  have hempty : encodeExcept pathKeeps [] = [] := rfl
  have hpath := path_toList (u := u) (by rw [hu]; simpa using hnames_ne)
  rw [hu, List.map_append, List.map_append, slashed_append] at hpath
  rw [hpath, path, String.toList_ofList, List.map_map, List.map_map, List.map_map, List.map_map]
  simp only [Function.comp_def, String.toList_ofList, hempty, slashed_map_nil h]

/-- Slashes at the end do not count. -/
theorem exists_isAt {rules : NameRules} {server : String}
    (hserver : site.server? rules = some server) {slashes : List Char}
    (h : ∀ c ∈ slashes, c = '/') :
    ∃ u, parse? rules (site.text ++ String.ofList slashes) = some u ∧ IsAt rules u site := by
  have hparse := site.parse?_slashes rules h
  rw [hserver, Option.map_some] at hparse
  refine ⟨_, hparse, rfl, hserver, ?_⟩
  rw [ownPath, ← String.toList_inj, String.toList_ofList]
  by_cases hne : site.segments ≠ [] ∨ slashes ≠ []
  · rw [site.path_of_segments h hne rfl, site.dropTrailing_path h]
  · obtain ⟨hsegments, hslashes⟩ : site.segments = [] ∧ slashes = [] := by simpa using hne
    simp only [written, Url.path, path, hsegments, hslashes]
    decide

/-- The address of a collection is written without slashes at its end. -/
theorem parse?_collection (rules : NameRules) (k : Collection) :
    parse? rules (site.text ++ k.path) = (site.server? rules).map fun server => {
      scheme := site.scheme
      authority := server
      segments := pathOf ((site.collection k).written ++ []) } := by
  have hslashes : ∀ c ∈ ([] : List Char), c = '/' := nofun
  have htext : site.text ++ k.path = (site.collection k).text ++ String.ofList [] := by
    rw [collection_text]
    simp
  rw [htext, (site.collection k).parse?_slashes rules hslashes, collection_server?]
  rfl

/-- The address of a collection is read as one below the path of the site. -/
theorem exists_parse?_collection {rules : NameRules} {server : String}
    (hserver : site.server? rules = some server) (k : Collection) :
    ∃ u, parse? rules (site.text ++ k.path) = some u ∧ u.scheme = site.scheme ∧
      u.authority = server ∧ u.path = site.path ++ k.path ∧ u.query = none ∧
      u.fragment = none := by
  have hslashes : ∀ c ∈ ([] : List Char), c = '/' := nofun
  have hparse := site.parse?_collection rules k
  rw [hserver, Option.map_some] at hparse
  refine ⟨_, hparse, rfl, rfl, ?_, rfl, rfl⟩
  rw [← collection_path, ← String.toList_inj, (site.collection k).path_of_segments hslashes
    (.inl (by simp [collection])) rfl, List.append_nil]

/-- What follows a question mark or a number sign is no part of the path. -/
theorem parse?_mark (rules : NameRules) {mark : Char} (hmark : endsPath mark = true)
    (rest : List Char) :
    ∃ query fragment, parse? rules (site.text ++ String.ofList (mark :: rest)) =
      (site.server? rules).map fun server => {
        scheme := site.scheme
        authority := server
        segments := pathOf site.written
        query, fragment } := by
  have hvisible : isControlOrSpace mark = false := by
    have hmark' : mark = '?' ∨ mark = '#' := by simpa [endsPath] using hmark
    obtain rfl | rfl := hmark' <;> decide
  have hparse := site.parse?_append rules (head?_trimmed (.inr hmark) rest)
  rw [trimmed_cons hvisible, List.takeWhile_cons_of_neg (by rw [hmark]; decide),
    List.append_nil] at hparse
  exact ⟨_, _, hparse⟩

/-- Behind a mark the segments are those of the site. -/
theorem segments_of_mark {rules : NameRules} {mark : Char} (hmark : endsPath mark = true)
    {rest : List Char} {u : Url}
    (h : parse? rules (site.text ++ String.ofList (mark :: rest)) = some u) :
    u.segments = pathOf site.written := by
  obtain ⟨query, fragment, hparse⟩ := site.parse?_mark rules hmark rest
  rw [hparse, Option.map_eq_some_iff] at h
  obtain ⟨server, -, rfl⟩ := h
  rfl

end Site

/-- How many slashes follow the scheme makes no difference. -/
theorem parse?_colon_slash (rules : NameRules) (scheme : Scheme) (rest : String) :
    parse? rules (scheme.name ++ ":/" ++ rest) = parse? rules (scheme.name ++ "://" ++ rest) := by
  have hcleaned : ∀ slashes : String, slashes = ":/" ∨ slashes = "://" →
      cleaned (scheme.name ++ slashes ++ rest).toList =
        scheme.name.toList ++ (slashes.toList ++ trimmed rest.toList) := by
    intro slashes hslashes
    rw [String.toList_append, cleaned_append, String.toList_append, List.append_assoc]
    · cases scheme <;> simp [Scheme.name]
    · obtain rfl | rfl := hslashes <;> cases scheme <;> simp [Scheme.name, isControlOrSpace]
  have hone := hcleaned ":/" (.inl rfl)
  have htwo := hcleaned "://" (.inr rfl)
  change _ = scheme.name.toList ++ ':' :: ('/' :: trimmed rest.toList) at hone
  change _ = scheme.name.toList ++ ':' :: ('/' :: '/' :: trimmed rest.toList) at htwo
  have hdrop : ∀ s : List Char, ('/' :: s).dropWhile isSlash = s.dropWhile isSlash := fun s =>
    List.dropWhile_cons_of_pos rfl
  rw [parse?, parse?, hone, htwo, afterScheme?_append, afterScheme?_append]
  dsimp only [Option.bind_eq_bind, Option.bind_some]
  rw [hdrop ('/' :: trimmed rest.toList)]

/-- The query is one named value. -/
def HasParameter (u : Url) (name value : String) : Prop :=
  ∃ left right : List Char, u.query = some (String.ofList (left ++ '=' :: right)) ∧
    (∀ c ∈ left ++ right, c ≠ '=' ∧ c ≠ '&' ∧ c ≠ '#') ∧
    formDecode left = Text.Utf8.encode name ∧ formDecode right = Text.Utf8.encode value

/-- A value that was added to an empty query is all of it. -/
theorem hasParameter_addQuery {u : Url} (h : u.query = none) (name value : String) :
    (u.addQuery name value).HasParameter name value := by
  refine ⟨formEncode name.toList, formEncode value.toList, ?_, ?_, formDecode_formEncode _,
    formDecode_formEncode _⟩
  · rw [addQuery, h]
  · intro c hc
    obtain hc | hc := List.mem_append.mp hc
    · exact ne_mark_of_mem_formEncode hc
    · exact ne_mark_of_mem_formEncode hc

end Url

/-! ## Requests and endpoints -/

/-- Where the request for a call goes when the endpoint is this address: to the endpoint's server,
at the path of the call below that of the endpoint.  A lookup has its parameter for a query; a
change names the resource, if its identifier stands for itself. -/
structure Call.GoesTo (call : Call) (endpoint url : Url) : Prop where
  scheme : url.scheme = endpoint.scheme
  authority : url.authority = endpoint.authority
  lookup : ∀ p, call.parameter? = some p →
    url.path = endpoint.ownPath ++ call.path ∧ url.HasParameter p.1 p.2
  change : ∀ method resource, call.changed? = some (method, resource) →
    Url.StandsForItself resource.guid →
      url.Names (endpoint.ownPath ++ resource.collection.path) resource.guid

/-- A call with a path of its own looks something up or changes a resource. -/
theorem Call.lookup_or_change {call : Call} {rest : String} (h : call.path = "/v3/" ++ rest) :
    (∃ (k : Collection) (p : String × String), call.path = k.path ∧ call.parameter? = some p ∧
      call.changed? = none) ∨ ∃ method resource, call.changed? = some (method, resource) := by
  cases call with
  | currentUser =>
    have hlength := congrArg (fun s => s.toList.length) h
    simp [path] at hlength
  | findUser username => exact .inl ⟨.users, _, rfl, rfl, rfl⟩
  | deleteUser user => exact .inr ⟨_, _, rfl⟩
  | findBroker name => exact .inl ⟨.serviceBrokers, _, rfl, rfl, rfl⟩
  | updateBroker guid update => exact .inr ⟨_, _, rfl⟩

variable {rules : Url.NameRules}

/-- The request for a lookup goes below the endpoint, with its parameter for a query. -/
theorem Call.goesTo_of_lookup {site : Url.Site} {u v : Url} (hu : Url.IsAt rules u site)
    {call : Call} {k : Collection} {p : String × String} (hpath : call.path = k.path)
    (hparameter : call.parameter? = some p) (hchanged : call.changed? = none)
    (hv : Url.parse? rules (site.text ++ call.path) = some v) :
    call.GoesTo u (v.addQuery p.1 p.2) := by
  obtain ⟨v', hv', hscheme, hauthority, hvpath, hquery, -⟩ :=
    site.exists_parse?_collection hu.server k
  rw [hpath, hv'] at hv
  obtain rfl := Option.some.inj hv
  refine ⟨hscheme.trans hu.scheme.symm, hauthority, ?_, ?_⟩
  · intro p' hp'
    obtain rfl : p = p' := Option.some.inj (hparameter.symm.trans hp')
    rw [hu.ownPath, hpath, ← hvpath]
    exact ⟨rfl, Url.hasParameter_addQuery hquery p.1 p.2⟩
  · intro method resource hsome
    rw [hchanged] at hsome
    cases hsome

/-- The request for a change goes below the endpoint, and names the resource if it can be named. -/
theorem Call.goesTo_of_change {site : Url.Site} {u v : Url} (hu : Url.IsAt rules u site)
    {call : Call} {method : Http.Method} {resource : Resource}
    (hchanged : call.changed? = some (method, resource))
    (hv : Url.parse? rules (site.text ++ call.path) = some v) : call.GoesTo u v := by
  obtain ⟨-, hparameter⟩ := Call.path_of_changed hchanged
  rw [site.text_append_path hchanged, Url.Site.parse?_below, Url.Site.collection_server?,
    hu.server] at hv
  obtain rfl := Option.some.inj hv
  refine ⟨hu.scheme.symm, rfl, ?_, ?_⟩
  · intro p hp
    rw [hparameter] at hp
    cases hp
  · intro method' resource' hchanged' hself
    obtain ⟨-, rfl⟩ := Prod.mk.inj (Option.some.inj (hchanged.symm.trans hchanged'))
    rw [hu.ownPath, ← Url.Site.collection_path]
    exact (site.collection resource.collection).names_of_standsForItself hself

/-- What a sequence of calls sends on behalf of a configuration. -/
def Config.sends (config : Config) (net : Http.Network σ) (calls : List Call) (remote : σ) :
    List Http.Exchange :=
  ((Gateway.ofConfig net.logged config).after calls (remote, [])).2

namespace Config

variable {config : Config} {net : Http.Network σ} {calls : List Call} {remote : σ}

/-- Whatever is sent, is sent for a call, by the client of the endpoint. -/
theorem exists_call_of_mem_sends {e : Http.Exchange} (h : e ∈ config.sends net calls remote) :
    ∃ endpoint, config.apiEndpoint = some endpoint ∧ config.hasSession = true ∧
      ∃ call ∈ calls, (∃ rest, call.path = "/v3/" ++ rest) ∧ ∃ u,
        Url.parse? net.nameRules
          (String.ofList (Text.dropTrailing (· == '/') endpoint.toList) ++ call.path) = some u ∧
        e.1.url = call.parameter?.elim u fun p => u.addQuery p.1 p.2 := by
  unfold sends Gateway.ofConfig at h
  cases hclient : PlatformClient.ofConfig? config with
  | none =>
    rw [hclient, Gateway.after_unconfigured] at h
    cases h
  | some c =>
    rw [hclient] at h
    obtain hnil | ⟨call, hcall, hrequest⟩ := c.mem_traffic net remote [] h
    · cases hnil
    · obtain ⟨hpath, u, hu, hurl⟩ := PlatformClient.exists_url_of_requestFor? hrequest
      unfold PlatformClient.ofConfig? at hclient
      split at hclient
      · rename_i endpoint token hendpoint htoken
        split at hclient
        · rename_i hsession
          obtain rfl := Option.some.inj hclient
          exact ⟨endpoint, hendpoint, hsession, call, hcall, hpath, u, hu, hurl⟩
        · cases hclient
      · cases hclient

variable {endpoint : String}

/-- Nothing is sent for an endpoint behind whose site the calls are written, if the site has no
server. -/
theorem sends_eq_nil (hendpoint : config.apiEndpoint = some endpoint) {site : Url.Site}
    (hserver : site.server? net.nameRules = none)
    (hwritten : ∀ rest, ∃ c tail, (Url.isSlash c = true ∨ Url.endsPath c = true) ∧
      String.ofList (Text.dropTrailing (· == '/') endpoint.toList) ++ ("/v3/" ++ rest) =
        site.text ++ String.ofList (c :: tail)) : config.sends net calls remote = [] := by
  rw [List.eq_nil_iff_forall_not_mem]
  intro e he
  obtain ⟨endpoint', hendpoint', -, call, -, ⟨rest, hpath⟩, v, hv, -⟩ :=
    exists_call_of_mem_sends he
  obtain rfl : endpoint = endpoint' := Option.some.inj (hendpoint.symm.trans hendpoint')
  obtain ⟨c, tail, hc, htext⟩ := hwritten rest
  rw [hpath, htext] at hv
  have hsome := site.server?_of_parse? hc hv
  rw [hserver] at hsome
  cases hsome

/-- Whatever is sent for a site goes where its call goes. -/
theorem goesTo_of_mem_sends (hendpoint : config.apiEndpoint = some endpoint) {site : Url.Site}
    {slashes : List Char} (hslashes : ∀ c ∈ slashes, c = '/')
    (hsite : endpoint = site.text ++ String.ofList slashes) {u : Url}
    (hu : Url.IsAt net.nameRules u site) {e : Http.Exchange}
    (he : e ∈ config.sends net calls remote) :
    ∃ call ∈ calls, call.GoesTo u e.1.url := by
  obtain ⟨endpoint', hendpoint', -, call, hcall, ⟨_, hpath⟩, v, hv, hurl⟩ :=
    exists_call_of_mem_sends he
  obtain rfl : endpoint = endpoint' := Option.some.inj (hendpoint.symm.trans hendpoint')
  rw [hsite, site.dropTrailing_text hslashes, String.ofList_toList] at hv
  refine ⟨call, hcall, ?_⟩
  obtain ⟨k, p, hcollection, hparameter, hchanged⟩ | ⟨method, resource, hchanged⟩ :=
    Call.lookup_or_change hpath
  · rw [hurl, hparameter]
    exact Call.goesTo_of_lookup hu hcollection hparameter hchanged hv
  · obtain ⟨-, hparameter⟩ := Call.path_of_changed hchanged
    rw [hurl, hparameter]
    exact Call.goesTo_of_change hu hchanged hv

/-- A mark stays at the end of an endpoint, so that the path of a call is written behind it. -/
theorem dropTrailing_mark (site : Url.Site) {mark : Char} (hmark : Url.endsPath mark = true)
    (rest : List Char) (path : String) :
    String.ofList (Text.dropTrailing (· == '/')
        (site.text ++ String.ofList (mark :: rest)).toList) ++ path =
      site.text ++ String.ofList (mark :: (Text.dropTrailing (· == '/') rest ++ path.toList)) := by
  have hslash : (mark == '/') = false := by
    rw [beq_eq_false_iff_ne]
    rintro rfl
    exact absurd hmark (by decide)
  rw [String.toList_append, String.toList_ofList,
    Text.dropTrailing_append_cons (p := (· == '/')) hslash, ← String.toList_inj]
  simp

/-- Whatever is sent for an endpoint with a mark goes to the endpoint's own path. -/
theorem path_of_mem_sends (hendpoint : config.apiEndpoint = some endpoint) {site : Url.Site}
    {mark : Char} (hmark : Url.endsPath mark = true) {rest : List Char}
    (hsite : endpoint = site.text ++ String.ofList (mark :: rest)) {u : Url}
    (hu : Url.parse? net.nameRules endpoint = some u) {e : Http.Exchange}
    (he : e ∈ config.sends net calls remote) : e.1.url.path = u.path := by
  obtain ⟨endpoint', hendpoint', -, call, hcall, -, v, hv, hurl⟩ := exists_call_of_mem_sends he
  obtain rfl : endpoint = endpoint' := Option.some.inj (hendpoint.symm.trans hendpoint')
  rw [hsite, dropTrailing_mark site hmark] at hv
  rw [hsite] at hu
  have hvsegments := site.segments_of_mark hmark hv
  have husegments := site.segments_of_mark hmark hu
  have hsame : e.1.url.segments = v.segments := by
    rw [hurl]
    cases call.parameter? <;> rfl
  rw [Url.path, Url.path, hsame, hvsegments, husegments]

/-- Whatever is sent for an endpoint of slashes goes to a server named `v3`. -/
theorem authority_of_mem_sends (hendpoint : config.apiEndpoint = some endpoint) {scheme : Scheme}
    {slashes : List Char} (hslashes : ∀ c ∈ slashes, c = '/')
    (hscheme : endpoint = scheme.name ++ ":" ++ String.ofList slashes) {e : Http.Exchange}
    (he : e ∈ config.sends net calls remote) : e.1.url.authority = "v3" := by
  obtain ⟨endpoint', hendpoint', -, call, hcall, ⟨rest, hpath⟩, v, hv, hurl⟩ :=
    exists_call_of_mem_sends he
  obtain rfl : endpoint = endpoint' := Option.some.inj (hendpoint.symm.trans hendpoint')
  let site : Url.Site := ⟨scheme, "v3", [], by decide, by decide, nofun, by decide⟩
  have hbase : Text.dropTrailing (· == '/') endpoint.toList = (scheme.name ++ ":").toList := by
    rw [hscheme, String.toList_append, String.toList_ofList,
      Text.dropTrailing_append_of_all fun c hc => beq_iff_eq.mpr (hslashes c hc)]
    cases scheme <;> decide
  have hwritten : (scheme.name ++ ":") ++ call.path = scheme.name ++ ":/" ++ ("v3/" ++ rest) := by
    rw [hpath, ← String.toList_inj]
    simp
  have hsite : scheme.name ++ "://" ++ ("v3/" ++ rest) = site.text ++ "/" ++ rest := by
    rw [← String.toList_inj]
    simp [site, Url.Site.text, Url.Site.written, Url.slashed]
  have hname : Url.IsServerName "v3".toList :=
    ⟨by decide, by decide, by decide, by decide, by decide⟩
  have hserver : site.server? net.nameRules = some "v3" := by
    rw [Url.Site.server?, Url.server?_name hname, String.ofList_toList]
  rw [hbase, String.ofList_toList, hwritten, Url.parse?_colon_slash, hsite,
    site.parse?_below, hserver] at hv
  obtain rfl := Option.some.inj hv
  rw [hurl]
  cases call.parameter? <;> rfl

/-- Where the endpoint is a site with slashes at its end or none, what is sent goes to the server of
the site, at the path of its call, and nothing is sent if the site has no server.  Behind a question
mark or a number sign the path of the call is lost, and where there are only slashes after the
scheme it is read as the server. -/
theorem requests_of_endpoint (net : Http.Network σ) {config : Config} {endpoint : String}
    (hendpoint : config.apiEndpoint = some endpoint) (calls : List Call) (remote : σ) :
    (∀ (site : Url.Site) (slashes : List Char), (∀ c ∈ slashes, c = '/') →
      endpoint = site.text ++ String.ofList slashes →
        (site.server? net.nameRules = none ∧ config.sends net calls remote = []) ∨
        ∃ u, Url.parse? net.nameRules endpoint = some u ∧ Url.IsAt net.nameRules u site ∧
          ∀ e ∈ config.sends net calls remote, ∃ call ∈ calls, call.GoesTo u e.1.url) ∧
      (∀ (site : Url.Site) (mark : Char) (rest : List Char), Url.endsPath mark = true →
        endpoint = site.text ++ String.ofList (mark :: rest) →
          (site.server? net.nameRules = none ∧ config.sends net calls remote = []) ∨
          ∃ u, Url.parse? net.nameRules endpoint = some u ∧
            ∀ e ∈ config.sends net calls remote, e.1.url.path = u.path) ∧
      ∀ (scheme : Scheme) (slashes : List Char), (∀ c ∈ slashes, c = '/') →
        endpoint = scheme.name ++ ":" ++ String.ofList slashes →
          ∀ e ∈ config.sends net calls remote, e.1.url.authority = "v3" := by
  refine ⟨?_, ?_, ?_⟩
  · intro site slashes hslashes hsite
    cases hserver : site.server? net.nameRules with
    | none =>
      refine .inl ⟨rfl, sends_eq_nil hendpoint hserver fun rest =>
        ⟨'/', "v3/".toList ++ rest.toList, .inl rfl, ?_⟩⟩
      rw [hsite, site.dropTrailing_text hslashes, ← String.toList_inj]
      simp
    | some server =>
      obtain ⟨u, hu, hat⟩ := site.exists_isAt hserver hslashes
      rw [← hsite] at hu
      exact .inr ⟨u, hu, hat, fun e he => goesTo_of_mem_sends hendpoint hslashes hsite hat he⟩
  · intro site mark rest hmark hsite
    cases hserver : site.server? net.nameRules with
    | none =>
      refine .inl ⟨rfl, sends_eq_nil hendpoint hserver fun path => ?_⟩
      rw [hsite, dropTrailing_mark site hmark]
      exact ⟨mark, _, .inr hmark, rfl⟩
    | some server =>
      obtain ⟨query, fragment, hu⟩ := site.parse?_mark net.nameRules hmark rest
      rw [← hsite, hserver, Option.map_some] at hu
      exact .inr ⟨_, hu, fun e he => path_of_mem_sends hendpoint hmark hsite hu he⟩
  · intro scheme slashes hslashes hscheme e he
    exact authority_of_mem_sends hendpoint hslashes hscheme he

/-- A lookup goes to the endpoint of a configuration file, below the path there. -/
theorem requests_of_endpoint_with_path :
    let config : Config := { apiEndpoint := some "http://h/cf//", accessToken := some "t" }
    let bytes := Text.Utf8.encode "api_endpoint = \"http://h/cf//\"\naccess_token = \"t\""
    let sent := config.sends Http.Network.down [.findUser "a b"] ()
    load "c" (.file bytes) = .ok config ∧ config.apiEndpoint = some "http://h/cf//" ∧
      ∃ e ∈ sent, e.1.url.authority = "h" ∧ e.1.url.path = "/cf/v3/users" ∧
        e.1.url.HasParameter "usernames" "a b" := by
  intro config bytes sent
  have hload : load "c" (.file bytes) = .ok config := by decide +kernel
  have hendpoint : config.apiEndpoint = some "http://h/cf//" := rfl
  let site : Url.Site :=
    ⟨.http, "h", ["cf"], by decide, by decide, by simpa using ⟨by decide, by decide⟩, by decide⟩
  obtain ⟨hbelow, -, -⟩ := requests_of_endpoint Http.Network.down hendpoint [.findUser "a b"] ()
  have hserver : site.server? (Http.Network.down : Http.Network Unit).nameRules = some "h" := by
    decide +kernel
  obtain ⟨hnone, -⟩ | ⟨u, -, hat, hgoes⟩ := hbelow site ['/', '/'] (by simp) (by decide +kernel)
  · rw [hserver] at hnone
    cases hnone
  have hlength : sent.length = 1 := by decide +kernel
  obtain ⟨e, he⟩ := List.length_eq_one_iff.mp hlength
  have hmem : e ∈ sent := by
    rw [he]
    exact List.mem_singleton_self e
  obtain ⟨call, hcall, hgoesTo⟩ := hgoes e hmem
  obtain rfl := List.mem_singleton.mp hcall
  obtain ⟨hpath, hparameter⟩ := hgoesTo.lookup _ rfl
  rw [hat.ownPath] at hpath
  have hauthority : u.authority = "h" := Option.some.inj (hat.server.symm.trans hserver)
  exact ⟨hload, hendpoint, e, hmem, hgoesTo.authority.trans hauthority,
    hpath.trans (by decide +kernel), hparameter⟩

/-- Three endpoints that a configuration file may name, and what is sent for a lookup. -/
theorem requests_of_endpoint_astray :
    let config := fun endpoint : String =>
      ({ apiEndpoint := some endpoint, accessToken := some "t" } : Config)
    let loads := fun endpoint : String =>
      load "c" (.file (Text.Utf8.encode
        ("api_endpoint = \"" ++ endpoint ++ "\"\naccess_token = \"t\"")))
    let sent := fun endpoint : String =>
      ((config endpoint).sends Http.Network.down [.findUser "ann"] ()).map
        fun e => (e.1.url.authority, e.1.url.target)
    (loads "http:///" = .ok (config "http:///") ∧
        sent "http:///" = [("v3", "/users?usernames=ann")]) ∧
      (loads "http://h?" = .ok (config "http://h?") ∧
        sent "http://h?" = [("h", "/?/v3/users&usernames=ann")]) ∧
      (loads "http://h#" = .ok (config "http://h#") ∧
        sent "http://h#" = [("h", "/?usernames=ann")]) := by
  decide +kernel

end Config

end PlatformAdmin
