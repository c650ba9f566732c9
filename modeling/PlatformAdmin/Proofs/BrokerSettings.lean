import PlatformAdmin.Proofs.Json.Printing
import PlatformAdmin.Proofs.Resources

/-!
# The settings in the body of an update

New settings of a service broker travel in the body of a request, as a JSON object with the URL and
the way to authenticate.  `Json.HoldsSettings` says what such an object has to be, by its members
alone: these and no others, in any order.  Whatever characters the settings hold, the body is a text
of one JSON value, which holds just these settings; so no setting can pass for another member, and
two updates have two bodies.
-/

set_option autoImplicit false

namespace PlatformAdmin

variable {σ : Type}

namespace Json

variable {v : Json} {members members' : List (String × Json)}

/-- An object with exactly these members, in any order. -/
def HasExactly (v : Json) (members : List (String × Json)) : Prop :=
  ∃ ms, v = .ofMembers ms ∧ ms.Perm members

/-- Two objects are the same only if their members are. -/
theorem ofMembers_inj {ms ms' : List (String × Json)} (h : ofMembers ms = ofMembers ms') :
    ms = ms' := by
  refine List.map_injective_iff.mpr ?_ (Json.object.inj h)
  rintro ⟨key, v⟩ ⟨key', v'⟩ hm
  obtain ⟨hkey, rfl⟩ := Prod.mk.inj hm
  exact congrArg (·, v) (Option.some.inj hkey)

/-- The members of a value are determined up to their order. -/
theorem HasExactly.perm (h : v.HasExactly members) (h' : v.HasExactly members') :
    members.Perm members' := by
  obtain ⟨ms, rfl, hperm⟩ := h
  obtain ⟨ms', heq, hperm'⟩ := h'
  obtain rfl := ofMembers_inj heq
  exact hperm.symm.trans hperm'

/-- The object under which new settings of a service broker travel. -/
def HoldsSettings (v : Json) (update : BrokerUpdate) : Prop :=
  ∃ authentication credentials : Json,
    v.HasExactly [("url", .ofText update.url), ("authentication", authentication)] ∧
      authentication.HasExactly [("type", .ofText "basic"), ("credentials", credentials)] ∧
      credentials.HasExactly
        [("username", .ofText update.username), ("password", .ofText update.password.value)]

/-- Two members with two keys are known by their keys. -/
theorem HasExactly.eq_of_pair {key key' : String} {a b a' b' : Json} (hne : key ≠ key')
    (h : v.HasExactly [(key, a), (key', b)]) (h' : v.HasExactly [(key, a'), (key', b')]) :
    a = a' ∧ b = b' := by
  have hsubset := (h.perm h').subset
  have hfirst : a = a' := by
    have hmem := hsubset (List.mem_cons_self : (key, a) ∈ [(key, a), (key', b)])
    simpa [hne] using hmem
  have hsecond : b = b' := by
    have hmem := hsubset (List.mem_cons_of_mem _ List.mem_cons_self :
      (key', b) ∈ [(key, a), (key', b)])
    simpa [hne.symm] using hmem
  exact ⟨hfirst, hsecond⟩

/-- One object holds the settings of one update. -/
theorem HoldsSettings.unique {update update' : BrokerUpdate} (h : v.HoldsSettings update)
    (h' : v.HoldsSettings update') : update = update' := by
  obtain ⟨authentication, credentials, hv, hauthentication, hcredentials⟩ := h
  obtain ⟨authentication', credentials', hv', hauthentication', hcredentials'⟩ := h'
  have htext : ∀ {s s' : String}, ofText s = ofText s' → s = s' := fun hs =>
    Option.some.inj (Json.string.inj hs)
  obtain ⟨hurl, rfl⟩ := hv.eq_of_pair (by decide) hv'
  obtain ⟨-, rfl⟩ := hauthentication.eq_of_pair (by decide) hauthentication'
  obtain ⟨husername, hpassword⟩ := hcredentials.eq_of_pair (by decide) hcredentials'
  obtain ⟨username, ⟨password⟩, url⟩ := update
  obtain ⟨username', ⟨password'⟩, url'⟩ := update'
  obtain rfl := htext hurl
  obtain rfl := htext husername
  obtain rfl := htext hpassword
  rfl

end Json

namespace PlatformClient

variable {c : PlatformClient} {net : Http.Network σ} {remote : σ} {guid : String}
  {update : BrokerUpdate}

/-- No member of the body is given twice. -/
theorem updateBody_wellFormed (update : BrokerUpdate) : (updateBody update).WellFormed := by
  have hcredentials : (Json.ofMembers [("password", .ofText update.password.value),
      ("username", .ofText update.username)]).WellFormed := by
    apply Json.WellFormed.ofMembers
    simpa using ⟨.string _, .string _⟩
  have hauthentication : (Json.ofMembers [("credentials", .ofMembers [
      ("password", .ofText update.password.value), ("username", .ofText update.username)]),
      ("type", .ofText "basic")]).WellFormed := by
    apply Json.WellFormed.ofMembers
    simpa using ⟨hcredentials, .string _⟩
  apply Json.WellFormed.ofMembers
  simpa using ⟨hauthentication, .string _⟩

/-- The body holds the settings it is made for. -/
theorem updateBody_holdsSettings (update : BrokerUpdate) :
    (updateBody update).HoldsSettings update :=
  ⟨_, _, ⟨_, rfl, .swap _ _ _⟩, ⟨_, rfl, .swap _ _ _⟩, ⟨_, rfl, .swap _ _ _⟩⟩

/-- What is sent for an update is a request to change, with the body for the settings. -/
theorem request_of_update {e : Http.Exchange}
    (h : e ∈ c.sent net (.updateBroker guid update) remote) :
    e.1.method = .patch ∧ e.1.body = some (updateBody update).compact := by
  have hok := eq_ok_of_toOption_eq_some (requestFor?_of_mem_sent h)
  obtain ⟨-, u, -, -, hrequest⟩ := c.request_eq_ok_iff.mp hok
  rw [← hrequest]
  exact ⟨rfl, rfl⟩

/-- The body of an update is a text of one JSON value, which holds exactly the settings; bodies that
are the same hold the same settings. -/
theorem update_body_holds_settings (c : PlatformClient) (net : Http.Network σ) :
    (∀ guid update remote, ∀ e ∈ c.sent net (.updateBroker guid update) remote,
      e.1.method = .patch ∧ ∃ body, e.1.body = some body ∧
        (∃ v : Json, v.IsText (body.toList.map some)) ∧
        ∀ v : Json, v.IsText (body.toList.map some) → v.HoldsSettings update) ∧
      ∀ guid update remote, ∀ e ∈ c.sent net (.updateBroker guid update) remote,
        ∀ guid' update' remote', ∀ e' ∈ c.sent net (.updateBroker guid' update') remote',
          e.1.body = e'.1.body → update = update' := by
  have hiff := fun update => (updateBody_wellFormed update).isText_compact_iff
  constructor
  · intro guid update remote e he
    obtain ⟨hmethod, hbody⟩ := request_of_update he
    refine ⟨hmethod, _, hbody, ⟨_, (hiff update _).mpr rfl⟩, ?_⟩
    intro v hv
    rw [(hiff update v).mp hv]
    exact updateBody_holdsSettings update
  · intro guid update remote e he guid' update' remote' e' he' hsame
    rw [(request_of_update he).2, (request_of_update he').2] at hsame
    have htext := (hiff update _).mpr rfl
    rw [Option.some.inj hsame] at htext
    have hvalue := (hiff update' _).mp htext
    have hsettings := updateBody_holdsSettings update
    rw [hvalue] at hsettings
    exact hsettings.unique (updateBody_holdsSettings update')

/-- A password that looks like the end of its string with a further member behind it. -/
theorem update_body_holds_settings_quoted :
    let update : BrokerUpdate := ⟨"a\\\n", ⟨"\",\"type\":\"none"⟩, "https://é"⟩
    let server : Http.ScriptedServer := { authority := "h", script := [{ status := 204 }] }
    let c := ofSession "http://h" "t" none false
    ∃ e ∈ c.sent Http.ScriptedServer.network (.updateBroker "g" update) server,
      ∃ body, e.1.body = some body ∧
        body = "\x7b\"authentication\":\x7b\"credentials\":\x7b" ++
          "\"password\":\"\\\",\\\"type\\\":\\\"none\",\"username\":\"a\\\\\\n\"\x7d," ++
          "\"type\":\"basic\"\x7d,\"url\":\"https://é\"\x7d" ∧
        ∃ v : Json, v.IsText (body.toList.map some) ∧ v.HoldsSettings update := by
  intro update server c
  have hlength :
      (c.sent Http.ScriptedServer.network (.updateBroker "g" update) server).length = 1 := by
    decide +kernel
  obtain ⟨e, he⟩ := List.length_eq_one_iff.mp hlength
  have hmem : e ∈ c.sent Http.ScriptedServer.network (.updateBroker "g" update) server := by
    rw [he]
    exact List.mem_singleton_self e
  obtain ⟨hbodies, -⟩ := update_body_holds_settings c Http.ScriptedServer.network
  obtain ⟨-, body, hbody, ⟨v, hv⟩, hholds⟩ := hbodies "g" update server e hmem
  refine ⟨e, hmem, body, hbody, ?_, v, hv, hholds v hv⟩
  have hwritten := (request_of_update hmem).2
  rw [hbody] at hwritten
  rw [Option.some.inj hwritten]
  decide +kernel

end PlatformClient

end PlatformAdmin
