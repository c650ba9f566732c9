import Mathlib.Data.List.TakeWhile
import PlatformAdmin.Proofs.Decoding
import PlatformAdmin.Proofs.PercentEncoding
import PlatformAdmin.Url.Server

/-!
# The server that an authority names

What a request keeps of an authority is not what is written there.  An authority of a host and a
port is read part by part, `Url.server?_port`.  From this follows that the port of the scheme goes
without saying, and that a port past the greatest one names no server.  A name in small letters that
ends in no number is kept as it is, whatever the rules for other names are: `Url.server?_name`.
-/

set_option autoImplicit false

namespace PlatformAdmin.Url

variable {rules : NameRules} {scheme : Scheme}

/-! ## Hosts and ports -/

/-- A host without marks of user information, ports and brackets. -/
def IsBareHost (host : List Char) : Prop :=
  ∀ c ∈ host, c ≠ '@' ∧ c ≠ ':' ∧ c ≠ '['

/-- What stands behind the last `@` of a text without one is all of it. -/
theorem takeWhile_reverse_eq {written : List Char} (h : '@' ∉ written) :
    (written.reverse.takeWhile (· != '@')).reverse = written := by
  rw [List.takeWhile_eq_self_iff.mpr, List.reverse_reverse]
  intro c hc
  rw [bne_iff_ne]
  rintro rfl
  exact h (List.mem_reverse.mp hc)

/-- An authority without user information is read as a host and a port. -/
theorem server?_of_not_mem {written : List Char} (h : '@' ∉ written) :
    server? rules scheme written = (host? rules (splitPort false written).1).bind fun host =>
      (port? scheme (splitPort false written).2).map fun port =>
        String.ofList (host ++ port) := by
  have huser : written.take (written.length - (written.length + 1)) = [] := by
    rw [List.take_eq_nil_iff]
    omega
  have hkept : keptUserInfo [] = [] := rfl
  simp only [server?, takeWhile_reverse_eq h, huser, hkept, List.nil_append, Option.bind_eq_bind,
    Option.map_eq_bind]
  rfl

/-- The first colon behind a host parts it from the port. -/
theorem splitPort_append {host : List Char} (hhost : IsBareHost host) (rest : List Char) :
    splitPort false (host ++ rest) =
      (host ++ (splitPort false rest).1, (splitPort false rest).2) := by
  induction host with
  | nil => rfl
  | cons c host ih =>
    obtain ⟨-, hcolon, hbracket⟩ := hhost c List.mem_cons_self
    have hinside : (decide (c = '[') || false && c != ']') = false := by simpa using hbracket
    rw [List.cons_append, splitPort, if_neg fun h => hcolon h.1, hinside,
      ih fun d hd => hhost d (List.mem_cons_of_mem _ hd)]
    rfl

/-- A host and its port are parted at the colon. -/
theorem splitPort_host_port {host : List Char} (hhost : IsBareHost host) (digits : List Char) :
    splitPort false (host ++ ':' :: digits) = (host, some digits) := by
  have hcolon : splitPort false (':' :: digits) = ([], some digits) := rfl
  rw [splitPort_append hhost, hcolon, List.append_nil]

/-- A host and a port hold no mark of user information. -/
theorem not_mem_host_port {host digits : List Char} (hhost : IsBareHost host)
    (hdigits : '@' ∉ digits) : '@' ∉ host ++ ':' :: digits := by
  rw [List.mem_append, List.mem_cons]
  rintro (h | h | h)
  · exact (hhost _ h).1 rfl
  · exact absurd h (by decide)
  · exact hdigits h

/-- A host and a port behind a colon are read one by one. -/
theorem server?_port {host digits : List Char} (hhost : IsBareHost host) (hdigits : '@' ∉ digits) :
    server? rules scheme (host ++ ':' :: digits) = (host? rules host).bind fun host =>
      (port? scheme (some digits)).map fun port => String.ofList (host ++ port) := by
  rw [server?_of_not_mem (not_mem_host_port hhost hdigits), splitPort_host_port hhost]

/-- A port that goes without saying leaves the host by itself. -/
theorem server?_of_port?_eq_nil {written host : List Char} {digits : Option (List Char)}
    (h : '@' ∉ written) (hsplit : splitPort false written = (host, digits))
    (hport : port? scheme digits = some []) :
    server? rules scheme written = (host? rules host).map String.ofList := by
  rw [server?_of_not_mem h, hsplit, hport]
  cases host? rules host with
  | none => rfl
  | some host =>
    change some (String.ofList (host ++ [])) = _
    rw [List.append_nil]
    rfl

/-- A host without a port is read by itself. -/
theorem server?_host {host : List Char} (hhost : IsBareHost host) :
    server? rules scheme host = (host? rules host).map String.ofList := by
  have hsplit : splitPort false host = (host, none) := by
    simpa [splitPort] using splitPort_append hhost []
  exact server?_of_port?_eq_nil (fun h => (hhost _ h).1 rfl) hsplit rfl

/-- The port at which servers of the scheme are expected goes without saying. -/
theorem server?_own_port {host : List Char} (hhost : IsBareHost host) :
    server? rules scheme (host ++ ':' :: Nat.toDigits 10 scheme.port) =
      server? rules scheme host := by
  have hdigits : '@' ∉ Nat.toDigits 10 scheme.port := by cases scheme <;> decide
  have hport : port? scheme (some (Nat.toDigits 10 scheme.port)) = some [] := by
    cases scheme <;> decide
  rw [server?_host hhost, server?_of_port?_eq_nil (not_mem_host_port hhost hdigits)
    (splitPort_host_port hhost _) hport]

example : server? (fun _ => none) .http "Example.ORG:080".toList = some "example.org" := by
  decide +kernel

/-- There is no server at a port past the greatest one, whatever its host. -/
theorem server?_great_port {host digits : List Char} (hhost : IsBareHost host)
    (hdigits : '@' ∉ digits) {port : Nat} (hport : numeral? 10 digits = some port)
    (hgreat : 65535 < port) : server? rules scheme (host ++ ':' :: digits) = none := by
  have hnone : port? scheme (some digits) = none := by
    rw [port?, hport]
    exact if_pos hgreat
  rw [server?_port hhost hdigits, hnone]
  cases host? rules host <;> rfl

/-! ## Names -/

/-- A name in the form in which requests name a server. -/
structure IsServerName (name : List Char) : Prop where
  ne_nil : name ≠ []
  keeps : name.all nameKeeps = true
  lower : Text.lowerAscii name = name
  own : isInternational name = false
  not_number : endsInNumber name = false

/-- No mark of an authority and no percent sign is kept in a name. -/
theorem IsServerName.ne_mark {name : List Char} (h : IsServerName name) {c : Char} (hc : c ∈ name) :
    c ≠ '@' ∧ c ≠ ':' ∧ c ≠ '[' ∧ c ≠ '%' := by
  have hkeeps : nameKeeps c = true := List.all_eq_true.mp h.keeps c hc
  refine ⟨?_, ?_, ?_, ?_⟩ <;>
  · rintro rfl
    exact absurd hkeeps (by decide)

/-- A name of a server has no mark of an authority in it. -/
theorem IsServerName.isBareHost {name : List Char} (h : IsServerName name) : IsBareHost name := by
  intro c hc
  obtain ⟨hat, hcolon, hbracket, -⟩ := h.ne_mark hc
  exact ⟨hat, hcolon, hbracket⟩

/-- Without a percent sign nothing is escaped. -/
theorem not_hasEscape_of_not_mem {s : List Char} (h : '%' ∉ s) : ¬HasEscape s := by
  induction s with
  | nil => simp [HasEscape]
  | cons c s ih =>
    rw [hasEscape_cons, not_or]
    refine ⟨fun hmark => h (hmark.1 ▸ List.mem_cons_self), ih fun hmem => ?_⟩
    exact h (List.mem_cons_of_mem c hmem)

/-- Such a name is read as it is, whatever the rules for other names are. -/
theorem IsServerName.name?_eq {name : List Char} (h : IsServerName name) :
    name? rules name = some name := by
  have hbytes : decode name = Text.Utf8.encode (String.ofList name) := by
    rw [decode_of_not_hasEscape (not_hasEscape_of_not_mem fun hmem => (h.ne_mark hmem).2.2.2 rfl),
      Text.Utf8.encode, String.toList_ofList]
  have hkeeps := List.all_eq_true.mp h.keeps
  rw [name?, hbytes, Text.Utf8.decode?_encode]
  simpa [h.own, h.lower, h.ne_nil] using hkeeps

/-- A name in small letters that ends in no number is kept as it is. -/
theorem server?_name {name : List Char} (h : IsServerName name) :
    server? rules scheme name = some (String.ofList name) := by
  have hhost : host? rules name = some name := by
    unfold host?
    split
    · rename_i written
      exact absurd rfl (h.ne_mark List.mem_cons_self).2.2.1
    · rw [h.name?_eq]
      simp [h.not_number]
  rw [server?_host h.isBareHost, hhost, Option.map_some]

end PlatformAdmin.Url
