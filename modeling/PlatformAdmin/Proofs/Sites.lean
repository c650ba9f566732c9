import PlatformAdmin.Proofs.Paths
import PlatformAdmin.Proofs.Trimming

/-!
# Addresses below a site

A `Site` is the address of a server with the path under which its resources lie, written without
anything that reading would drop or cut off.  What is written below a site is read as an address
on its server, whatever it holds, and as none if the site has no server: `Site.parse?_below`.  From
this follows when a name that is written below a site addresses the resource of that name:
`Site.names_iff` says that it has to stand for itself.
-/

set_option autoImplicit false

namespace PlatformAdmin

namespace Url

/-! ## Sites -/

/-- A character that has no meaning of its own in an address. -/
def isPlain (c : Char) : Bool :=
  !(isSlash c || endsPath c || isControlOrSpace c)

/-- A segment of a path that is no place and holds plain characters only. -/
structure IsName (segment : String) : Prop where
  plain : segment.toList.all isPlain = true
  stays : isDots segment.toList = false

/-- The address of a server with the path under which its resources lie. -/
structure Site where
  scheme : Scheme
  authority : String
  segments : List String
  authority_ne : authority ≠ ""
  authority_plain : authority.toList.all isPlain = true
  names : ∀ s ∈ segments, IsName s
  /-- No slash is written last. -/
  last_ne : segments.getLast? ≠ some ""

/-- A plain character is no slash, no mark, no control character and no space. -/
theorem isPlain_iff {c : Char} : isPlain c = true ↔
    isSlash c = false ∧ endsPath c = false ∧ isControlOrSpace c = false := by
  rw [isPlain, Bool.not_eq_true', Bool.or_eq_false_iff, Bool.or_eq_false_iff, and_assoc]

/-- Whatever is no control character is no line end and no tab. -/
theorem isLineSpace_of_isControlOrSpace {c : Char} (h : isControlOrSpace c = false) :
    isLineSpace c = false := by
  rw [Bool.eq_false_iff] at h ⊢
  intro hline
  refine h ?_
  simp only [isLineSpace, Bool.or_eq_true, beq_iff_eq] at hline
  obtain (rfl | rfl) | rfl := hline <;> decide

namespace Site

variable (site : Site)

/-- The path of a site as it is written. -/
def written : List Char := slashed (site.segments.map String.toList)

/-- The path of a site as a request sends it. -/
def path : String :=
  String.ofList (slashed (site.segments.map fun s => encodeExcept pathKeeps s.toList))

/-- The address of a site. -/
def text : String :=
  site.scheme.name ++ "://" ++ site.authority ++ String.ofList site.written

/-- The server of a site, as a request names it. -/
def server? (rules : NameRules) : Option String :=
  Url.server? rules site.scheme site.authority.toList

/-- A site is written as its scheme, its authority and its path. -/
theorem toList_text : site.text.toList =
    site.scheme.name.toList ++ ':' :: '/' :: '/' :: (site.authority.toList ++ site.written) := by
  simp [text]

/-- The path of a site is written in slashes and plain characters. -/
theorem mem_written {c : Char} (h : c ∈ site.written) : c = '/' ∨ isPlain c = true := by
  obtain ⟨segment, hsegment, hc⟩ := List.mem_flatMap.mp h
  obtain ⟨s, hs, rfl⟩ := List.mem_map.mp hsegment
  obtain rfl | hc := List.mem_cons.mp hc
  · exact .inl rfl
  · exact .inr (List.all_eq_true.mp (site.names s hs).plain c hc)

/-- No mark stands in the path of a site. -/
theorem not_endsPath_of_mem_written {c : Char} (h : c ∈ site.written) : endsPath c = false := by
  obtain rfl | hplain := site.mem_written h
  · decide
  · exact (isPlain_iff.mp hplain).2.1

/-- No control character and no space stands in a site. -/
theorem not_isControlOrSpace_of_mem_text {c : Char} (h : c ∈ site.text.toList) :
    isControlOrSpace c = false := by
  have hscheme : ∀ c ∈ site.scheme.name.toList, isControlOrSpace c = false := by
    cases site.scheme <;> simp [Scheme.name, isControlOrSpace]
  rw [toList_text, List.mem_append, List.mem_cons, List.mem_cons, List.mem_cons,
    List.mem_append] at h
  obtain h | rfl | rfl | rfl | h | h := h
  · exact hscheme c h
  · decide
  · decide
  · decide
  · exact (isPlain_iff.mp (List.all_eq_true.mp site.authority_plain c h)).2.2
  · obtain rfl | hplain := site.mem_written h
    · decide
    · exact (isPlain_iff.mp hplain).2.2

end Site

/-- What is read of the end of an address. -/
def trimmed (tail : List Char) : List Char :=
  (Text.dropTrailing isControlOrSpace tail).filter fun c => !isLineSpace c

/-- What is read of the end of an address stood there in the same order. -/
theorem trimmed_sublist (tail : List Char) : (trimmed tail).Sublist tail :=
  List.filter_sublist.trans (List.rdropWhile_prefix _ tail).sublist

/-- A visible character protects the end that it begins. -/
theorem trimmed_cons {c : Char} (h : isControlOrSpace c = false) (tail : List Char) :
    trimmed (c :: tail) = c :: trimmed tail := by
  have hdrop := Text.dropTrailing_append_cons h [] tail
  rw [List.nil_append, List.nil_append] at hdrop
  rw [trimmed, hdrop, List.filter_cons_of_pos (by rw [isLineSpace_of_isControlOrSpace h]; rfl),
    ← trimmed]

/-- Visible characters in front are read as they are. -/
theorem cleaned_append {front : List Char} (hne : front ≠ [])
    (h : ∀ c ∈ front, isControlOrSpace c = false) (tail : List Char) :
    cleaned (front ++ tail) = front ++ trimmed tail := by
  have hstart : (front ++ tail).dropWhile isControlOrSpace = front ++ tail := by
    cases front with
    | nil => exact absurd rfl hne
    | cons c front =>
      have hc := h c List.mem_cons_self
      rw [List.cons_append, List.dropWhile_cons_of_neg (by rw [hc]; decide)]
  have hend : Text.dropTrailing isControlOrSpace (front ++ tail) =
      front ++ Text.dropTrailing isControlOrSpace tail := by
    obtain rfl | ⟨before, c, rfl⟩ := List.eq_nil_or_concat front
    · exact absurd rfl hne
    · have hc := h c (by simp)
      rw [List.concat_eq_append, List.append_assoc, List.singleton_append,
        Text.dropTrailing_append_cons hc, List.append_assoc, List.singleton_append]
  have hfront : front.filter (fun c => !isLineSpace c) = front := by
    rw [List.filter_eq_self]
    intro c hc
    rw [isLineSpace_of_isControlOrSpace (h c hc)]
    rfl
  rw [cleaned, Text.dropAround, hstart, hend, List.filter_append, hfront, ← trimmed]

/-- The name of a scheme and a colon are read as that scheme. -/
theorem afterScheme?_append (scheme : Scheme) (rest : List Char) :
    afterScheme? (scheme.name.toList ++ ':' :: rest) = some (scheme, rest) := by
  cases scheme with
  | http => simp [afterScheme?, Scheme.name, Text.lowerAscii]
  | https => simp [afterScheme?, Scheme.name, Text.lowerAscii]

/-- To drop as many characters as can be taken is to drop those that can be taken. -/
theorem drop_length_takeWhile (p : Char → Bool) (s : List Char) :
    s.drop (s.takeWhile p).length = s.dropWhile p := by
  have hsplit : s.takeWhile p ++ s.dropWhile p = s := List.takeWhile_append_dropWhile
  calc s.drop (s.takeWhile p).length
      = (s.takeWhile p ++ s.dropWhile p).drop (s.takeWhile p).length := by rw [hsplit]
    _ = s.dropWhile p := List.drop_left

namespace Site

variable (site : Site)

/-- No segment of a site has a slash in it, and none is a place. -/
theorem slashless_of_mem_segments {s : List Char} (h : s ∈ site.segments.map String.toList) :
    (∀ c ∈ s, isSlash c = false) ∧ isDots s = false := by
  obtain ⟨segment, hsegment, rfl⟩ := List.mem_map.mp h
  exact ⟨fun c hc => (isPlain_iff.mp
    (List.all_eq_true.mp (site.names segment hsegment).plain c hc)).1,
    (site.names segment hsegment).stays⟩

/-- The authority of a site begins with a character that is no slash. -/
theorem authority_eq_cons : ∃ c rest, site.authority.toList = c :: rest ∧ isSlash c = false := by
  have hplain := List.all_eq_true.mp site.authority_plain
  cases hauthority : site.authority.toList with
  | nil => exact absurd (String.toList_eq_nil_iff.mp hauthority) site.authority_ne
  | cons c rest =>
    rw [hauthority] at hplain
    exact ⟨c, rest, rfl, (isPlain_iff.mp (hplain c List.mem_cons_self)).1⟩

/-- The authority ends where a path begins, or at what follows a path. -/
theorem authority_append {rest : List Char}
    (hrest : ∀ c ∈ rest.head?, isSlash c = true ∨ endsPath c = true) :
    (site.authority.toList ++ rest).takeWhile (fun c => !(isSlash c || endsPath c)) =
        site.authority.toList ∧
      (site.authority.toList ++ rest).dropWhile (fun c => !(isSlash c || endsPath c)) = rest := by
  have hplain : ∀ c ∈ site.authority.toList, (!(isSlash c || endsPath c)) = true := by
    intro c hc
    obtain ⟨hslash, hends, -⟩ := isPlain_iff.mp (List.all_eq_true.mp site.authority_plain c hc)
    rw [hslash, hends]
    rfl
  rw [List.takeWhile_append_of_pos hplain, List.dropWhile_append_of_pos hplain]
  cases rest with
  | nil => exact ⟨List.append_nil _, rfl⟩
  | cons c rest =>
    have hc := hrest c rfl
    rw [← Bool.or_eq_true] at hc
    rw [List.takeWhile_cons_of_neg (by rw [hc]; decide),
      List.dropWhile_cons_of_neg (by rw [hc]; decide), List.append_nil]
    exact ⟨rfl, rfl⟩

/-- What begins with a slash, a question mark or a number sign is read from there on. -/
theorem head?_trimmed {c : Char} (hc : isSlash c = true ∨ endsPath c = true) (tail : List Char) :
    ∀ d ∈ (trimmed (c :: tail)).head?, isSlash d = true ∨ endsPath d = true := by
  have hvisible : isControlOrSpace c = false := by
    have hmark : (c = '/' ∨ c = '\\') ∨ c = '?' ∨ c = '#' := by
      simpa [isSlash, endsPath] using hc
    obtain (rfl | rfl) | rfl | rfl := hmark <;> decide
  intro d hd
  rw [trimmed_cons hvisible] at hd
  obtain rfl := Option.some.inj hd
  exact hc

/-- What follows the address of a site from a slash, a question mark or a number sign on does not
change how the site is read. -/
theorem parse?_append (rules : NameRules) {tail : List Char}
    (htail : ∀ c ∈ (trimmed tail).head?, isSlash c = true ∨ endsPath c = true) :
    parse? rules (site.text ++ String.ofList tail) = (site.server? rules).map fun server => {
      scheme := site.scheme
      authority := server
      segments := pathOf (site.written ++ (trimmed tail).takeWhile fun c => !endsPath c)
      query := (queryAndFragment ((trimmed tail).dropWhile fun c => !endsPath c)).1
      fragment := (queryAndFragment ((trimmed tail).dropWhile fun c => !endsPath c)).2 } := by
  have hcleaned : cleaned (site.text ++ String.ofList tail).toList =
      site.scheme.name.toList ++ ':' :: '/' :: '/' ::
        (site.authority.toList ++ (site.written ++ trimmed tail)) := by
    have hne : site.text.toList ≠ [] := by
      rw [toList_text]
      simp
    rw [String.toList_append, String.toList_ofList,
      cleaned_append hne (fun c => site.not_isControlOrSpace_of_mem_text), toList_text]
    simp
  obtain ⟨c, rest, hauthority, hc⟩ := site.authority_eq_cons
  -- the slashes that are dropped are those after the scheme: the authority starts with none
  have hslashes :
      ('/' :: '/' :: (site.authority.toList ++ (site.written ++ trimmed tail))).dropWhile isSlash =
        site.authority.toList ++ (site.written ++ trimmed tail) := by
    rw [List.dropWhile_cons_of_pos rfl, List.dropWhile_cons_of_pos rfl, hauthority,
      List.cons_append, List.dropWhile_cons_of_neg (by rw [hc]; decide)]
  have hfirst : ∀ c ∈ (site.written ++ trimmed tail).head?, isSlash c = true ∨
      endsPath c = true := by
    rw [written]
    cases site.segments with
    | nil => exact htail
    | cons s rest => simp [slashed, isSlash]
  obtain ⟨htake, hdrop⟩ := site.authority_append hfirst
  have hpath : ∀ c ∈ site.written, (!endsPath c) = true := by
    intro c hc
    rw [site.not_endsPath_of_mem_written hc]
    rfl
  rw [parse?, hcleaned, afterScheme?_append]
  dsimp only [Option.bind_eq_bind, Option.bind_some]
  rw [hslashes, drop_length_takeWhile, htake, hdrop, drop_length_takeWhile,
    List.takeWhile_append_of_pos hpath, List.dropWhile_append_of_pos hpath, ← server?]
  cases site.server? rules <;> rfl

/-- What is written behind a site is an address only if the site has a server, and then it is on
that server. -/
theorem server?_of_parse? {rules : NameRules} {c : Char} {tail : List Char} {u : Url}
    (hc : isSlash c = true ∨ endsPath c = true)
    (h : parse? rules (site.text ++ String.ofList (c :: tail)) = some u) :
    site.server? rules = some u.authority := by
  rw [site.parse?_append rules (head?_trimmed hc tail), Option.map_eq_some_iff] at h
  obtain ⟨server, hserver, rfl⟩ := h
  exact hserver

/-- The address that is written below a site, on its server. -/
def below (server name : String) : Url :=
  { scheme := site.scheme
    authority := server
    segments := pathOf (site.written ++
      '/' :: (trimmed name.toList).takeWhile fun c => !endsPath c)
    query := (queryAndFragment ((trimmed name.toList).dropWhile fun c => !endsPath c)).1
    fragment := (queryAndFragment ((trimmed name.toList).dropWhile fun c => !endsPath c)).2 }

/-- Whatever is written below a site is read as an address on its server. -/
theorem parse?_below (rules : NameRules) (name : String) :
    parse? rules (site.text ++ "/" ++ name) =
      (site.server? rules).map fun server => site.below server name := by
  have htrimmed : trimmed ('/' :: name.toList) = '/' :: trimmed name.toList :=
    trimmed_cons (by decide) _
  have htext : site.text ++ "/" ++ name = site.text ++ String.ofList ('/' :: name.toList) := by
    rw [← String.toList_inj]
    simp
  rw [htext, site.parse?_append rules (head?_trimmed (.inl rfl) _), htrimmed,
    List.takeWhile_cons_of_pos (by decide), List.dropWhile_cons_of_pos (by decide)]
  rfl

/-- What is written below a site has its last piece for the last segment, unless that is a place. -/
theorem below_segments {server name : String} {pieces : List (List Char)} {piece : List Char}
    (h : splitWhere isSlash ((trimmed name.toList).takeWhile fun c => !endsPath c) =
      pieces ++ [piece]) :
    ∃ above, (site.below server name).segments = above ++
      [String.ofList (if isDots piece then [] else encodeExcept pathKeeps piece)] := by
  obtain ⟨above, hresolve⟩ := exists_resolve_eq
    ((site.segments.map String.toList).map (encodeExcept pathKeeps)).reverse pieces piece
  refine ⟨above.map String.ofList, ?_⟩
  rw [below, written, pathOf_slashed (fun s hs => site.slashless_of_mem_segments hs), h, hresolve,
    List.map_append]
  rfl

end Site

/-! ## Resources by their name -/

/-- The address has no query, and its path is that of a collection with one segment more, which
stands for the name. -/
def Names (u : Url) (collection name : String) : Prop :=
  u.query = none ∧ ∃ segment : List Char, '/' ∉ segment ∧
    u.path = collection ++ "/" ++ String.ofList segment ∧ decode segment = Text.Utf8.encode name

/-- A name that the address of a resource can hold as it is. -/
structure StandsForItself (name : String) : Prop where
  /-- It has no slash or backslash, no question mark or number sign, no tab and no line end. -/
  whole : ∀ c ∈ name.toList, isSlash c = false ∧ endsPath c = false ∧ isLineSpace c = false
  ends : ∀ c ∈ name.toList.getLast?, isControlOrSpace c = false
  stays : name ≠ "." ∧ name ≠ ".."
  literal : ¬HasEscape name.toList

/-- All of an end is read exactly if it has no line end in it and no control character last. -/
theorem trimmed_eq_self_iff {s : List Char} : trimmed s = s ↔
    (∀ c ∈ s, isLineSpace c = false) ∧ ∀ c ∈ s.getLast?, isControlOrSpace c = false := by
  rw [← Text.dropTrailing_eq_self_iff]
  have hdrop := (List.rdropWhile_prefix isControlOrSpace s).sublist
  rw [← Text.dropTrailing_eq_rdropWhile] at hdrop
  constructor
  · intro h
    have hfilter : (trimmed s).Sublist (Text.dropTrailing isControlOrSpace s) :=
      List.filter_sublist
    rw [h] at hfilter
    have hend : Text.dropTrailing isControlOrSpace s = s :=
      hdrop.eq_of_length_le hfilter.length_le
    rw [trimmed, hend, List.filter_eq_self] at h
    exact ⟨fun c hc => by simpa using h c hc, hend⟩
  · rintro ⟨hlines, hend⟩
    rw [trimmed, hend, List.filter_eq_self]
    intro c hc
    rw [hlines c hc]
    rfl

/-- Where nothing was dropped, there was nothing to drop. -/
theorem trimmed_eq_self_of_sublist {s : List Char}
    (h : s.Sublist ((trimmed s).takeWhile fun c => !endsPath c)) :
    trimmed s = s ∧ ∀ c ∈ s, endsPath c = false := by
  have hpart := List.takeWhile_sublist (fun c => !endsPath c) (l := trimmed s)
  have htake : (trimmed s).takeWhile (fun c => !endsPath c) = s :=
    (hpart.trans (trimmed_sublist s)).eq_of_length_le h.length_le
  have htrimmed : trimmed s = s :=
    (trimmed_sublist s).eq_of_length_le (h.trans hpart).length_le
  refine ⟨htrimmed, ?_⟩
  intro c hc
  rw [← htake] at hc
  simpa using List.mem_takeWhile_imp hc

/-- The empty segment is no place. -/
theorem isDots_nil : isDots [] = false := rfl

/-- A name stands for itself exactly if nothing in it is dropped, cut off, resolved or decoded. -/
theorem standsForItself_iff {name : String} : StandsForItself name ↔
    trimmed name.toList = name.toList ∧ (∀ c ∈ name.toList, isSlash c = false) ∧
      (∀ c ∈ name.toList, endsPath c = false) ∧ isDots name.toList = false ∧
      ¬HasEscape name.toList := by
  rw [trimmed_eq_self_iff]
  constructor
  · intro h
    refine ⟨⟨fun c hc => (h.whole c hc).2.2, h.ends⟩, fun c hc => (h.whole c hc).1,
      fun c hc => (h.whole c hc).2.1, ?_, h.literal⟩
    rw [Bool.eq_false_iff]
    intro hdots
    obtain hdot | hdots := (isDots_iff h.literal).mp hdots
    · exact h.stays.1 (String.toList_inj.mp hdot)
    · exact h.stays.2 (String.toList_inj.mp hdots)
  · rintro ⟨⟨hlines, hends⟩, hslash, hmark, hdots, hliteral⟩
    refine ⟨fun c hc => ⟨hslash c hc, hmark c hc, hlines c hc⟩, hends, ⟨?_, ?_⟩, hliteral⟩
    · rintro rfl
      exact absurd hdots (by decide)
    · rintro rfl
      exact absurd hdots (by decide)

namespace Site

variable (site : Site)

/-- A name that stands for itself names its resource. -/
theorem names_of_standsForItself {server name : String} (h : StandsForItself name) :
    (site.below server name).Names site.path name := by
  obtain ⟨htrimmed, hslash, hmark, hdots, hliteral⟩ := standsForItself_iff.mp h
  have hplain : ∀ c ∈ name.toList, (!endsPath c) = true := by
    intro c hc
    rw [hmark c hc]
    rfl
  have htake : name.toList.takeWhile (fun c => !endsPath c) = name.toList :=
    List.takeWhile_eq_self_iff.mpr hplain
  have hdrop : name.toList.dropWhile (fun c => !endsPath c) = [] :=
    List.dropWhile_eq_nil_iff.mpr hplain
  refine ⟨?_, encodeExcept pathKeeps name.toList, ?_, ?_, ?_⟩
  · rw [below, htrimmed, hdrop]
    rfl
  · exact slash_not_mem_encodeExcept fun hmem => absurd (hslash _ hmem) (by decide)
  · have hsegments : (site.below server name).segments =
        ((site.segments.map String.toList) ++ [name.toList]).map fun s =>
          String.ofList (encodeExcept pathKeeps s) := by
      have hwritten : site.written ++ '/' :: name.toList =
          slashed (site.segments.map String.toList ++ [name.toList]) := by
        simp [written, slashed]
      rw [below, htrimmed, htake, hwritten, pathOf_names (by simp)]
      intro s hs
      obtain hs | hs := List.mem_append.mp hs
      · exact site.slashless_of_mem_segments hs
      · obtain rfl := List.mem_singleton.mp hs
        exact ⟨hslash, hdots⟩
    rw [← String.toList_inj, path_toList (by rw [hsegments]; simp), hsegments, path]
    simp [slashed, List.flatMap_map]
  · rw [decode_encodeExcept pathKeeps_keepsEscapes, decode_of_not_hasEscape hliteral]
    rfl

/-- The last segment of the path is what the last piece of the name was read as. -/
theorem segment_eq_of_path_eq {server name collection : String} {segment : List Char}
    {pieces : List (List Char)} {piece : List Char}
    (hsplit : splitWhere isSlash ((trimmed name.toList).takeWhile fun c => !endsPath c) =
      pieces ++ [piece]) (hslash : ∀ c ∈ piece, isSlash c = false) (hsegment : '/' ∉ segment)
    (hpath : (site.below server name).path = collection ++ "/" ++ String.ofList segment) :
    segment = if isDots piece then [] else encodeExcept pathKeeps piece := by
  obtain ⟨above, hsegments⟩ := site.below_segments hsplit
  have hwritten := path_toList (u := site.below server name) (by rw [hsegments]; simp)
  have hpiece : '/' ∉ if isDots piece then [] else encodeExcept pathKeeps piece := by
    split
    · exact List.not_mem_nil
    · exact slash_not_mem_encodeExcept fun hmem => absurd (hslash _ hmem) (by decide)
  have hcut : collection.toList ++ '/' :: segment = slashed (above.map String.toList) ++
      '/' :: if isDots piece then [] else encodeExcept pathKeeps piece := by
    rw [hpath, hsegments, List.map_append, slashed_append] at hwritten
    simpa [slashed] using hwritten
  exact (eq_of_slash_append_eq hsegment hpiece hcut).2

/-- A name that names its resource stands for itself. -/
theorem standsForItself_of_names {server name : String}
    (h : (site.below server name).Names site.path name) : StandsForItself name := by
  obtain ⟨-, segment, hsegment, hpath, hdecode⟩ := h
  obtain ⟨pieces, piece, hsplit, hpart, hslash⟩ := exists_splitWhere_eq isSlash
    ((trimmed name.toList).takeWhile fun c => !endsPath c)
  have hlast := site.segment_eq_of_path_eq hsplit hslash hsegment hpath
  have hbytes : (decode segment).length = byteCount name.toList := by
    rw [hdecode]
    rfl
  have hshort : (decode segment).length ≤ byteCount piece := by
    rw [hlast]
    split
    · exact Nat.zero_le _
    · rw [decode_encodeExcept pathKeeps_keepsEscapes]
      exact (decode_length piece).1
  -- to read the name could only drop from it, so a piece with all of its bytes is all of it
  have hbefore : ((trimmed name.toList).takeWhile fun c => !endsPath c).Sublist name.toList :=
    (List.takeWhile_sublist _).trans (trimmed_sublist _)
  have hwhole : piece = name.toList :=
    eq_of_sublist_of_byteCount_le (hpart.trans hbefore) (by omega)
  rw [hwhole] at hpart hslash hlast
  obtain ⟨htrimmed, hmark⟩ := trimmed_eq_self_of_sublist hpart
  have hdots : isDots name.toList = false := by
    rw [Bool.eq_false_iff]
    intro hdots
    rw [if_pos hdots] at hlast
    rw [hlast] at hbytes
    have hnil : name.toList = [] :=
      (eq_of_sublist_of_byteCount_le (List.nil_sublist _) (Nat.le_of_eq hbytes.symm)).symm
    rw [hnil, isDots_nil] at hdots
    cases hdots
  have hliteral : ¬HasEscape name.toList := by
    rw [hlast, hdots, if_neg (by decide), decode_encodeExcept pathKeeps_keepsEscapes] at hdecode
    exact decode_eq_iff.mp hdecode
  exact standsForItself_iff.mpr ⟨htrimmed, hslash, hmark, hdots, hliteral⟩

/-- What is written below a site names the resource exactly if it stands for itself. -/
theorem names_iff (server name : String) :
    (site.below server name).Names site.path name ↔ StandsForItself name :=
  ⟨site.standsForItself_of_names, site.names_of_standsForItself⟩

end Site

end Url

end PlatformAdmin
