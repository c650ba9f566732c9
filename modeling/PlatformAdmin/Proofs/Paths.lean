import Mathlib.Data.List.TakeWhile
import PlatformAdmin.Proofs.PercentEncoding
import PlatformAdmin.Url.Basic

/-!
# Paths

A path is read piece by piece between its slashes, and written with a slash before each segment.
A piece that is no place becomes a segment, and the last piece becomes the last segment whatever
stands before it: `resolve_append` and `exists_resolve_eq`.  A path tells its last segment, since
no segment holds a slash.
-/

set_option autoImplicit false

namespace PlatformAdmin

namespace Url

/-! ## Pieces of a path -/

section Pieces

variable {α : Type} {p : α → Bool}

/-- A list without marks is one piece. -/
theorem splitWhere_of_forall {xs : List α} (h : ∀ a ∈ xs, p a = false) :
    splitWhere p xs = [xs] := by
  induction xs with
  | nil => rfl
  | cons a xs ih =>
    have ha := h a List.mem_cons_self
    rw [splitWhere, ha, ih fun b hb => h b (List.mem_cons_of_mem _ hb)]
    rfl

/-- There is a piece at least. -/
theorem splitWhere_ne_nil (p : α → Bool) (xs : List α) : splitWhere p xs ≠ [] := by
  cases xs with
  | nil => exact List.cons_ne_nil _ _
  | cons a xs =>
    rw [splitWhere]
    split
    · exact List.cons_ne_nil _ _
    · split <;> exact List.cons_ne_nil _ _

/-- At a separator the pieces of what stands before it end, and those of what follows begin. -/
theorem splitWhere_append {a : α} (ha : p a = true) (xs ys : List α) :
    splitWhere p (xs ++ a :: ys) = splitWhere p xs ++ splitWhere p ys := by
  induction xs with
  | nil =>
    have hnone : splitWhere p (a :: ys) = [] :: splitWhere p ys := by rw [splitWhere, if_pos ha]
    exact hnone
  | cons b xs ih =>
    rw [List.cons_append, splitWhere, splitWhere, ih]
    split
    · rfl
    · cases hpieces : splitWhere p xs with
      | nil => exact absurd hpieces (splitWhere_ne_nil p xs)
      | cons piece pieces => rfl

/-- Up to the first mark there is one piece. -/
theorem splitWhere_append_cons {a : α} {xs : List α} (hxs : ∀ b ∈ xs, p b = false)
    (ha : p a = true) (ys : List α) : splitWhere p (xs ++ a :: ys) = xs :: splitWhere p ys := by
  rw [splitWhere_append ha, splitWhere_of_forall hxs]
  rfl

/-- No piece holds a separator, or anything that the whole does not. -/
theorem mem_of_mem_splitWhere {xs piece : List α} (h : piece ∈ splitWhere p xs) :
    ∀ a ∈ piece, a ∈ xs ∧ p a = false := by
  induction xs generalizing piece with
  | nil =>
    rw [splitWhere, List.mem_singleton] at h
    rw [h]
    exact nofun
  | cons b xs ih =>
    rw [splitWhere] at h
    split at h
    · obtain rfl | h := List.mem_cons.mp h
      · exact nofun
      · intro a ha
        exact ⟨List.mem_cons_of_mem b (ih h a ha).1, (ih h a ha).2⟩
    · rename_i hb
      cases hpieces : splitWhere p xs with
      | nil => exact absurd hpieces (splitWhere_ne_nil p xs)
      | cons first pieces =>
        rw [hpieces] at h ih
        intro a ha
        obtain rfl | h := List.mem_cons.mp h
        · obtain rfl | ha := List.mem_cons.mp ha
          · exact ⟨List.mem_cons_self, Bool.eq_false_iff.mpr hb⟩
          · have hfirst := ih List.mem_cons_self a ha
            exact ⟨List.mem_cons_of_mem b hfirst.1, hfirst.2⟩
        · have hlater := ih (List.mem_cons_of_mem first h) a ha
          exact ⟨List.mem_cons_of_mem b hlater.1, hlater.2⟩

/-- The last piece is a part of the whole without separators. -/
theorem exists_splitWhere_eq (p : α → Bool) (xs : List α) :
    ∃ pieces piece, splitWhere p xs = pieces ++ [piece] ∧ piece.Sublist xs ∧
      ∀ a ∈ piece, p a = false := by
  induction xs with
  | nil => exact ⟨[], [], rfl, List.Sublist.refl _, nofun⟩
  | cons a xs ih =>
    obtain ⟨pieces, piece, hsplit, hpart, hpiece⟩ := ih
    by_cases ha : p a = true
    · refine ⟨[] :: pieces, piece, ?_, hpart.cons a, hpiece⟩
      rw [splitWhere, if_pos ha, hsplit, List.cons_append]
    · rw [splitWhere, if_neg ha, hsplit]
      -- a character that separates nothing joins the first piece, which may be the last one too
      cases pieces with
      | nil =>
        refine ⟨[], a :: piece, rfl, hpart.cons_cons a, ?_⟩
        intro b hb
        obtain rfl | hb := List.mem_cons.mp hb
        · exact Bool.eq_false_iff.mpr ha
        · exact hpiece b hb
      | cons first pieces => exact ⟨(a :: first) :: pieces, piece, rfl, hpart.cons a, hpiece⟩

end Pieces

/-- A segment that stands for a place. -/
def isDots (segment : List Char) : Bool :=
  isSingleDot segment || isDoubleDot segment

/-- Names one by one become segments. -/
theorem resolve_append {names : List (List Char)} (h : ∀ s ∈ names, isDots s = false)
    (place rest : List (List Char)) :
    resolve place (names ++ rest) =
      resolve ((names.map (encodeExcept pathKeeps)).reverse ++ place) rest := by
  induction names generalizing place with
  | nil => rfl
  | cons s names ih =>
    have hs := h s List.mem_cons_self
    rw [isDots, Bool.or_eq_false_iff] at hs
    rw [List.cons_append, resolve, hs.1, hs.2, if_neg (by decide), if_neg (by decide),
      ih fun s hs => h s (List.mem_cons_of_mem _ hs)]
    simp

/-- A name alone becomes the last segment. -/
theorem resolve_singleton {s : List Char} (h : isDots s = false) (place : List (List Char)) :
    resolve place [s] = place.reverse ++ [encodeExcept pathKeeps s] := by
  have happend := resolve_append (List.forall_mem_singleton.mpr h) place []
  simpa [resolve] using happend

/-- The last segment of a path is empty after dots, and else what is written last. -/
theorem exists_resolve_eq (place pieces : List (List Char)) (piece : List Char) :
    ∃ above, resolve place (pieces ++ [piece]) =
      above ++ [if isDots piece then [] else encodeExcept pathKeeps piece] := by
  induction pieces generalizing place with
  | nil =>
    by_cases hdouble : isDoubleDot piece = true
    · refine ⟨(parent place).reverse, ?_⟩
      simp [resolve, isDots, hdouble]
    · by_cases hsingle : isSingleDot piece = true
      · refine ⟨place.reverse, ?_⟩
        simp [resolve, isDots, hdouble, hsingle]
      · refine ⟨place.reverse, ?_⟩
        simp [resolve, isDots, hdouble, hsingle]
  | cons first pieces ih =>
    rw [List.cons_append, resolve]
    split
    · exact ih _
    · split
      · exact ih _
      · exact ih _

/-- A segment of two dots or one, once it holds no escape, is just that. -/
theorem isDots_iff {segment : List Char} (h : ¬HasEscape segment) :
    isDots segment = true ↔ segment = ['.'] ∨ segment = ['.', '.'] := by
  -- the only escapes that are read as dots are those of the dot
  have hplain : plainDots segment = segment := by
    induction segment using plainDots.induct with
    | case1 e rest he _ =>
      refine absurd ⟨[], '2' :: e :: rest, rfl, ?_⟩ h
      refine startsWithDigits_cons_cons.mpr ⟨by decide, ?_⟩
      obtain rfl | rfl := he <;> decide
    | case2 e rest he ih =>
      rw [plainDots, if_neg he, ih]
      intro hescape
      exact h (hasEscape_cons.mpr (.inr (hasEscape_cons.mpr (.inr (hasEscape_cons.mpr
        (.inr hescape))))))
    | case3 c rest hc ih =>
      rw [plainDots, ih fun hescape => h (hasEscape_cons.mpr (.inr hescape))]
      exact hc
    | case4 => rfl
  rw [isDots, isSingleDot, isDoubleDot, hplain, Bool.or_eq_true, beq_iff_eq, beq_iff_eq]

/-! ## Paths as they are written -/

/-- The class of a path leaves escapes alone. -/
theorem pathKeeps_keepsEscapes : KeepsEscapes pathKeeps where
  percent := by decide
  digit := by
    intro c hc
    -- digits are ASCII, which leaves few enough characters to try them all
    have hascii : c.toNat < 0x80 := by
      unfold Text.hexValue? at hc
      split at hc
      · rename_i h
        exact Nat.lt_of_le_of_lt h.2 (by decide)
      · split at hc
        · rename_i h
          exact Nat.lt_of_le_of_lt h.2 (by decide)
        · split at hc
          · rename_i h
            exact Nat.lt_of_le_of_lt h.2 (by decide)
          · cases hc
    have hkeeps : ∀ n < 0x80, (Text.hexValue? (Char.ofNat n)).isSome = true →
        pathKeeps (Char.ofNat n) = true := by decide
    have hnat := hkeeps c.toNat hascii
    rw [Char.ofNat_toNat] at hnat
    exact hnat hc

/-- No byte is encoded with a slash. -/
theorem slash_not_mem_percentByte (b : UInt8) : '/' ∉ percentByte b := by
  have hdigit : ∀ n < 16, Text.upperHexDigit n ≠ '/' := by decide
  have hb : b.toNat < 256 := b.toNat_lt
  have hhigh := hdigit (b.toNat / 16) (by omega)
  have hlow := hdigit (b.toNat % 16) (by omega)
  intro h
  obtain h | h | h : '/' = '%' ∨ '/' = Text.upperHexDigit (b.toNat / 16) ∨
      '/' = Text.upperHexDigit (b.toNat % 16) := by simpa [percentByte] using h
  · exact absurd h (by decide)
  · exact hhigh h.symm
  · exact hlow h.symm

/-- No slash comes from encoding a text without one. -/
theorem slash_not_mem_encodeExcept {keeps : Char → Bool} {s : List Char} (h : '/' ∉ s) :
    '/' ∉ encodeExcept keeps s := by
  intro hmem
  obtain ⟨c, hc, hslash⟩ := List.mem_flatMap.mp hmem
  by_cases hk : keeps c = true
  · rw [if_pos hk, List.mem_singleton] at hslash
    exact h (hslash ▸ hc)
  · rw [if_neg hk] at hslash
    obtain ⟨b, -, hb⟩ := List.mem_flatMap.mp hslash
    exact slash_not_mem_percentByte b hb

/-- Segments with a slash before each. -/
def slashed (segments : List (List Char)) : List Char :=
  segments.flatMap fun segment => '/' :: segment

/-- The slashes of two paths in a row are those of each. -/
theorem slashed_append (names more : List (List Char)) :
    slashed (names ++ more) = slashed names ++ slashed more := by
  rw [slashed, List.flatMap_append, ← slashed, ← slashed]

/-- A path with segments has a slash before each of them. -/
theorem path_toList {u : Url} (h : u.segments ≠ []) :
    u.path.toList = slashed (u.segments.map String.toList) := by
  have hjoin : ∀ (first : String) (rest : List String),
      ("/" ++ "/".intercalate (first :: rest)).toList =
        slashed ((first :: rest).map String.toList) := by
    intro first rest
    induction rest generalizing first with
    | nil => simp [slashed]
    | cons second rest ih =>
      rw [String.intercalate_cons_cons, List.map_cons, slashed, List.flatMap_cons, ← slashed, ← ih]
      simp
  rw [path]
  cases hs : u.segments with
  | nil => exact absurd hs h
  | cons first rest => exact hjoin first rest

/-- There is one way only to cut a path at its last slash. -/
theorem eq_of_slash_append_eq {front front' last last' : List Char} (hlast : '/' ∉ last)
    (hlast' : '/' ∉ last') (h : front ++ '/' :: last = front' ++ '/' :: last') :
    front = front' ∧ last = last' := by
  induction front generalizing front' with
  | nil =>
    cases front' with
    | nil => exact ⟨rfl, (List.cons.inj h).2⟩
    | cons c front' =>
      refine absurd ?_ hlast
      rw [(List.cons.inj h).2]
      simp
  | cons c front ih =>
    cases front' with
    | nil =>
      refine absurd ?_ hlast'
      rw [← (List.cons.inj h).2]
      simp
    | cons c' front' =>
      obtain ⟨rfl, htail⟩ := List.cons.inj h
      obtain ⟨rfl, hlasts⟩ := ih htail
      exact ⟨rfl, hlasts⟩

/-- Between the slashes of a path stand its names, and then the pieces of what follows. -/
theorem splitWhere_slashed {names : List (List Char)}
    (h : ∀ s ∈ names, ∀ c ∈ s, isSlash c = false) (more : List Char) :
    splitWhere isSlash ((slashed names ++ '/' :: more).drop 1) =
      names ++ splitWhere isSlash more := by
  induction names with
  | nil => rfl
  | cons s names ih =>
    have hs := h s List.mem_cons_self
    have hslash : slashed names ++ '/' :: more =
        '/' :: (slashed names ++ '/' :: more).drop 1 := by
      cases names <;> rfl
    have hdrop : (slashed (s :: names) ++ '/' :: more).drop 1 =
        s ++ (slashed names ++ '/' :: more) := by
      simp [slashed]
    rw [hdrop, hslash, splitWhere_append_cons hs rfl,
      ih fun s hs => h s (List.mem_cons_of_mem _ hs), List.cons_append]

/-- A path of names goes on with what is read behind them. -/
theorem pathOf_slashed {names : List (List Char)}
    (h : ∀ s ∈ names, (∀ c ∈ s, isSlash c = false) ∧ isDots s = false) (more : List Char) :
    pathOf (slashed names ++ '/' :: more) =
      (resolve (names.map (encodeExcept pathKeeps)).reverse (splitWhere isSlash more)).map
        String.ofList := by
  rw [pathOf, splitWhere_slashed fun s hs => (h s hs).1, resolve_append fun s hs => (h s hs).2,
    List.append_nil]

/-- Names are read back as the segments they are, but for what a path cannot hold. -/
theorem pathOf_names {names : List (List Char)} (hne : names ≠ [])
    (h : ∀ s ∈ names, (∀ c ∈ s, isSlash c = false) ∧ isDots s = false) :
    pathOf (slashed names) = names.map fun s => String.ofList (encodeExcept pathKeeps s) := by
  obtain rfl | ⟨front, last, rfl⟩ := List.eq_nil_or_concat names
  · exact absurd rfl hne
  · rw [List.concat_eq_append] at h ⊢
    have hlast := h last (by simp)
    have hwritten : slashed (front ++ [last]) = slashed front ++ '/' :: last := by
      simp [slashed]
    rw [hwritten, pathOf_slashed (fun s hs => h s (by simp [hs])), splitWhere_of_forall hlast.1,
      resolve_singleton hlast.2]
    simp

end Url

end PlatformAdmin
