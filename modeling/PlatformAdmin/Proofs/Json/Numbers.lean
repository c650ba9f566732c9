import PlatformAdmin.Json.Reader
import PlatformAdmin.Proofs.Json.Grammar

/-!
# The numbers of JSON

The reader follows a number through its parts, one character after another, and `NumberPart.Ends`
says that it gets through a text and may end there.  For each part there is a lemma that says which
texts these are in terms of the grammar; the last of them is `NumberPart.ends_sign_iff`.
-/

set_option autoImplicit false

namespace PlatformAdmin.Json

/-- A number may go on with this text from a part, and then end. -/
def NumberPart.Ends (p : NumberPart) (w : List Char) : Prop :=
  ∃ q, w.foldlM next p = some q ∧ q.isComplete = true

/-- A digit in front of digits is digits. -/
theorem AllDigits.cons {d : Char} {ds : List Char} (hd : d.isDigit = true) (hds : AllDigits ds) :
    AllDigits (d :: ds) :=
  List.forall_mem_cons.mpr ⟨hd, hds⟩

namespace NumberPart

variable {p q : NumberPart} {c : Char} {w : List Char}

/-- A number may end where it is complete. -/
theorem ends_nil_iff : p.Ends [] ↔ p.isComplete = true := by
  constructor
  · rintro ⟨q, hq, hcomplete⟩
    obtain rfl : p = q := Option.some.inj hq
    exact hcomplete
  · exact fun h => ⟨p, rfl, h⟩

/-- A number goes on with the character that its part allows next, and with what may follow that. -/
theorem ends_cons_iff : p.Ends (c :: w) ↔ ∃ q, p.next c = some q ∧ q.Ends w := by
  unfold Ends
  rw [List.foldlM_cons]
  constructor
  · rintro ⟨r, hr, hcomplete⟩
    obtain ⟨q, hq, hrest⟩ := Option.bind_eq_some_iff.mp hr
    exact ⟨q, hq, r, hrest, hcomplete⟩
  · rintro ⟨q, hq, r, hrest, hcomplete⟩
    exact ⟨r, Option.bind_eq_some_iff.mpr ⟨q, hq, hrest⟩, hcomplete⟩

/-- From a part that only a digit continues. -/
theorem ends_digit_iff (h : p.next c = if c.isDigit = true then some q else none) :
    p.Ends (c :: w) ↔ c.isDigit = true ∧ q.Ends w := by
  rw [ends_cons_iff, h]
  constructor
  · rintro ⟨r, hr, hends⟩
    rw [Option.ite_none_right_eq_some] at hr
    obtain ⟨hdigit, hr⟩ := hr
    obtain rfl := Option.some.inj hr
    exact ⟨hdigit, hends⟩
  · rintro ⟨hdigit, hends⟩
    exact ⟨q, if_pos hdigit, hends⟩

/-! ## The exponent -/

/-- Within an exponent only digits may follow. -/
theorem ends_exponent_iff : exponent.Ends w ↔ AllDigits w := by
  induction w with
  | nil =>
    constructor
    · intro _
      nofun
    · intro _
      exact ends_nil_iff.mpr rfl
  | cons c w ih => rw [ends_digit_iff rfl, ih, AllDigits, AllDigits, List.forall_mem_cons]

/-- Behind the sign of an exponent at least one digit follows. -/
theorem ends_exponentSign_iff : exponentSign.Ends w ↔ w ≠ [] ∧ AllDigits w := by
  cases w with
  | nil =>
    constructor
    · intro h
      cases ends_nil_iff.mp h
    · rintro ⟨nonempty, -⟩
      exact absurd rfl nonempty
  | cons c w =>
    rw [ends_digit_iff rfl, ends_exponent_iff, AllDigits, AllDigits, List.forall_mem_cons]
    exact ⟨fun h => ⟨List.cons_ne_nil c w, h⟩, fun h => h.2⟩

/-- Behind the mark of an exponent there may be a sign. -/
theorem ends_exponentMark_iff : exponentMark.Ends w ↔
    (w ≠ [] ∧ AllDigits w) ∨
      ∃ c ds, w = c :: ds ∧ (c = '+' ∨ c = '-') ∧ ds ≠ [] ∧ AllDigits ds := by
  constructor
  · intro h
    cases w with
    | nil => cases ends_nil_iff.mp h
    | cons c w =>
      obtain ⟨q, hq, hends⟩ := ends_cons_iff.mp h
      simp only [next] at hq
      split at hq
      · rename_i hdigit
        obtain rfl := Option.some.inj hq
        exact .inl ⟨List.cons_ne_nil c w, .cons hdigit (ends_exponent_iff.mp hends)⟩
      · split at hq
        · rename_i hsign
          obtain rfl := Option.some.inj hq
          exact .inr ⟨c, w, rfl, hsign, ends_exponentSign_iff.mp hends⟩
        · cases hq
  · rintro (⟨nonempty, digits⟩ | ⟨c, ds, rfl, hsign, hdigits⟩)
    · cases w with
      | nil => exact absurd rfl nonempty
      | cons d ds =>
        obtain ⟨hd, hds⟩ := List.forall_mem_cons.mp digits
        exact ends_cons_iff.mpr ⟨exponent, if_pos hd, ends_exponent_iff.mpr hds⟩
    · refine ends_cons_iff.mpr ⟨exponentSign, ?_, ends_exponentSign_iff.mpr hdigits⟩
      obtain rfl | rfl := hsign <;> rfl

/-- The parts behind which the exponent may follow. -/
def IsBeforeExponent (p : NumberPart) : Prop :=
  p = zero ∨ p = whole ∨ p = fraction

/-- Before the exponent, its mark is allowed. -/
theorem IsBeforeExponent.next_mark (h : p.IsBeforeExponent) {mark : Char}
    (hmark : mark = 'e' ∨ mark = 'E') : p.next mark = some exponentMark := by
  obtain rfl | rfl | rfl := h <;> obtain rfl | rfl := hmark <;> rfl

/-- Before the exponent, one may follow. -/
theorem IsBeforeExponent.ends (h : p.IsBeforeExponent) (hw : ExponentText w) : p.Ends w := by
  cases hw with
  | none =>
    rw [ends_nil_iff]
    obtain rfl | rfl | rfl := h <;> rfl
  | unsigned hmark nonempty digits =>
    have hends := ends_exponentMark_iff.mpr (.inl ⟨nonempty, digits⟩)
    exact ends_cons_iff.mpr ⟨_, h.next_mark hmark, hends⟩
  | signed hmark hsign nonempty digits =>
    exact ends_cons_iff.mpr ⟨_, h.next_mark hmark,
      ends_exponentMark_iff.mpr (.inr ⟨_, _, rfl, hsign, nonempty, digits⟩)⟩

/-- Behind the mark of an exponent stands what makes one with it. -/
theorem exponentText_of_ends {mark : Char} (hmark : mark = 'e' ∨ mark = 'E')
    (h : exponentMark.Ends w) : ExponentText (mark :: w) := by
  obtain ⟨nonempty, digits⟩ | ⟨sign, ds, rfl, hsign, nonempty, digits⟩ := ends_exponentMark_iff.mp h
  · exact .unsigned hmark nonempty digits
  · exact .signed hmark hsign nonempty digits

/-! ## The fraction -/

/-- Within a fraction, digits may follow, and an exponent. -/
theorem ends_fraction_iff :
    fraction.Ends w ↔ ∃ ds e, w = ds ++ e ∧ AllDigits ds ∧ ExponentText e := by
  constructor
  · intro h
    induction w with
    | nil => exact ⟨[], [], rfl, nofun, .none⟩
    | cons c w ih =>
      obtain ⟨q, hq, hends⟩ := ends_cons_iff.mp h
      simp only [next] at hq
      split at hq
      · rename_i hdigit
        obtain rfl := Option.some.inj hq
        obtain ⟨ds, e, rfl, hds, he⟩ := ih hends
        exact ⟨c :: ds, e, rfl, .cons hdigit hds, he⟩
      · split at hq
        · rename_i hmark
          obtain rfl := Option.some.inj hq
          exact ⟨[], _, rfl, nofun, exponentText_of_ends hmark hends⟩
        · cases hq
  · rintro ⟨ds, e, rfl, hds, he⟩
    induction ds with
    | nil => exact IsBeforeExponent.ends (.inr (.inr rfl)) he
    | cons d ds ih =>
      obtain ⟨hd, hds⟩ := List.forall_mem_cons.mp hds
      exact ends_cons_iff.mpr ⟨fraction, if_pos hd, ih hds⟩

/-- Behind the point at least one digit follows, and perhaps an exponent. -/
theorem ends_point_iff :
    point.Ends w ↔ ∃ ds e, w = ds ++ e ∧ ds ≠ [] ∧ AllDigits ds ∧ ExponentText e := by
  constructor
  · intro h
    cases w with
    | nil => cases ends_nil_iff.mp h
    | cons c w =>
      obtain ⟨hdigit, hends⟩ := (ends_digit_iff rfl).mp h
      obtain ⟨ds, e, rfl, hds, he⟩ := ends_fraction_iff.mp hends
      exact ⟨c :: ds, e, rfl, List.cons_ne_nil c ds, .cons hdigit hds, he⟩
  · rintro ⟨ds, e, rfl, nonempty, hds, he⟩
    cases ds with
    | nil => exact absurd rfl nonempty
    | cons d ds =>
      obtain ⟨hd, hds⟩ := List.forall_mem_cons.mp hds
      exact (ends_digit_iff rfl).mpr ⟨hd, ends_fraction_iff.mpr ⟨ds, e, rfl, hds, he⟩⟩

/-- Behind the whole part, a fraction may follow. -/
theorem ends_of_fractionText (hp : p = zero ∨ p = whole) (h : FractionText w) : p.Ends w := by
  cases h with
  | none exponent =>
    obtain rfl | rfl := hp
    · exact IsBeforeExponent.ends (.inl rfl) exponent
    · exact IsBeforeExponent.ends (.inr (.inl rfl)) exponent
  | point nonempty digits exponent =>
    refine ends_cons_iff.mpr ⟨point, ?_, ends_point_iff.mpr ⟨_, _, rfl, nonempty, digits, exponent⟩⟩
    obtain rfl | rfl := hp <;> rfl

/-- Behind the point stands what makes a fraction with it. -/
theorem fractionText_of_ends (h : point.Ends w) : FractionText ('.' :: w) := by
  obtain ⟨ds, e, rfl, nonempty, digits, exponent⟩ := ends_point_iff.mp h
  exact .point nonempty digits exponent

/-! ## The whole number -/

/-- Behind a leading zero, only a fraction or an exponent may follow. -/
theorem ends_zero_iff : zero.Ends w ↔ FractionText w := by
  refine ⟨fun h => ?_, ends_of_fractionText (.inl rfl)⟩
  cases w with
  | nil => exact .none .none
  | cons c w =>
    obtain ⟨q, hq, hends⟩ := ends_cons_iff.mp h
    simp only [next] at hq
    split at hq
    · rename_i hpoint
      obtain rfl := Option.some.inj hq
      subst hpoint
      exact fractionText_of_ends hends
    · split at hq
      · rename_i hmark
        obtain rfl := Option.some.inj hq
        exact .none (exponentText_of_ends hmark hends)
      · cases hq

/-- Within the whole part, digits may follow, and then a fraction. -/
theorem ends_whole_iff :
    whole.Ends w ↔ ∃ ds f, w = ds ++ f ∧ AllDigits ds ∧ FractionText f := by
  constructor
  · intro h
    induction w with
    | nil => exact ⟨[], [], rfl, nofun, .none .none⟩
    | cons c w ih =>
      obtain ⟨q, hq, hends⟩ := ends_cons_iff.mp h
      simp only [next] at hq
      split at hq
      · rename_i hdigit
        obtain rfl := Option.some.inj hq
        obtain ⟨ds, f, rfl, hds, hf⟩ := ih hends
        exact ⟨c :: ds, f, rfl, .cons hdigit hds, hf⟩
      · split at hq
        · rename_i hpoint
          obtain rfl := Option.some.inj hq
          subst hpoint
          exact ⟨[], _, rfl, nofun, fractionText_of_ends hends⟩
        · split at hq
          · rename_i hmark
            obtain rfl := Option.some.inj hq
            exact ⟨[], _, rfl, nofun, .none (exponentText_of_ends hmark hends)⟩
          · cases hq
  · rintro ⟨ds, f, rfl, hds, hf⟩
    induction ds with
    | nil => exact ends_of_fractionText (.inr rfl) hf
    | cons d ds ih =>
      obtain ⟨hd, hds⟩ := List.forall_mem_cons.mp hds
      exact ends_cons_iff.mpr ⟨whole, if_pos hd, ih hds⟩

/-- Behind its sign a number goes on exactly as the grammar says. -/
theorem ends_sign_iff : sign.Ends w ↔ UnsignedText w := by
  constructor
  · intro h
    cases w with
    | nil => cases ends_nil_iff.mp h
    | cons c w =>
      obtain ⟨q, hq, hends⟩ := ends_cons_iff.mp h
      simp only [next] at hq
      split at hq
      · rename_i hzero
        obtain rfl := Option.some.inj hq
        subst hzero
        exact .zero (ends_zero_iff.mp hends)
      · split at hq
        · rename_i hnonzero hdigit
          obtain rfl := Option.some.inj hq
          obtain ⟨ds, f, rfl, hds, hf⟩ := ends_whole_iff.mp hends
          exact .nonzero hdigit hnonzero hds hf
        · cases hq
  · intro h
    cases h with
    | zero fraction => exact ends_cons_iff.mpr ⟨zero, rfl, ends_zero_iff.mpr fraction⟩
    | @nonzero d ds f first nonzero digits fraction =>
      have hnext : sign.next d = some whole := by rw [next, if_neg nonzero, if_pos first]
      exact ends_cons_iff.mpr
        ⟨whole, hnext, ends_whole_iff.mpr ⟨ds, f, rfl, digits, fraction⟩⟩

end NumberPart

end PlatformAdmin.Json
