import PlatformAdmin.Json.Basic
import PlatformAdmin.Text.Hexadecimal
import PlatformAdmin.Text.Utf8

/-!
# How JSON is written

The relations of this module say which texts spell a JSON value: `Spells` for a value without blanks
around it, `IsText` with them.  They follow the grammar of JSON and speak of texts alone, not of the
reader.  A character that is `none` stands for bytes that spell none; it may stand within a string,
which then denotes no text.  A surrogate that is written alone denotes no character either.
-/

set_option autoImplicit false

namespace PlatformAdmin.Json

/-- Blanks between tokens. -/
def Blanks (b : List (Option Char)) : Prop :=
  ∀ c ∈ b, c = some ' ' ∨ c = some '\t' ∨ c = some '\n' ∨ c = some '\r'

instance (b : List (Option Char)) : Decidable (Blanks b) :=
  List.decidableBAll _ b

/-! ## Numbers -/

/-- Any number of decimal digits. -/
def AllDigits (ds : List Char) : Prop :=
  ∀ d ∈ ds, d.isDigit = true

instance (ds : List Char) : Decidable (AllDigits ds) :=
  List.decidableBAll _ ds

/-- The exponent of a number, which may be left out. -/
inductive ExponentText : List Char → Prop
  | none : ExponentText []
  | unsigned {mark : Char} {ds : List Char} (hmark : mark = 'e' ∨ mark = 'E') (nonempty : ds ≠ [])
      (digits : AllDigits ds) : ExponentText (mark :: ds)
  | signed {mark sign : Char} {ds : List Char} (hmark : mark = 'e' ∨ mark = 'E')
      (hsign : sign = '+' ∨ sign = '-') (nonempty : ds ≠ []) (digits : AllDigits ds) :
      ExponentText (mark :: sign :: ds)

/-- The fraction of a number, which may be left out, and its exponent. -/
inductive FractionText : List Char → Prop
  | none {e : List Char} (exponent : ExponentText e) : FractionText e
  | point {ds e : List Char} (nonempty : ds ≠ []) (digits : AllDigits ds)
      (exponent : ExponentText e) : FractionText ('.' :: (ds ++ e))

/-- A number without a sign: only zero begins with a zero. -/
inductive UnsignedText : List Char → Prop
  | zero {f : List Char} (fraction : FractionText f) : UnsignedText ('0' :: f)
  | nonzero {d : Char} {ds f : List Char} (first : d.isDigit = true) (nonzero : d ≠ '0')
      (digits : AllDigits ds) (fraction : FractionText f) : UnsignedText (d :: (ds ++ f))

/-- A number. -/
inductive NumberText : List Char → Prop
  | positive {w : List Char} (unsigned : UnsignedText w) : NumberText w
  | negative {w : List Char} (unsigned : UnsignedText w) : NumberText ('-' :: w)

/-! ## Strings -/

/-- The letters of the short escapes, with the characters that they stand for. -/
def shortEscapes : List (Char × Char) :=
  [('\x22', '\x22'), ('\\', '\\'), ('/', '/'), ('b', Char.ofNat 8), ('f', Char.ofNat 12),
    ('n', '\n'), ('r', '\r'), ('t', '\t')]

/-- An escape that writes a UTF-16 unit by its number, in four hexadecimal digits. -/
inductive UnitText (u : Nat) : List (Option Char) → Prop
  | digits {a b c d : Char} {i j k l : Nat} (first : Text.hexValue? a = some i)
      (second : Text.hexValue? b = some j) (third : Text.hexValue? c = some k)
      (fourth : Text.hexValue? d = some l) (number : ((i * 16 + j) * 16 + k) * 16 + l = u) :
      UnitText u [some '\\', some 'u', some a, some b, some c, some d]

/-- The first unit of a pair. -/
def IsHigh (u : Nat) : Prop := 0xD800 ≤ u ∧ u ≤ 0xDBFF

/-- The second unit of a pair. -/
def IsLow (u : Nat) : Prop := 0xDC00 ≤ u ∧ u ≤ 0xDFFF

/-- The character that a pair of units stands for. -/
def pairChar (high low : Nat) : Char :=
  Char.ofNat (0x10000 + (high - 0xD800) * 0x400 + (low - 0xDC00))

/-- The text begins with an escape for the second unit of a pair. -/
def BeginsLow (w : List (Option Char)) : Prop :=
  ∃ u e rest, IsLow u ∧ UnitText u e ∧ w = e ++ rest

/-- What a string denotes, character by character, and how it is written between the marks. -/
inductive StringChars : List (Option Char) → List (Option Char) → Prop
  | nil : StringChars [] []
  | itself {c : Char} {cs w : List (Option Char)} (noMark : c ≠ '\x22') (noEscape : c ≠ '\\')
      (noControl : 0x20 ≤ c.toNat) (others : StringChars cs w) :
      StringChars (some c :: cs) (some c :: w)
  | noChar {cs w : List (Option Char)} (others : StringChars cs w) :
      StringChars (none :: cs) (none :: w)
  | short {letter c : Char} {cs w : List (Option Char)} (escape : (letter, c) ∈ shortEscapes)
      (others : StringChars cs w) :
      StringChars (some c :: cs) (some '\\' :: some letter :: w)
  | unit {u : Nat} {e cs w : List (Option Char)} (escape : UnitText u e) (notHigh : ¬IsHigh u)
      (notLow : ¬IsLow u) (others : StringChars cs w) :
      StringChars (some (Char.ofNat u) :: cs) (e ++ w)
  | pair {h l : Nat} {e e' cs w : List (Option Char)} (high : IsHigh h) (low : IsLow l)
      (first : UnitText h e) (second : UnitText l e') (others : StringChars cs w) :
      StringChars (some (pairChar h l) :: cs) (e ++ (e' ++ w))
  | lone {u : Nat} {e cs w : List (Option Char)} (escape : UnitText u e)
      (surrogate : IsHigh u ∨ IsLow u) (unpaired : IsHigh u → ¬BeginsLow w)
      (others : StringChars cs w) : StringChars (none :: cs) (e ++ w)

/-- A string, and the text that it denotes if it denotes one. -/
inductive StringText : Option String → List (Option Char) → Prop
  | quoted {cs w : List (Option Char)} (chars : StringChars cs w) :
      StringText (Text.Utf8.text? cs) (some '\x22' :: (w ++ [some '\x22']))

/-! ## Values -/

/-- The values that are words. -/
def words : List (List Char × Json) :=
  [(['n', 'u', 'l', 'l'], .null), (['t', 'r', 'u', 'e'], .bool true),
    (['f', 'a', 'l', 's', 'e'], .bool false)]

mutual

/-- A text spells a value. -/
inductive Spells : Json → List (Option Char) → Prop
  | word {letters : List Char} {v : Json} (word : (letters, v) ∈ words) :
      Spells v (letters.map some)
  | number {w : List Char} (numberText : NumberText w) :
      Spells (.number (String.ofList w)) (w.map some)
  | string {text : Option String} {w : List (Option Char)} (stringText : StringText text w) :
      Spells (.string text) w
  | emptyArray {b : List (Option Char)} (blanks : Blanks b) :
      Spells (.array []) (some '[' :: (b ++ [some ']']))
  | array {items : List Json} {w : List (Option Char)} (itemsText : ItemsText items w) :
      Spells (.array items) (some '[' :: (w ++ [some ']']))
  | emptyObject {b : List (Option Char)} (blanks : Blanks b) :
      Spells (.object []) (some '\x7b' :: (b ++ [some '\x7d']))
  | object {members : List (Option String × Json)} {w : List (Option Char)}
      (membersText : MembersText members w) :
      Spells (.object members) (some '\x7b' :: (w ++ [some '\x7d']))

/-- The items between two brackets, of which there is one at least. -/
inductive ItemsText : List Json → List (Option Char) → Prop
  | last {v : Json} {b w a : List (Option Char)} (before : Blanks b) (item : Spells v w)
      (behind : Blanks a) : ItemsText [v] (b ++ (w ++ a))
  | cons {v : Json} {vs : List Json} {b w a ws : List (Option Char)} (before : Blanks b)
      (item : Spells v w) (behind : Blanks a) (others : ItemsText vs ws) :
      ItemsText (v :: vs) (b ++ (w ++ (a ++ some ',' :: ws)))

/-- A key, a colon and a value. -/
inductive MemberText : Option String × Json → List (Option Char) → Prop
  | member {key : Option String} {v : Json} {b wk a b' w a' : List (Option Char)}
      (before : Blanks b) (keyText : StringText key wk) (behind : Blanks a) (before' : Blanks b')
      (value : Spells v w) (behind' : Blanks a') :
      MemberText (key, v) (b ++ (wk ++ (a ++ some ':' :: (b' ++ (w ++ a')))))

/-- The members between two braces, of which there is one at least. -/
inductive MembersText : List (Option String × Json) → List (Option Char) → Prop
  | last {m : Option String × Json} {w : List (Option Char)} (member : MemberText m w) :
      MembersText [m] w
  | cons {m : Option String × Json} {ms : List (Option String × Json)} {w ws : List (Option Char)}
      (member : MemberText m w) (others : MembersText ms ws) :
      MembersText (m :: ms) (w ++ some ',' :: ws)

end

/-- A text of one value, with blanks around it. -/
inductive IsText (v : Json) : List (Option Char) → Prop
  | text {b w a : List (Option Char)} (before : Blanks b) (value : Spells v w)
      (behind : Blanks a) : IsText v (b ++ (w ++ a))

end PlatformAdmin.Json
