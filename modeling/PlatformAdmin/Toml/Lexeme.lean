import PlatformAdmin.Text.Hexadecimal
import PlatformAdmin.Toml.Value

/-!
# Bare TOML values

Truth values, numbers and dates are written without quotation marks, as a run of letters,
digits and the characters `+ - _ . :`.  Here such a run is read as a whole.

* An integer is decimal, or hexadecimal, octal or binary behind `0x`, `0o` or `0b`.
  Underscores may stand between digits, a decimal integer has no leading zero, and the value
  has to fit into 64 bits.
* A fractional number has a fraction or an exponent, or is `inf` or `nan`.  One that rounds to
  positive infinity is refused.
* A date, a time, or a date with a time and perhaps an offset follows RFC 3339.
-/

set_option autoImplicit false

namespace PlatformAdmin.Toml.Lexeme

/-- A character of a bare value. -/
def isBareValueChar (c : Char) : Bool :=
  c.isAlphanum || c == '+' || c == '-' || c == '_' || c == '.' || c == ':'

/-- The value of a digit in any base up to sixteen; sixteen for any other character. -/
def digitValue (c : Char) : Nat :=
  (Text.hexValue? c).getD 16

/-- Digits without the underscores between them; an underscore that does not stand between two
digits is no part of a number. -/
def ungroup? (base : Nat) : List Char → Option (List Char)
  | [] => none
  | [c] => if digitValue c < base then some [c] else none
  | c :: '_' :: rest =>
    if digitValue c < base then (ungroup? base rest).map (c :: ·) else none
  | c :: rest => if digitValue c < base then (ungroup? base rest).map (c :: ·) else none

/-- The number that digits denote. -/
def numberOf (base : Nat) (digits : List Char) : Nat :=
  digits.foldl (fun n c => n * base + digitValue c) 0

/-- The digits of a decimal integer without a sign: no leading zero. -/
def wholeDigits? (s : List Char) : Option (List Char) := do
  let digits ← ungroup? 10 s
  if digits.head? = some '0' ∧ s.length ≠ 1 then none else some digits

/-- A number that fits into 64 bits with a sign. -/
def fitting? (n : Int) : Option Int :=
  if -0x8000000000000000 ≤ n ∧ n < 0x8000000000000000 then some n else none

/-- Reads an integer. -/
def integer? : List Char → Option Int
  | '0' :: 'x' :: s => do fitting? (numberOf 16 (← ungroup? 16 s))
  | '0' :: 'o' :: s => do fitting? (numberOf 8 (← ungroup? 8 s))
  | '0' :: 'b' :: s => do fitting? (numberOf 2 (← ungroup? 2 s))
  | '-' :: s => do fitting? (-(numberOf 10 (← wholeDigits? s) : Int))
  | '+' :: s => do fitting? (numberOf 10 (← wholeDigits? s))
  | s => do fitting? (numberOf 10 (← wholeDigits? s))

/-! ## Fractional numbers -/

/-- Whether `digits` times ten to the `exponent` is at least half way from the greatest finite
number of the double format to the next power of two, and so rounds to infinity. -/
def roundsToInfinity (digits : Nat) (exponent : Int) : Bool :=
  if digits = 0 then false
  else
    let limit := Nat.pow 2 1024 - Nat.pow 2 970
    let length : Int := (Nat.toDigits 10 digits).length
    if length + exponent > 310 then true
    else if length + exponent < 300 then false
    else if 0 ≤ exponent then limit ≤ digits * Nat.pow 10 exponent.toNat
    else limit * Nat.pow 10 (-exponent).toNat ≤ digits

/-- Reads an exponent. -/
def exponent? : List Char → Option Int
  | '-' :: s => (ungroup? 10 s).map fun digits => -(numberOf 10 digits : Int)
  | '+' :: s => (ungroup? 10 s).map fun digits => (numberOf 10 digits : Int)
  | s => (ungroup? 10 s).map fun digits => (numberOf 10 digits : Int)

/-- Whether a text is a fractional number without a sign; a positive one may not be infinite. -/
def isUnsignedFloat (isNegative : Bool) (s : List Char) : Bool :=
  if s = ['i', 'n', 'f'] ∨ s = ['n', 'a', 'n'] then true
  else
    let isMark := fun c => c == 'e' || c == 'E'
    let mantissa := s.takeWhile fun c => !isMark c
    let whole := mantissa.takeWhile (· != '.')
    let fraction : Option (List Char) :=
      match mantissa.drop whole.length with
      | _ :: digits => ungroup? 10 digits
      | [] => some []
    let hasFraction := mantissa.length ≠ whole.length
    let exponent : Option Int :=
      match s.drop mantissa.length with
      | _ :: digits => exponent? digits
      | [] => some 0
    let hasExponent := s.length ≠ mantissa.length
    match wholeDigits? whole, fraction, exponent with
    | some whole, some fraction, some exponent =>
      (hasFraction || hasExponent)
        && (isNegative
          || !roundsToInfinity (numberOf 10 (whole ++ fraction)) (exponent - fraction.length))
    | _, _, _ => false

/-- Whether a text is a fractional number. -/
def isFloat : List Char → Bool
  | '-' :: s => isUnsignedFloat true s
  | '+' :: s => isUnsignedFloat false s
  | s => isUnsignedFloat false s

/-! ## Dates and times -/

/-- The number that a field of so many decimal digits denotes, and what follows it. -/
def field? (length : Nat) (s : List Char) : Option (Nat × List Char) :=
  let digits := s.take length
  if digits.length = length ∧ digits.all Char.isDigit then
    some (numberOf 10 digits, s.drop length)
  else none

/-- What follows a mark. -/
def after? (mark : Char) : List Char → Option (List Char)
  | c :: rest => if c = mark then some rest else none
  | [] => none

/-- The number of days in a month. -/
def daysIn (year month : Nat) : Nat :=
  if month = 2 then
    if year % 4 = 0 ∧ (year % 100 ≠ 0 ∨ year % 400 = 0) then 29 else 28
  else if month = 4 ∨ month = 6 ∨ month = 9 ∨ month = 11 then 30
  else 31

/-- What follows a date. -/
def afterDate? (s : List Char) : Option (List Char) := do
  let (year, s) ← field? 4 s
  let s ← after? '-' s
  let (month, s) ← field? 2 s
  let s ← after? '-' s
  let (day, s) ← field? 2 s
  guard (1 ≤ month ∧ month ≤ 12 ∧ 1 ≤ day ∧ day ≤ daysIn year month)
  some s

/-- What follows a fraction of a second, if there is one. -/
def afterFraction? : List Char → Option (List Char)
  | '.' :: s => if (s.takeWhile Char.isDigit).isEmpty then none else some (s.dropWhile Char.isDigit)
  | s => some s

/-- What follows hours and minutes. -/
def afterMinutes? (s : List Char) : Option (List Char) := do
  let (hour, s) ← field? 2 s
  let s ← after? ':' s
  let (minute, s) ← field? 2 s
  guard (hour ≤ 23 ∧ minute ≤ 59)
  some s

/-- What follows a time; a leap second is allowed. -/
def afterTime? (s : List Char) : Option (List Char) := do
  let s ← afterMinutes? s
  let s ← after? ':' s
  let (second, s) ← field? 2 s
  guard (second ≤ 60)
  afterFraction? s

/-- Whether a text is an offset from universal time, or nothing. -/
def isOffset : List Char → Bool
  | [] => true
  | ['Z'] => true
  | ['z'] => true
  | c :: s => (c == '+' || c == '-') && afterMinutes? s == some []

/-- Whether a text is a time, perhaps with an offset. -/
def isTimeWithOffset (s : List Char) : Bool :=
  match afterTime? s with
  | some rest => isOffset rest
  | none => false

/-- Whether a text is a date. -/
def isDate (s : List Char) : Bool :=
  afterDate? s == some []

/-- Whether a text is a date, a time, or both joined by a letter `T`. -/
def isMoment (s : List Char) : Bool :=
  match afterDate? s with
  | some [] => true
  | some (c :: rest) => (c == 'T' || c == 't') && isTimeWithOffset rest
  | none => afterTime? s == some []

/-! ## All bare values -/

/-- Reads a bare value. -/
def value? (s : List Char) : Option Value :=
  if s = ['t', 'r', 'u', 'e'] then some (.boolean true)
  else if s = ['f', 'a', 'l', 's', 'e'] then some (.boolean false)
  else
    match integer? s with
    | some n => some (.integer n)
    | none =>
      if isFloat s then some (.float (String.ofList s))
      else if isMoment s then some (.moment (String.ofList s))
      else none

end PlatformAdmin.Toml.Lexeme
