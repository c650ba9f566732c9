import PlatformAdmin.Text.Ascii
import PlatformAdmin.Text.Utf8
import PlatformAdmin.Url.Percent

/-!
# Servers

The authority of a web address names a server: a host, perhaps with a port behind it and with
user information before it.  It is read by the rules of the URL Standard, and `server?` gives it
in the one form in which a request names it: numbers and letters of the host in their normal
form, without the port at which servers of the scheme are expected, and without user
information.  Where the rules refuse the host or the port, or a request cannot carry the host,
there is no server.

A host is a number of the Internet Protocol, in its version 6 if it stands in brackets and in
its version 4 if it ends in a number, or else a name.  Names in ASCII are read here.  For a name
with other characters, or with a part that says it stands for such a name, there are tables of
the library that sends the requests, which `NameRules` stands for.
-/

set_option autoImplicit false

namespace PlatformAdmin

/-- How to speak to a server. -/
inductive Scheme
  | http
  | https
  deriving DecidableEq, Repr

/-- The name of a scheme. -/
def Scheme.name : Scheme → String
  | .http => "http"
  | .https => "https"

/-- The port at which the servers of a scheme are expected. -/
def Scheme.port : Scheme → Nat
  | .http => 80
  | .https => 443

namespace Url

/-- What the name of a server is written as in ASCII, unless it is none: the rules for names with
characters outside ASCII and for names that stand for such names. -/
abbrev NameRules : Type := String → Option String

/-- The pieces of a list between the elements that satisfy `p`. -/
def splitWhere {α : Type} (p : α → Bool) : List α → List (List α)
  | [] => [[]]
  | a :: rest =>
    if p a then [] :: splitWhere p rest
    else
      match splitWhere p rest with
      | piece :: pieces => (a :: piece) :: pieces
      | [] => [[a]]

/-- The number that digits write in a base; no digits write zero. -/
def numeral? (base : Nat) (digits : List Char) : Option Nat :=
  digits.foldlM (fun n c => do
    let digit ← Text.hexValue? c
    if digit < base then some (n * base + digit) else none) 0

/-! ## Numbers of version 4 -/

/-- One part of such a number: it is written in base ten, behind a zero in base eight, and behind
a zero and an `x` in base sixteen. -/
def ipv4Part? : List Char → Option Nat
  | [] => none
  | '0' :: mark :: digits =>
    if mark = 'x' ∨ mark = 'X' then numeral? 16 digits else numeral? 8 (mark :: digits)
  | digits => numeral? 10 digits

/-- The parts of a host between its dots, of which one may be the last character. -/
def hostParts (host : List Char) : List (List Char) :=
  let parts := splitWhere (· == '.') host
  if parts.getLast? = some [] then parts.dropLast else parts

/-- Whether the last part of a host is a number, or is meant for one. -/
def endsInNumber (host : List Char) : Bool :=
  match (hostParts host).getLast? with
  | none => false
  | some part => (!part.isEmpty && part.all Char.isDigit) || (ipv4Part? part).isSome

/-- The number that a host writes: each part but the last is one byte, and the last part is all
bytes that are left. -/
def ipv4? (host : List Char) : Option Nat := do
  let numbers ← (hostParts host).mapM ipv4Part?
  let last ← numbers.getLast?
  let bytes := numbers.dropLast
  let left := Nat.pow 256 (4 - bytes.length)
  if bytes.length < 4 ∧ (∀ b ∈ bytes, b < 256) ∧ last < left then
    some (bytes.foldl (· * 256 + ·) 0 * left + last)
  else none

/-- A number of version 4, byte by byte. -/
def ipv4Text (n : Nat) : List Char :=
  ['.'].intercalate
    ([n / 0x1000000, n / 0x10000 % 256, n / 0x100 % 256, n % 256].map (Nat.toDigits 10))

/-! ## Numbers of version 6 -/

/-- One of the eight pieces of such a number. -/
def ipv6Piece? (digits : List Char) : Option Nat :=
  if digits.isEmpty ∨ 4 < digits.length then none else numeral? 16 digits

/-- A byte in base ten, without a zero before its digits. -/
def byte? (digits : List Char) : Option Nat :=
  if digits.isEmpty ∨ (1 < digits.length ∧ digits.head? = some '0') then none
  else (numeral? 10 digits).filter (· < 256)

/-- Two pieces that are written as four bytes. -/
def bytePieces? (written : List Char) : Option (List Nat) :=
  match (splitWhere (· == '.') written).mapM byte? with
  | some [a, b, c, d] => some [a * 256 + b, c * 256 + d]
  | _ => none

/-- What stands between the colons; nothing stands there in the empty text. -/
def betweenColons (written : List Char) : List (List Char) :=
  if written.isEmpty then [] else splitWhere (· == ':') written

/-- Pieces, of which the last two may be written as four bytes. -/
def ipv6Pieces? : List (List Char) → Option (List Nat)
  | [] => some []
  | [last] => if '.' ∈ last then bytePieces? last else (ipv6Piece? last).map ([·])
  | first :: rest => do
    let piece ← ipv6Piece? first
    let pieces ← ipv6Pieces? rest
    some (piece :: pieces)

/-- The text before the first pair of colons, and the text behind it. -/
def splitPair : List Char → List Char × Option (List Char)
  | [] => ([], none)
  | ':' :: ':' :: behind => ([], some behind)
  | c :: rest => (c :: (splitPair rest).1, (splitPair rest).2)

/-- The eight pieces of a number: a pair of colons stands for as many zeros as are missing, and
for one at least. -/
def ipv6? (written : List Char) : Option (List Nat) :=
  match splitPair written with
  | (all, none) => (ipv6Pieces? (betweenColons all)).filter (·.length == 8)
  | (before, some behind) => do
    let front ← (betweenColons before).mapM ipv6Piece?
    let back ← ipv6Pieces? (betweenColons behind)
    if front.length + back.length < 8 then
      some (front ++ List.replicate (8 - (front.length + back.length)) 0 ++ back)
    else none

/-- A number of version 6, piece by piece; a pair of colons stands for the first of the longest
runs of zeros, if that has more than one. -/
def ipv6Text (pieces : List Nat) : List Char :=
  let write := fun some => [':'].intercalate (some.map (Nat.toDigits 16))
  let runs := (List.range pieces.length).map fun i =>
    ((pieces.drop i).takeWhile (· == 0)).length
  let longest := runs.foldl max 0
  let start := runs.idxOf longest
  if longest < 2 then write pieces
  else write (pieces.take start) ++ [':', ':'] ++ write (pieces.drop (start + longest))

/-! ## Names -/

/-- A character that the name of a server can hold in a request. -/
def nameKeeps (c : Char) : Bool :=
  c.isAlphanum || "!$&'()*+,-.;=_~".toList.contains c

/-- Whether a name has a character outside ASCII, or a part that says it stands for some. -/
def isInternational (name : List Char) : Bool :=
  name.any (fun c => 0x80 ≤ c.toNat) ||
    (splitWhere (· == '.') name).any fun part =>
      "xn--".toList.isPrefixOf (Text.lowerAscii part)

/-- The name that is written in an address, where characters may be percent-encoded. -/
def name? (rules : NameRules) (written : List Char) : Option (List Char) := do
  let text ← Text.Utf8.decode? (decode written)
  let name ←
    if isInternational text.toList then (rules text).map String.toList
    else some (Text.lowerAscii text.toList)
  if name.isEmpty then none else if name.all nameKeeps then some name else none

/-! ## Authorities -/

/-- The host that is written in an address. -/
def host? (rules : NameRules) : List Char → Option (List Char)
  | '[' :: written =>
    if written.getLast? = some ']' then
      (ipv6? written.dropLast).map fun pieces => '[' :: (ipv6Text pieces ++ [']'])
    else none
  | written => do
    let name ← name? rules written
    if endsInNumber name then (ipv4? name).map ipv4Text else some name

/-- What stands before the first colon outside brackets, and what stands behind it. -/
def splitPort (inBrackets : Bool) : List Char → List Char × Option (List Char)
  | [] => ([], none)
  | c :: rest =>
    if c = ':' ∧ inBrackets = false then ([], some rest)
    else
      let parts := splitPort (c = '[' || inBrackets && c != ']') rest
      (c :: parts.1, parts.2)

/-- The port of an address with its colon, unless it goes without saying. -/
def port? (scheme : Scheme) : Option (List Char) → Option (List Char)
  | none => some []
  | some digits => do
    let port ← numeral? 10 digits
    if 65535 < port then none
    else if digits = [] ∨ port = scheme.port then some []
    else some (':' :: Nat.toDigits 10 port)

/-- A character that stands for itself in user information. -/
def userKeeps (c : Char) : Bool :=
  c.isAlphanum || "!$%&'()*+,-._~".toList.contains c

/-- What a request keeps in its address of the user information there.  A user name and a password
that are text are taken out of it, since they belong into a header. -/
def keptUserInfo (written : List Char) : List Char :=
  let name := written.takeWhile (· != ':')
  let password := (written.drop name.length).drop 1
  let isText := fun part => (Text.Utf8.decode? (decode part)).isSome
  if isText name ∧ (name ≠ [] ∨ password = [] ∨ isText password) then []
  else
    encodeExcept userKeeps name ++
      (if password = [] then [] else ':' :: encodeExcept userKeeps password) ++ ['@']

/-- The server that an authority names, as a request names it. -/
def server? (rules : NameRules) (scheme : Scheme) (authority : List Char) : Option String := do
  let written := (authority.reverse.takeWhile (· != '@')).reverse
  let user := authority.take (authority.length - (written.length + 1))
  let parts := splitPort false written
  let host ← host? rules parts.1
  let port ← port? scheme parts.2
  some (String.ofList (keptUserInfo user ++ host ++ port))

end Url

end PlatformAdmin
