import PlatformAdmin.Text.Ascii
import PlatformAdmin.Text.Blank
import PlatformAdmin.Url.Percent
import PlatformAdmin.Url.Server

/-!
# Web addresses

The address of a resource on a web server, read by the rules of the URL Standard for the
schemes `http` and `https`.  Control characters and spaces at both ends are dropped, tabs and
line ends are dropped everywhere, and a backslash counts as a slash.  After the scheme comes
the authority, then the path, whose segments `.` and `..` are resolved, then perhaps a query
and a fragment.  An address whose authority names no server is none, and of an authority that
names one the address keeps the name of the server.

`Url.target` is what a request sends of the address: path and query.
-/

set_option autoImplicit false

namespace PlatformAdmin

/-- An address on a web server. -/
structure Url where
  scheme : Scheme
  /-- The server, as a request names it. -/
  authority : String
  /-- The segments of the path. -/
  segments : List String
  query : Option String := none
  fragment : Option String := none
  deriving DecidableEq, Repr

namespace Url

/-! ## Characters of the parts -/

/-- A character that the whole address drops. -/
def isLineSpace (c : Char) : Bool :=
  c == '\t' || c == '\n' || c == '\r'

/-- A control character or space, which the ends of an address drop. -/
def isControlOrSpace (c : Char) : Bool :=
  c.toNat ≤ 0x20

/-- A character that parts segments. -/
def isSlash (c : Char) : Bool :=
  c == '/' || c == '\\'

/-- A character that ends the path. -/
def endsPath (c : Char) : Bool :=
  c == '?' || c == '#'

/-- A visible ASCII character. -/
def isVisible (c : Char) : Bool :=
  0x21 ≤ c.toNat && c.toNat < 0x7F

/-- A character that stands for itself in a fragment. -/
def fragmentKeeps (c : Char) : Bool :=
  isVisible c && c != '\x22' && c != '<' && c != '>' && c != '\x60'

/-- A character that stands for itself in a path. -/
def pathKeeps (c : Char) : Bool :=
  fragmentKeeps c && c != '#' && c != '?' && c != '\x7b' && c != '\x7d'

/-- A character that stands for itself in a query. -/
def queryKeeps (c : Char) : Bool :=
  isVisible c && c != '\x22' && c != '#' && c != '<' && c != '>' && c != '\x27'

/-! ## Paths -/

/-- A segment with `%2e` read as a dot. -/
def plainDots : List Char → List Char
  | '%' :: '2' :: e :: rest =>
    if e = 'e' ∨ e = 'E' then '.' :: plainDots rest else '%' :: '2' :: e :: plainDots rest
  | c :: rest => c :: plainDots rest
  | [] => []

/-- Whether a segment stands for the place where it stands. -/
def isSingleDot (segment : List Char) : Bool :=
  plainDots segment == ['.']

/-- Whether a segment stands for the place above. -/
def isDoubleDot (segment : List Char) : Bool :=
  plainDots segment == ['.', '.']

/-- Whether a segment names a drive, which `..` does not leave. -/
def isDrive (segment : List Char) : Bool :=
  match segment with
  | [letter, mark] => letter.isAlpha && (mark == ':' || mark == '|')
  | _ => false

/-- The segments, last first, after a step up. -/
def parent : List (List Char) → List (List Char)
  | [] => []
  | segment :: above => if isDrive segment then segment :: above else above

/-- The path of segments that are read in turn from a place, given last first: a dot stays, two
dots go up, and either leaves an empty last segment at the end of the path. -/
def resolve (place : List (List Char)) : List (List Char) → List (List Char)
  | [] => place.reverse
  | segment :: rest =>
    if isDoubleDot segment then
      resolve (if rest.isEmpty then [] :: parent place else parent place) rest
    else if isSingleDot segment then resolve (if rest.isEmpty then [] :: place else place) rest
    else resolve (encodeExcept pathKeeps segment :: place) rest

/-- The segments of a path that is written with its leading slash, or not at all. -/
def pathOf (written : List Char) : List String :=
  (resolve [] (splitWhere isSlash (written.drop 1))).map String.ofList

/-! ## Reading and writing -/

/-- What follows a scheme and its colon. -/
def afterScheme? (s : List Char) : Option (Scheme × List Char) :=
  if Text.lowerAscii (s.take 5) = "http:".toList then some (.http, s.drop 5)
  else if Text.lowerAscii (s.take 6) = "https:".toList then some (.https, s.drop 6)
  else none

/-- The address as it is read: without control characters and spaces at its ends, and without
tabs and line ends. -/
def cleaned (s : List Char) : List Char :=
  (Text.dropAround isControlOrSpace s).filter fun c => !isLineSpace c

/-- The query and fragment that follow a path. -/
def queryAndFragment (s : List Char) : Option String × Option String :=
  let beforeMark := s.takeWhile (· != '#')
  let afterMark := s.drop beforeMark.length
  (match beforeMark with
    | '?' :: query => some (String.ofList (encodeExcept queryKeeps query))
    | _ => none,
   match afterMark with
    | '#' :: fragment => some (String.ofList (encodeExcept fragmentKeeps fragment))
    | _ => none)

/-- Reads an address, with rules for the names of servers. -/
def parse? (rules : NameRules) (text : String) : Option Url := do
  let (scheme, rest) ← afterScheme? (cleaned text.toList)
  let rest := rest.dropWhile isSlash
  let authority := rest.takeWhile fun c => !(isSlash c || endsPath c)
  let rest := rest.drop authority.length
  let path := rest.takeWhile fun c => !endsPath c
  let (query, fragment) := queryAndFragment (rest.drop path.length)
  let server ← server? rules scheme authority
  some { scheme, authority := server, segments := pathOf path, query, fragment }

/-- The path as it is written. -/
def path (u : Url) : String :=
  "/" ++ "/".intercalate u.segments

/-- A part of the address after its mark, if it is there. -/
def marked (mark : String) : Option String → String
  | none => ""
  | some part => mark ++ part

/-- What a request sends of the address: path and query. -/
def target (u : Url) : String :=
  u.path ++ marked "?" u.query

/-- The whole address. -/
def text (u : Url) : String :=
  u.scheme.name ++ "://" ++ u.authority ++ u.target ++ marked "#" u.fragment

/-- The address with a named value added to its query. -/
def addQuery (u : Url) (name value : String) : Url :=
  let pair := String.ofList (formEncode name.toList ++ '=' :: formEncode value.toList)
  { u with query := some (match u.query with
      | none => pair
      | some "" => pair
      | some query => query ++ "&" ++ pair) }

end Url

end PlatformAdmin
