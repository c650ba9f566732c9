import PlatformAdmin.Text.Ascii
import PlatformAdmin.Text.Utf8
import PlatformAdmin.Url.Basic

/-!
# Messages between client and server

A request names a method and an address and may have a body.  What comes back is a delivery:
a whole reply, a reply that breaks off within its body, or nothing.  A network is anything that
turns requests into deliveries, with a state of its own.

A network stands for the servers together with the library that speaks to them, which opens the
connections, goes through proxies and follows where a reply sends it on.  So a request is sent
when it is handed to that library, and its delivery is what the library hands back.
-/

set_option autoImplicit false

namespace PlatformAdmin.Http

/-- What a request asks for. -/
inductive Method
  | get
  | patch
  | delete
  deriving DecidableEq, Repr

/-- How a method is written. -/
def Method.name : Method → String
  | .get => "GET"
  | .patch => "PATCH"
  | .delete => "DELETE"

/-- A request. -/
structure Request where
  method : Method
  url : Url
  /-- Names in lower case, each with its value. -/
  headers : List (String × String)
  body : Option String := none
  /-- Whether any certificate of the server will do. -/
  trustsAnyone : Bool := false
  deriving DecidableEq, Repr

/-- What a reply begins with. -/
structure Head where
  status : Nat
  headers : List (String × List UInt8) := []
  deriving DecidableEq, Repr

/-- What comes back for a request. -/
inductive Delivery
  /-- Nothing. -/
  | lost
  /-- A reply whose body breaks off. -/
  | brokenOff (head : Head)
  | whole (head : Head) (body : List UInt8)
  deriving DecidableEq, Repr

/-- A network, with a state of type `σ`: the library that sends requests, and the servers. -/
structure Network (σ : Type) where
  deliver : Request → σ → Delivery × σ
  /-- The rules of the library for names of servers that are not in ASCII; by themselves there are
  no such names. -/
  nameRules : Url.NameRules := fun _ => none

/-- A network on which nothing can be reached. -/
def Network.down {σ : Type} : Network σ where
  deliver _ s := (.lost, s)

/-- The greatest number of bytes an address may have in a request. -/
def maxUrlBytes : Nat := 65534

/-- Whether a text can be the value of a header: it has no control character but the tab. -/
def isHeaderValue (value : String) : Bool :=
  value.toList.all fun c => c == '\t' || (0x20 ≤ c.toNat && c.toNat != 0x7F)

/-- Whether a byte of a header's value is text: a visible character, a space or a tab. -/
def isTextByte (b : UInt8) : Bool :=
  b == 9 || (0x20 ≤ b && b < 0x7F)

/-- The value of a header, if all of it is text. -/
def headerText? (value : List UInt8) : Option (List Char) :=
  if value.all isTextByte then some (value.map fun b => Char.ofNat b.toNat) else none

/-- The values of the headers of a name, whose letters count in either case. -/
def Head.values (head : Head) (name : String) : List (List UInt8) :=
  head.headers.filterMap fun h =>
    if Text.equalsIgnoringCase h.1 name then some h.2 else none

end PlatformAdmin.Http
