import PlatformAdmin.Http.Message
import PlatformAdmin.Http.Status

/-!
# A scripted server

A server that gives its replies from a script, one for each request that reaches it, and keeps
the requests it has seen.  It is reached by `http` under its own name only.  Once the script is
used up a request is lost, and not seen.
-/

set_option autoImplicit false

namespace PlatformAdmin.Http

/-- A reply laid down in a script. -/
structure ScriptedReply where
  status : Nat := 200
  headers : List (String × List UInt8) := []
  body : List UInt8 := []
  /-- The length that the reply claims for its body, if that is not the true one. -/
  claimedLength : Option Nat := none
  /-- The connection closes without a reply. -/
  closes : Bool := false
  deriving DecidableEq, Repr

/-- A blank that the ends of a header's value drop. -/
def isHeaderBlank (b : UInt8) : Bool :=
  b == 0x20 || b == 9

/-- What comes back when a scripted reply is given. -/
def ScriptedReply.delivery (r : ScriptedReply) : Delivery :=
  let head : Head :=
    { status := r.status
      headers := r.headers.map fun h => (h.1, Text.dropAround isHeaderBlank h.2) }
  if r.closes then .lost
  else if hasNoBody r.status then .whole head []
  else
    match r.claimedLength with
    | none => .whole head r.body
    | some length =>
      if r.body.length < length then .brokenOff head else .whole head (r.body.take length)

/-- A server with what is left of its script. -/
structure ScriptedServer where
  /-- The name under which it is reached. -/
  authority : String
  script : List ScriptedReply := []
  /-- The requests it has seen, oldest first. -/
  seen : List Request := []
  deriving DecidableEq, Repr

namespace ScriptedServer

/-- The address of the server, without a path. -/
def base (s : ScriptedServer) : String := "http://" ++ s.authority

/-- Whether a request reaches the server. -/
def isReachedBy (s : ScriptedServer) (url : Url) : Bool :=
  url.scheme = .http && url.authority == s.authority

/-- Sends a request. -/
def deliver (request : Request) (s : ScriptedServer) : Delivery × ScriptedServer :=
  if s.isReachedBy request.url then
    match s.script with
    | [] => (.lost, s)
    | reply :: rest => (reply.delivery, { s with script := rest, seen := s.seen ++ [request] })
  else (.lost, s)

/-- The network on which a scripted server is all there is. -/
def network : Network ScriptedServer where
  deliver := deliver

end ScriptedServer

end PlatformAdmin.Http
