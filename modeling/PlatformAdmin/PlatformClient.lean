import PlatformAdmin.Config
import PlatformAdmin.PlatformClient.Reply

/-!
# The client of the platform's server

The client turns each call into one request at most and reads the reply.  It knows the current
user without asking.  A token that cannot be sent is reported before anything else, and nothing
is sent to an address that is none.

`Gateway.ofConfig` is the gateway that a configuration leads to: the client if there is an
endpoint and a session, else the gateway that knows no endpoint.
-/

set_option autoImplicit false

namespace PlatformAdmin

/-- What the client needs to know. -/
structure PlatformClient where
  /-- The address of the server, without slashes at its end. -/
  base : String
  /-- What is sent as proof of the session. -/
  authorization : String
  user : Option String
  skipSslValidation : Bool := false
  deriving DecidableEq, Repr

namespace PlatformClient

/-- What is sent for a token: the token itself if it names its scheme, else the scheme and the
token. -/
def authorizationOf (token : String) : String :=
  if "bearer ".toList.isPrefixOf (Text.lowerAscii token.toList) then token
  else "bearer " ++ token

/-- The client for a server and a session. -/
def ofSession (base token : String) (user : Option String) (skipSslValidation : Bool) :
    PlatformClient where
  base := String.ofList (Text.dropTrailing (· == '/') base.toList)
  authorization := authorizationOf token
  user := user
  skipSslValidation := skipSslValidation

/-- The description of the client shows neither token nor settings. -/
def describe (c : PlatformClient) : String :=
  Text.describeRecord "CloudControllerGateway"
    [("api_base", Text.quoted c.base), ("user", Text.describeOption (c.user.map Text.quoted))]

variable {σ : Type}

/-- The address of a resource on the server. -/
def url? (c : PlatformClient) (net : Http.Network σ) (path : String) : Option Url :=
  Url.parse? net.nameRules (c.base ++ path)

/-- The headers of every request. -/
def headers (c : PlatformClient) : List (String × String) :=
  [("accept", "application/json"), ("user-agent", "cfkit"), ("authorization", c.authorization)]

/-- The headers that a body asks for. -/
def contentHeaders (body : Option Json) : List (String × String) :=
  if body.isSome then [("content-type", "application/json")] else []

/-- A request, if it can be made: the token has to fit into a header and the address has to be
one. -/
def request (c : PlatformClient) (method : Http.Method) (url : Option Url)
    (body : Option Json) : Except PlatformError Http.Request :=
  if Http.isHeaderValue c.authorization then
    match url with
    | none => .error (.network "the address of the server is invalid")
    | some url =>
      if url.text.utf8ByteSize ≤ Http.maxUrlBytes then
        .ok {
          method, url
          headers := c.headers ++ contentHeaders body
          body := body.map Json.compact
          trustsAnyone := c.skipSslValidation }
      else .error (.network "the address is too long")
  else .error .invalidToken

/-- What a delivery means. -/
def responseOf {α : Type} (read : List UInt8 → Outcome α) : Http.Delivery → Response α
  | .lost => .error (.network "no reply")
  | .brokenOff head =>
    { outcome := .error (.network "the reply broke off"), warnings := warningsOf head }
  | .whole head body =>
    { outcome := outcomeOf read head.status body, warnings := warningsOf head }

/-- Hands a request to the network, if it can be made, and reads what is handed back. -/
def exchange {α : Type} (net : Http.Network σ) (request : Except PlatformError Http.Request)
    (read : List UInt8 → Outcome α) (s : σ) : Response α × σ :=
  match request with
  | .error e => (.error e, s)
  | .ok request =>
    let (delivery, s) := net.deliver request s
    (responseOf read delivery, s)

/-- The current user is the one whom the configuration names. -/
def currentUser (c : PlatformClient) : Response User :=
  match c.user with
  | some username => .success { guid := "", username }
  | none => .error (.other "no user found")

/-- The request that looks a user up by name. -/
def findUserRequest (c : PlatformClient) (net : Http.Network σ) (username : String) :
    Except PlatformError Http.Request :=
  c.request .get ((c.url? net "/v3/users").map (·.addQuery "usernames" username)) none

/-- The request that deletes a user. -/
def deleteUserRequest (c : PlatformClient) (net : Http.Network σ) (user : User) :
    Except PlatformError Http.Request :=
  c.request .delete (c.url? net ("/v3/users/" ++ user.guid)) none

/-- The request that looks a service broker up by name. -/
def findBrokerRequest (c : PlatformClient) (net : Http.Network σ) (name : String) :
    Except PlatformError Http.Request :=
  c.request .get ((c.url? net "/v3/service_brokers").map (·.addQuery "names" name)) none

/-- The body that carries new settings of a service broker. -/
def updateBody (update : BrokerUpdate) : Json :=
  .ofMembers [
    ("authentication", .ofMembers [
      ("credentials", .ofMembers [
        ("password", .ofText update.password.value),
        ("username", .ofText update.username)]),
      ("type", .ofText "basic")]),
    ("url", .ofText update.url)]

/-- The request that updates a service broker. -/
def updateBrokerRequest (c : PlatformClient) (net : Http.Network σ) (guid : String)
    (update : BrokerUpdate) : Except PlatformError Http.Request :=
  c.request .patch (c.url? net ("/v3/service_brokers/" ++ guid)) (some (updateBody update))

/-- The answer to each call. -/
def answer (c : PlatformClient) (net : Http.Network σ) :
    (call : Call) → σ → Response call.Answer × σ
  | .currentUser, s => (c.currentUser, s)
  | .findUser username, s =>
    let (response, s) :=
      exchange net (c.findUserRequest net username) (firstResource ListedUser.ofJson?) s
    (response.andThen fun r =>
      .success { guid := r.guid, username := r.username.getD username }, s)
  | .deleteUser user, s =>
    exchange net (c.deleteUserRequest net user) (fun _ => .success ()) s
  | .findBroker name, s =>
    exchange net (c.findBrokerRequest net name) (firstResource brokerOfJson?) s
  | .updateBroker guid update, s =>
    exchange net (c.updateBrokerRequest net guid update) (fun _ => .success ()) s

/-- The client as a gateway. -/
def gateway (c : PlatformClient) (net : Http.Network σ) : Gateway σ where
  name := "cloud-controller"
  answer := c.answer net

/-- The client that a configuration leads to: it takes an endpoint and a session. -/
def ofConfig? (c : Config) : Option PlatformClient :=
  match c.apiEndpoint, c.accessToken with
  | some endpoint, some token =>
    if c.hasSession then some (ofSession endpoint token c.user c.skipSslValidation) else none
  | _, _ => none

end PlatformClient

/-- The gateway that a configuration leads to. -/
def Gateway.ofConfig {σ : Type} (net : Http.Network σ) (c : Config) : Gateway σ :=
  match PlatformClient.ofConfig? c with
  | some client => client.gateway net
  | none => .unconfigured

end PlatformAdmin
