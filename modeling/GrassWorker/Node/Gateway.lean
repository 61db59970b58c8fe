import GrassWorker.Node.Headers
import GrassWorker.Node.Paths
import GrassWorker.Node.RouteRefresh

/-! Requests to a node: the gateway headers that tell a peer from a client, the route of
the host, and the headers that go to the application or to the peer that has it. -/
namespace GrassWorker.Gateway
open Headers Validator Routes RouteTable

def gatewayTokenHeader : HeaderName := "x-grass-gateway-token"
def gatewayHopHeader : HeaderName := "x-grass-gateway-hop"
def peerProxyPrefix : List Char := "/_grass/internal/proxy".toList
def routeInvalidationPath : List Char := "/_grass/internal/routes/invalidate".toList
def healthPath : List Char := "/_grass/health".toList
def challengePrefix : List Char := "/.well-known/acme-challenge/".toList
def securePreviewCookie : List Char := "__Host-gw_preview_access".toList
def insecurePreviewCookie : List Char := "gw_preview_access".toList
def previewCallbackPath : List Char := "/.grass/auth/callback".toList

inductive GatewayOrigin
  | external | authenticated
deriving DecidableEq, Repr

inductive RouteAction
  | localDeployment | proxy
deriving DecidableEq, Repr

structure Uri where
  path : List Char
  query : Option (List Char) := none
deriving DecidableEq

def Uri.pathAndQuery (uri : Uri) : List Char :=
  match uri.query with
  | none => uri.path
  | some query => uri.path ++ '?' :: query

def isPathChar (c : Char) : Bool := 0x21 ≤ c.toNat ∧ c.toNat ∉ [0x23,0x3c,0x3e,0x3f,0x60]

def isQueryChar (c : Char) : Bool := 0x21 ≤ c.toNat ∧ c.toNat ∉ [0x22,0x23,0x3c,0x3e]

/-- `MAX_LEN` of the HTTP library. -/
def maxUriLength : Nat := 65534

/-- What the HTTP library makes of a request line; the path is empty for an authority alone. -/
structure Uri.Valid (uri : Uri) : Prop where
  start : uri.path = [] ∨ uri.path = ['*'] ∨ uri.path.head? = some '/'
  path : ∀ c ∈ uri.path, isPathChar c
  query : ∀ text, uri.query = some text → ∀ c ∈ text, isQueryChar c

def Uri.split (text : List Char) : Uri :=
  let path := text.takeWhile (· ≠ '?')
  { path, query := if '?' ∈ text then some (text.drop (path.length + 1)) else none }

def Uri.parse (text : List Char) : Option Uri :=
  let uri := Uri.split text
  if (utf8 text).length ≤ maxUriLength ∧ uri.path.all isPathChar ∧ uri.query.all (·.all isQueryChar) then some uri else none

structure Authority where
  text : List Char
  host : List Char
deriving DecidableEq

structure Request where
  authority : Option Authority := none
  uri : Uri
  headers : HeaderMap

def Request.mapHeaders (request : Request) (change : HeaderMap → HeaderMap) : Request :=
  { request with headers := change request.headers }

/-- The far end of a connection; a TLS connection has the server name it was opened for. -/
structure Connection where
  ip : List Char
  serverName : Option String := none
deriving DecidableEq

inductive Target
  | static | ssr
deriving DecidableEq, Repr

structure ServeState where
  nodeId : Uuid
  gatewayToken : Option (List Char)
  gatewayAuthentication : GatewayAuthenticationMode
  routes : RouteSnapshot
  certificateFor : String → Bool
  /-- What the staged artifact of a deployment serves. -/
  resolve : Uuid → Option Target
  /-- Preview access to a host is not granted, for a destination and the grant of a cookie. -/
  previewRefuses : String → List Char → Option (List Char) → Bool
  ssrStarts : Uuid → Bool

def ServeState.token (state : ServeState) : List Char := state.gatewayToken.getD []

/-- What a node does with a request. `answered` is an answer by a part that is not modelled here. -/
inductive Outcome
  | status (code : Nat)
  | errorPage (code : Nat) (message : String)
  | answered
  | application (headers : HeaderMap)
  | gateway (targetBaseUrl : String) (uri : Uri) (headers : HeaderMap)

def isHopByHop (name : HeaderName) : Bool :=
  name ∈ ["connection","keep-alive","proxy-authenticate","proxy-authorization","te","trailer","transfer-encoding","upgrade"]

def isGatewayInternal (name : HeaderName) : Bool := name = gatewayTokenHeader ∨ name = gatewayHopHeader

def isForwardedMetadata (name : HeaderName) : Bool :=
  name ∈ ["x-forwarded-for","x-forwarded-host","x-forwarded-proto"]

section Headers
variable (headers : HeaderMap)

def gatewayOrigin (expectedToken : List Char) (authentication : GatewayAuthenticationMode) : Except String GatewayOrigin :=
  match authentication,headers.get gatewayTokenHeader,headers.get gatewayHopHeader with
  | .none,none,none => .ok .external
  | .none,none,some hop => if toStr hop = some ['1'] then .ok .authenticated else .error "invalid gateway hop"
  | .none,some _,_ => .error "gateway token is not accepted in none mode"
  | .token,none,none => .ok .external
  | .token,some token,some hop =>
    match toStr token,toStr hop with
    | none,_ => .error "invalid gateway token"
    | some _,none => .error "invalid gateway hop"
    | some _,some hop =>
      if expectedToken = [] ∨ token ≠ utf8 expectedToken then .error "invalid gateway token"
      else if hop ≠ ['1'] then .error "invalid gateway hop"
      else .ok .authenticated
  | .token,_,_ => .error "incomplete gateway authentication"

def withoutPort (raw : List Char) : List Char :=
  let port := raw.rtakeWhile (· ≠ ':')
  if ':' ∈ raw ∧ port.all (fun c => '0' ≤ c ∧ c ≤ '9') then raw.take (raw.length - port.length - 1) else raw

def hostFromHeaders : Option String :=
  if (headers.getAll "host").length ≠ 1 then none
  else do
    let raw ← toStr (← headers.get "host")
    (normalizeHost (String.ofList (withoutPort raw))).toOption

def splitOnce (separator : Char) (text : List Char) : Option (List Char × List Char) :=
  if separator ∈ text then some (text.takeWhile (· ≠ separator),(text.dropWhile (· ≠ separator)).tail) else none

def cookiePairs (cookieHeader : List Char) : List (List Char) := (cookieHeader.splitOn ';').map trim

def previewCookieValue (cookieHeader : List Char) : Option (List Char) :=
  [securePreviewCookie,insecurePreviewCookie].findSome? fun expected =>
    (cookiePairs cookieHeader).findSome? fun pair =>
      (splitOnce '=' pair).bind fun (name,value) => if name = expected then some value else none

def stripPreviewCookie (cookieHeader : List Char) : Option (List Char) :=
  let cookies := (cookiePairs cookieHeader).filter fun pair =>
    (splitOnce '=' pair).any fun (name,_) => name ≠ securePreviewCookie ∧ name ≠ insecurePreviewCookie
  if cookies = [] then none else some (("; ".toList).intercalate cookies)

def stripPreviewCookieHeader : HeaderMap :=
  match ((headers.get "cookie").bind toStr |>.bind stripPreviewCookie).bind fromStr with
  | some value => headers.insert "cookie" value
  | none => headers.remove "cookie"

end Headers

def routeAction (localNodeId targetNodeId : Uuid) (origin : GatewayOrigin) : Except String RouteAction :=
  if localNodeId = targetNodeId then .ok .localDeployment
  else if origin = .authenticated then .error "gateway request cannot be proxied more than once"
  else .ok .proxy

def Request.restored (request : Request) (text : List Char) : Except String Request :=
  match Uri.parse text with
  | some uri => .ok { request with uri }
  | none => .error "invalid peer proxy URI"

def stripPeerProxyPrefix (request : Request) : Except String Request :=
  let pathAndQuery := request.uri.pathAndQuery
  if ¬peerProxyPrefix <+: pathAndQuery then .error "missing peer proxy prefix"
  else
    let suffix := pathAndQuery.drop peerProxyPrefix.length
    match suffix with
    | [] => request.restored ['/']
    | '/' :: _ => request.restored suffix
    | '?' :: _ => request.restored ('/' :: suffix)
    | _ => .error "invalid peer proxy path"

section Forward
variable (client : Connection) (request : Request)

def scheme : HeaderValue := if client.serverName.isSome then utf8 "https".toList else utf8 "http".toList

def forwardedHost (headers : HeaderMap) : HeaderMap :=
  match request.headers.get "host" with
  | some host => headers.append "x-forwarded-host" host
  | none => headers

def forwardToSsr (origin : GatewayOrigin) : HeaderMap :=
  let headers := request.headers.without fun name =>
    isHopByHop name || isGatewayInternal name || origin = .external && isForwardedMetadata name
  match origin with
  | .authenticated => headers
  | .external => forwardedHost request
      ((headers.append "x-forwarded-proto" (scheme client)).append "x-forwarded-for" (utf8 client.ip))

/-- The URI and the headers of the request to a peer. `peerUri` is what the URL library makes
of the base URL, the path and the query; an invalid token fails when the request is sent. -/
def forwardToGateway (peerUri : String → List Char → Option (List Char) → Option Uri) (targetBaseUrl : String)
    (gatewayToken : List Char) (authentication : GatewayAuthenticationMode) : Except String (Uri × HeaderMap) := do
  if authentication = .token ∧ gatewayToken = [] then .error "destination gateway requires an outbound credential"
  else if (Paths.normalizePublicPath (String.ofList request.uri.path)).isNone then .error "invalid gateway request path"
  else match peerUri targetBaseUrl (peerProxyPrefix ++ request.uri.path) request.uri.query with
    | none => .error "invalid target Serve Node URL"
    | some uri =>
      if ¬peerProxyPrefix ++ ['/'] <+: uri.path then .error "gateway request escaped the peer endpoint"
      else
        let headers := request.headers.without fun name =>
          isHopByHop name || isGatewayInternal name || isForwardedMetadata name
        let headers := headers.append gatewayHopHeader (utf8 ['1'])
        let headers ← match authentication with
          | .none => pure headers
          | .token =>
            match fromStr gatewayToken with
            | some value => pure (headers.append gatewayTokenHeader value)
            | none => .error "builder error"
        return (uri,forwardedHost request
          ((headers.append "x-forwarded-for" (utf8 client.ip)).append "x-forwarded-proto" (scheme client)))

end Forward

section Serve
variable (peerUri : String → List Char → Option (List Char) → Option Uri) (state : ServeState) (client : Connection)

def previewAnswer (route : ServeRoute) (request : Request) : Option Outcome :=
  if route.access ≠ .teamOrPlatformAdmin then none
  else if request.uri.path = previewCallbackPath then some .answered
  else
    let pathAndQuery := request.uri.pathAndQuery
    let destination := if pathAndQuery = [] then ['/'] else pathAndQuery
    let grant := ((request.headers.get "cookie").bind toStr).bind previewCookieValue
    if state.previewRefuses route.host destination grant then some .answered else none

def serveLocal (route : ServeRoute) (origin : GatewayOrigin) (request : Request) : Outcome :=
  let request := request.mapHeaders fun headers => (headers.remove gatewayTokenHeader).remove gatewayHopHeader
  match state.resolve route.deploymentId with
  | none => .errorPage 502 "The assigned deployment is not ready on this Serve Node."
  | some target =>
    match previewAnswer state route request with
    | some answer => answer
    | none =>
      match target with
      | .static => .answered
      | .ssr =>
        let request := if route.access = .teamOrPlatformAdmin then request.mapHeaders stripPreviewCookieHeader else request
        if state.ssrStarts route.deploymentId then .application (forwardToSsr client request origin)
        else .errorPage 502 "The application server failed to start."

def routePublicRequest (request : Request) : Outcome :=
  match gatewayOrigin request.headers state.token state.gatewayAuthentication with
  | .error _ => .errorPage 403 "This gateway request is not authorized."
  | .ok origin =>
    match hostFromHeaders request.headers with
    | none => .errorPage 400 "This request has no valid Host header."
    | some host =>
      match lookup state.routes host with
      | none => .errorPage 404 "This host is not bound to any active deployment."
      | some route =>
        if (Paths.normalizePublicPath (String.ofList request.uri.path)).isNone then
          .errorPage 400 "The requested path is not allowed."
        else match routeAction state.nodeId route.targetNodeId origin with
          | .error _ => .errorPage 502 "The gateway route snapshot points to another Serve Node."
          | .ok .localDeployment => serveLocal state client route origin request
          | .ok .proxy =>
            match forwardToGateway client request peerUri route.targetBaseUrl state.token route.gatewayAuthentication with
            | .error _ => .errorPage 502 "The assigned Serve Node could not be reached."
            | .ok (uri,headers) => .gateway route.targetBaseUrl uri headers

def handlePeerProxy (request : Request) : Outcome :=
  match gatewayOrigin request.headers state.token state.gatewayAuthentication with
  | .error _ | .ok .external => .errorPage 403 "This gateway request is not authorized."
  | .ok .authenticated =>
    match stripPeerProxyPrefix request with
    | .error _ => .errorPage 400 "This gateway path is invalid."
    | .ok request =>
      match hostFromHeaders request.headers with
      | none => .errorPage 400 "This request has no valid Host header."
      | some host =>
        match lookup state.routes host with
        | none => .errorPage 502 "The gateway route snapshot no longer contains this Host."
        | some route =>
          match routeAction state.nodeId route.targetNodeId .authenticated with
          | .ok .localDeployment => serveLocal state client route .authenticated request
          | _ => .errorPage 502 "The gateway route snapshot points to another Serve Node."

/-- The host of the request target, when it names one, and the `Host` header agree. -/
def withHost (request : Request) : Except Outcome Request :=
  match request.authority with
  | none => .ok request
  | some authority =>
    match normalizeHost (String.ofList authority.host) with
    | .error _ => .error (.status 400)
    | .ok host =>
      if request.headers.getAll "host" ≠ [] then
        if hostFromHeaders request.headers = some host then .ok request else .error (.status 421)
      else match fromStr authority.text with
        | some value => .ok (request.mapHeaders (·.insert "host" value))
        | none => .error (.status 400)

/-- A TLS connection is for the host of the request and a certificate of the node. -/
def misdirected (request : Request) : Bool :=
  client.serverName.any fun serverName =>
    match normalizeHost serverName with
    | .error _ => true
    | .ok sni => hostFromHeaders request.headers ≠ some sni ∨ ¬state.certificateFor sni

def ingressRequest (request : Request) : Except Outcome Request :=
  match withHost request with
  | .error outcome => .error outcome
  | .ok request =>
    if misdirected state client request then .error (.status 421)
    else if challengePrefix <+: request.uri.path then .error .answered
    else .ok request

/-- `serve_router`. -/
def serve (request : Request) : Outcome :=
  match ingressRequest state client request with
  | .error outcome => outcome
  | .ok request =>
    if request.uri.path = healthPath ∨ request.uri.path = routeInvalidationPath then .answered
    else if request.uri.path = peerProxyPrefix ∨ peerProxyPrefix ++ ['/'] <+: request.uri.path then
      handlePeerProxy state client request
    else routePublicRequest peerUri state client request

end Serve

end GrassWorker.Gateway
