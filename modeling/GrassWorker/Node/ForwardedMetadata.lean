import GrassWorker.Node.Gateway

/-! What an application is told about the client of a request that went through one node or
two: only what the node that was asked first knows itself. -/
namespace GrassWorker.Gateway
open Headers Validator Routes RouteTable

/-- What a node does not decide: the peers under their base URLs, the connections to them,
the URL library and what the HTTP client adds to the headers it is given. -/
structure Web where
  peer : String → ServeState
  connection : String → Connection
  authority : String → Option Authority
  peerUri : String → List Char → Option (List Char) → Option Uri
  send : HeaderMap → HeaderMap
  keeps : ∀ headers name, isForwardedMetadata name ∨ isGatewayInternal name →
    (send headers).getAll name = headers.getAll name

namespace Web
variable (web : Web)

def received : Outcome → Option HeaderMap
  | .application headers => some (web.send headers)
  | _ => none

def atPeer (targetBaseUrl : String) (uri : Uri) (headers : HeaderMap) : Outcome :=
  serve web.peerUri (web.peer targetBaseUrl) (web.connection targetBaseUrl)
    { authority := web.authority targetBaseUrl, uri, headers := web.send headers }

/-- The headers with which a request reaches the application, at the node or at its peer. -/
def reaches (entry : ServeState) (client : Connection) (request : Request) : Option HeaderMap :=
  match serve web.peerUri entry client request with
  | .gateway targetBaseUrl uri headers => web.received (web.atPeer targetBaseUrl uri headers)
  | outcome => web.received outcome

end Web

def Outcome.leaves : Outcome → Bool
  | .application _ | .gateway _ _ _ => true
  | _ => false

def Unmarked (headers : HeaderMap) : Prop := ∀ name, isGatewayInternal name → headers.getAll name = []

/-- The forwarding metadata of a client: one line each, with what the node itself knows. -/
structure Carries (client : Connection) (headers : HeaderMap) : Prop where
  address : headers.getAll "x-forwarded-for" = [utf8 client.ip]
  proto : headers.getAll "x-forwarded-proto" = [scheme client]
  host : ∃ host, headers.getAll "x-forwarded-host" = [host]

def Request.unforwarded (request : Request) : Request :=
  request.mapHeaders (·.without isForwardedMetadata)

section Unforwarded
variable {headers : HeaderMap} {request : Request} {client : Connection} {state : ServeState}

private theorem getAll_unforwarded (headers : HeaderMap) (name : HeaderName) (kept : isForwardedMetadata name = false) :
    (headers.without isForwardedMetadata).getAll name = headers.getAll name := by
  rw [HeaderMap.getAll_without,kept]
  rfl

private theorem get_unforwarded (headers : HeaderMap) (name : HeaderName) (kept : isForwardedMetadata name = false) :
    (headers.without isForwardedMetadata).get name = headers.get name := by
  rw [HeaderMap.get,HeaderMap.get,getAll_unforwarded _ _ kept]

private theorem insert_unforwarded (headers : HeaderMap) (name : HeaderName) (value : HeaderValue) (kept : isForwardedMetadata name = false) :
    (headers.without isForwardedMetadata).insert name value =
      (headers.insert name value).without isForwardedMetadata := by
  ext1
  funext other
  by_cases same : other = name
  · subst same
    simp [getAll_unforwarded _ _ kept]
  · rw [HeaderMap.getAll_insert_of_ne same,HeaderMap.getAll_without,HeaderMap.getAll_without,
      HeaderMap.getAll_insert_of_ne same]

private theorem remove_unforwarded {name : HeaderName} :
    (headers.without isForwardedMetadata).remove name = (headers.remove name).without isForwardedMetadata := by
  ext1
  funext other
  by_cases same : other = name
  · subst same
    simp [HeaderMap.getAll_without]
  · rw [HeaderMap.getAll_remove_of_ne same,HeaderMap.getAll_without,HeaderMap.getAll_without,
      HeaderMap.getAll_remove_of_ne same]

private theorem without_unforwarded {skipped : HeaderName → Bool}
    (passed : ∀ name, isForwardedMetadata name → skipped name) :
    (headers.without isForwardedMetadata).without skipped = headers.without skipped := by
  ext1
  funext name
  rw [HeaderMap.getAll_without,HeaderMap.getAll_without,HeaderMap.getAll_without]
  by_cases forwarded : isForwardedMetadata name
  · rw [if_pos (passed name forwarded),if_pos (passed name forwarded)]
  · rw [if_neg forwarded]

private theorem gatewayOrigin_unforwarded (headers : HeaderMap) (expectedToken : List Char)
    (authentication : GatewayAuthenticationMode) :
    gatewayOrigin (headers.without isForwardedMetadata) expectedToken authentication =
      gatewayOrigin headers expectedToken authentication := by
  have token := get_unforwarded headers gatewayTokenHeader (by decide)
  have hop := get_unforwarded headers gatewayHopHeader (by decide)
  simp only [gatewayOrigin,token,hop]

private theorem hostFromHeaders_unforwarded (headers : HeaderMap) : hostFromHeaders (headers.without isForwardedMetadata) =
    hostFromHeaders headers := by
  have all := getAll_unforwarded headers "host" (by decide)
  have first := get_unforwarded headers "host" (by decide)
  simp only [hostFromHeaders,all,first]

private theorem mapHeaders_unforwarded (request : Request) (change : HeaderMap → HeaderMap)
    (commutes : ∀ headers : HeaderMap, change (headers.without isForwardedMetadata) =
      (change headers).without isForwardedMetadata) :
    request.unforwarded.mapHeaders change = (request.mapHeaders change).unforwarded := by
  simp only [Request.unforwarded,Request.mapHeaders,commutes]

private theorem previewAnswer_unforwarded {route : ServeRoute} :
    previewAnswer state route request.unforwarded = previewAnswer state route request := by
  have cookie := get_unforwarded request.headers "cookie" (by decide)
  simp only [previewAnswer,Request.unforwarded,Request.mapHeaders,cookie]
  rfl

private theorem stripPreviewCookieHeader_unforwarded :
    stripPreviewCookieHeader (headers.without isForwardedMetadata) =
      (stripPreviewCookieHeader headers).without isForwardedMetadata := by
  have cookie := get_unforwarded headers "cookie" (by decide)
  simp only [stripPreviewCookieHeader,cookie]
  cases (((headers.get "cookie").bind toStr).bind stripPreviewCookie).bind fromStr with
  | some value => exact insert_unforwarded _ _ _ (by decide)
  | none => exact remove_unforwarded

private theorem forwardedHost_unforwarded : forwardedHost request.unforwarded = forwardedHost request := by
  have host := get_unforwarded request.headers "host" (by decide)
  funext before
  simp only [forwardedHost,Request.unforwarded,Request.mapHeaders,host]

private theorem forwardToSsr_unforwarded :
    forwardToSsr client request.unforwarded .external = forwardToSsr client request .external := by
  simp only [forwardToSsr,forwardedHost_unforwarded]
  rw [Request.unforwarded,Request.mapHeaders,without_unforwarded]
  intro name forwarded
  simp [forwarded]

private theorem forwardToGateway_unforwarded {peerUri : String → List Char → Option (List Char) → Option Uri}
    {targetBaseUrl : String} {token : List Char} {authentication : GatewayAuthenticationMode} :
    forwardToGateway client request.unforwarded peerUri targetBaseUrl token authentication =
      forwardToGateway client request peerUri targetBaseUrl token authentication := by
  simp only [forwardToGateway,forwardedHost_unforwarded]
  rw [Request.unforwarded,Request.mapHeaders,without_unforwarded]
  intro name forwarded
  simp [forwarded]

private theorem serveLocal_unforwarded {route : ServeRoute} :
    serveLocal state client route .external request.unforwarded = serveLocal state client route .external request := by
  have marks := mapHeaders_unforwarded request (fun headers => (headers.remove gatewayTokenHeader).remove gatewayHopHeader)
    fun headers => by rw [remove_unforwarded,remove_unforwarded]
  simp only [serveLocal,marks,previewAnswer_unforwarded]
  generalize request.mapHeaders _ = request
  have cookies := mapHeaders_unforwarded request stripPreviewCookieHeader
    fun headers => stripPreviewCookieHeader_unforwarded
  by_cases preview : route.access = .teamOrPlatformAdmin
  · simp only [if_pos preview,cookies,forwardToSsr_unforwarded]
  · simp only [if_neg preview,forwardToSsr_unforwarded]

private theorem withHost_unforwarded :
    withHost request.unforwarded = (withHost request).map Request.unforwarded := by
  have hosts := getAll_unforwarded request.headers "host" (by decide)
  have found := hostFromHeaders_unforwarded request.headers
  simp only [withHost]
  rw [show request.unforwarded.authority = request.authority from rfl]
  cases request.authority with
  | none => rfl
  | some authority =>
    simp only [Request.unforwarded,Request.mapHeaders] at hosts found ⊢
    cases normalizeHost (String.ofList authority.host) with
    | error problem => rfl
    | ok host =>
      simp only [hosts,found]
      by_cases given : request.headers.getAll "host" ≠ []
      · simp only [if_pos given]
        split <;> rfl
      · simp only [if_neg given]
        cases fromStr authority.text with
        | none => rfl
        | some value =>
          have inserted := insert_unforwarded request.headers "host" value (by decide)
          simp only [Except.map,Request.unforwarded,Request.mapHeaders,inserted]

private theorem ingressRequest_unforwarded :
    ingressRequest state client request.unforwarded = (ingressRequest state client request).map Request.unforwarded := by
  simp only [ingressRequest,withHost_unforwarded]
  cases withHost request with
  | error outcome => rfl
  | ok request =>
    have host := hostFromHeaders_unforwarded request.headers
    have same : misdirected state client request.unforwarded = misdirected state client request := by
      simp only [misdirected,Request.unforwarded,Request.mapHeaders,host]
    simp only [Except.map,same]
    by_cases elsewhere : misdirected state client request
    · simp only [if_pos elsewhere]
    · simp only [if_neg elsewhere]
      by_cases challenge : challengePrefix <+: request.uri.path
      · rw [if_pos challenge,if_pos (by exact challenge)]
      · rw [if_neg challenge,if_neg (by exact challenge)]

private theorem gatewayOrigin_unmarked {expectedToken : List Char} {authentication : GatewayAuthenticationMode}
    (unmarked : Unmarked headers) : gatewayOrigin headers expectedToken authentication = .ok .external := by
  have token : headers.get gatewayTokenHeader = none := by
    rw [HeaderMap.get,unmarked _ (by decide)]
    rfl
  have hop : headers.get gatewayHopHeader = none := by
    rw [HeaderMap.get,unmarked _ (by decide)]
    rfl
  simp only [gatewayOrigin,token,hop]
  cases authentication <;> rfl

private theorem routePublicRequest_unforwarded {peerUri : String → List Char → Option (List Char) → Option Uri}
    (unmarked : Unmarked request.headers) :
    routePublicRequest peerUri state client request.unforwarded = routePublicRequest peerUri state client request := by
  have host := hostFromHeaders_unforwarded request.headers
  have origin := gatewayOrigin_unforwarded request.headers state.token state.gatewayAuthentication
  simp only [routePublicRequest]
  rw [show request.unforwarded.headers = request.headers.without isForwardedMetadata from rfl,origin,
    gatewayOrigin_unmarked unmarked,host]
  simp only [serveLocal_unforwarded,forwardToGateway_unforwarded]
  rfl

private theorem handlePeerProxy_unforwarded (unmarked : Unmarked request.headers) :
    handlePeerProxy state client request.unforwarded = handlePeerProxy state client request := by
  have origin := gatewayOrigin_unforwarded request.headers state.token state.gatewayAuthentication
  simp only [handlePeerProxy]
  rw [show request.unforwarded.headers = request.headers.without isForwardedMetadata from rfl,origin,
    gatewayOrigin_unmarked unmarked]

end Unforwarded

section Ingress
variable {request after : Request} {client : Connection} {state : ServeState}

private theorem withHost_keeps (ok : withHost request = .ok after) {name : HeaderName} (other : name ≠ "host") :
    after.headers.getAll name = request.headers.getAll name := by
  simp only [withHost] at ok
  split at ok
  · cases ok
    rfl
  · split at ok
    · cases ok
    · split at ok
      · split at ok
        · cases ok
          rfl
        · cases ok
      · split at ok
        · cases ok
          exact HeaderMap.getAll_insert_of_ne other
        · cases ok

theorem ingressRequest_keeps (ok : ingressRequest state client request = .ok after) {name : HeaderName}
    (other : name ≠ "host") : after.headers.getAll name = request.headers.getAll name := by
  simp only [ingressRequest] at ok
  split at ok
  · cases ok
  · rename_i hosted named
    split at ok
    · cases ok
    · split at ok
      · cases ok
      · cases ok
        exact withHost_keeps named other

theorem ingressRequest_stays {outcome : Outcome} (refused : ingressRequest state client request = .error outcome) :
    outcome.leaves = false := by
  simp only [ingressRequest] at refused
  split at refused
  · rename_i problem unnamed
    cases refused
    simp only [withHost] at unnamed
    repeat' split at unnamed
    all_goals cases unnamed
    all_goals rfl
  · split at refused
    · cases refused
      rfl
    · split at refused <;> cases refused
      rfl

theorem internal_ne_host {name : HeaderName} (gateway : isGatewayInternal name) : name ≠ "host" := by
  rintro rfl
  exact absurd gateway (by decide)

private theorem ingressRequest_unmarked (ok : ingressRequest state client request = .ok after)
    (unmarked : Unmarked request.headers) : Unmarked after.headers := by
  intro name gateway
  rw [ingressRequest_keeps ok (internal_ne_host gateway)]
  exact unmarked name gateway

private theorem serve_unforwarded {peerUri : String → List Char → Option (List Char) → Option Uri}
    (unmarked : Unmarked request.headers) :
    serve peerUri state client request.unforwarded = serve peerUri state client request := by
  simp only [serve,ingressRequest_unforwarded]
  cases entered : ingressRequest state client request with
  | error outcome => rfl
  | ok after =>
    have clean := ingressRequest_unmarked entered unmarked
    simp only [Except.map,handlePeerProxy_unforwarded clean,routePublicRequest_unforwarded clean]
    rfl

end Ingress

section Metadata
variable {request : Request} {client : Connection} {state : ServeState} {headers : HeaderMap}

private theorem host_line {host : String} (found : hostFromHeaders request.headers = some host) :
    ∃ value, request.headers.get "host" = some value := by
  simp only [hostFromHeaders] at found
  split at found
  · cases found
  · obtain ⟨value,held,_⟩ := Option.bind_eq_some_iff.mp found
    exact ⟨value,held⟩

private theorem getAll_passed {skipped : HeaderName → Bool} {name : HeaderName} (passed : skipped name) :
    (headers.without skipped).getAll name = [] := by
  rw [HeaderMap.getAll_without,if_pos passed]

private theorem forwarded_passed (headers : HeaderMap) (name : HeaderName) (forwarded : isForwardedMetadata name) :
    (headers.without fun name => isHopByHop name || isGatewayInternal name || isForwardedMetadata name).getAll name = [] :=
  getAll_passed (by simp [forwarded])

private theorem forwardToSsr_unmarked {origin : GatewayOrigin} : Unmarked (forwardToSsr client request origin) := by
  intro name gateway
  have own : name ≠ "x-forwarded-proto" ∧ name ≠ "x-forwarded-for" ∧ name ≠ "x-forwarded-host" := by
    refine ⟨?_,?_,?_⟩ <;> rintro rfl <;> exact absurd gateway (by decide)
  obtain ⟨proto,address,host⟩ := own
  cases origin with
  | authenticated =>
    simp only [forwardToSsr]
    exact getAll_passed (by simp [gateway])
  | external =>
    simp only [forwardToSsr,forwardedHost]
    split
    · rw [HeaderMap.getAll_append_of_ne host,HeaderMap.getAll_append_of_ne address,HeaderMap.getAll_append_of_ne proto]
      exact getAll_passed (by simp [gateway])
    · rw [HeaderMap.getAll_append_of_ne address,HeaderMap.getAll_append_of_ne proto]
      exact getAll_passed (by simp [gateway])

private theorem forwardToSsr_carries {host : String} (found : hostFromHeaders request.headers = some host) :
    Carries client (forwardToSsr client request .external) := by
  obtain ⟨value,named⟩ := host_line found
  have address := forwarded_passed request.headers "x-forwarded-for" (by decide)
  have proto := forwarded_passed request.headers "x-forwarded-proto" (by decide)
  have hosts := forwarded_passed request.headers "x-forwarded-host" (by decide)
  simp only [forwardToSsr,forwardedHost,named]
  exact ⟨by simp [address],by simp [proto],value,by simp [hosts]⟩

private theorem forwardToSsr_passes {name : HeaderName} (forwarded : isForwardedMetadata name) :
    (forwardToSsr client request .authenticated).getAll name = request.headers.getAll name := by
  have plain : isHopByHop name = false ∧ isGatewayInternal name = false := by
    simp only [isForwardedMetadata,decide_eq_true_eq,List.mem_cons,List.not_mem_nil,or_false] at forwarded
    obtain rfl | rfl | rfl := forwarded <;> exact ⟨by decide,by decide⟩
  simp only [forwardToSsr,HeaderMap.getAll_without]
  rw [if_neg]
  simp [plain.1,plain.2]

theorem forwardToGateway_carries {peerUri : String → List Char → Option (List Char) → Option Uri}
    {targetBaseUrl : String} {token : List Char} {authentication : GatewayAuthenticationMode} {uri : Uri} {host : String}
    (found : hostFromHeaders request.headers = some host)
    (ok : forwardToGateway client request peerUri targetBaseUrl token authentication = .ok (uri,headers)) :
    Carries client headers ∧ headers.getAll gatewayHopHeader ≠ [] := by
  obtain ⟨value,named⟩ := host_line found
  have address := forwarded_passed request.headers "x-forwarded-for" (by decide)
  have proto := forwarded_passed request.headers "x-forwarded-proto" (by decide)
  have hosts := forwarded_passed request.headers "x-forwarded-host" (by decide)
  simp only [forwardToGateway] at ok
  split at ok
  · cases ok
  · split at ok
    · cases ok
    · split at ok
      · cases ok
      · split at ok
        · cases ok
        · cases authentication with
          | none =>
            simp only [forwardedHost,named,pure,Except.pure,bind,Except.bind,Except.ok.injEq,Prod.mk.injEq] at ok
            obtain ⟨_,rfl⟩ := ok
            exact ⟨⟨by simp [address,gatewayHopHeader],by simp [proto,gatewayHopHeader],value,by simp [hosts,gatewayHopHeader]⟩,
              by simp [gatewayHopHeader]⟩
          | token =>
            cases written : fromStr token with
            | none =>
              simp only [written,bind,Except.bind] at ok
              cases ok
            | some sent =>
              simp only [forwardedHost,named,written,pure,Except.pure,bind,Except.bind,Except.ok.injEq,Prod.mk.injEq] at ok
              obtain ⟨_,rfl⟩ := ok
              exact ⟨⟨by simp [address,gatewayHopHeader,gatewayTokenHeader],by simp [proto,gatewayHopHeader,gatewayTokenHeader],
                value,by simp [hosts,gatewayHopHeader,gatewayTokenHeader]⟩,by simp [gatewayHopHeader,gatewayTokenHeader]⟩

end Metadata

section Served
variable {peerUri : String → List Char → Option (List Char) → Option Uri} {request : Request} {client : Connection}
  {state : ServeState} {headers : HeaderMap} {route : ServeRoute} {origin : GatewayOrigin}

private theorem stripPreviewCookieHeader_keeps {name : HeaderName} (other : name ≠ "cookie") :
    (stripPreviewCookieHeader headers).getAll name = headers.getAll name := by
  simp only [stripPreviewCookieHeader]
  split
  · exact HeaderMap.getAll_insert_of_ne other
  · exact HeaderMap.getAll_remove_of_ne other

private theorem previewAnswer_stays {answer : Outcome} (answered : previewAnswer state route request = some answer) :
    answer.leaves = false := by
  simp only [previewAnswer] at answered
  repeat' split at answered
  all_goals cases answered
  all_goals rfl

private theorem serveLocal_application (served : serveLocal state client route origin request = .application headers) :
    ∃ before : Request, headers = forwardToSsr client before origin ∧
      ∀ name, name ≠ "cookie" → isGatewayInternal name = false →
        before.headers.getAll name = request.headers.getAll name := by
  have plain : ∀ name, isGatewayInternal name = false →
      ((request.headers.remove gatewayTokenHeader).remove gatewayHopHeader).getAll name = request.headers.getAll name := by
    intro name outside
    have different : name ≠ gatewayTokenHeader ∧ name ≠ gatewayHopHeader := by
      simpa [isGatewayInternal] using outside
    rw [HeaderMap.getAll_remove_of_ne different.2,HeaderMap.getAll_remove_of_ne different.1]
  simp only [serveLocal] at served
  split at served
  · cases served
  · split at served
    · rename_i answer answered
      subst served
      cases previewAnswer_stays answered
    · split at served
      · cases served
      · split at served
        · cases served
          by_cases preview : route.access = .teamOrPlatformAdmin
          · rw [if_pos preview]
            refine ⟨_,rfl,?_⟩
            intro name other outside
            exact (stripPreviewCookieHeader_keeps other).trans (plain name outside)
          · rw [if_neg preview]
            exact ⟨_,rfl,fun name _ outside => plain name outside⟩
        · cases served

theorem serveLocal_not_gateway {base : String} {uri : Uri} :
    serveLocal state client route origin request ≠ .gateway base uri headers := by
  intro served
  simp only [serveLocal] at served
  split at served
  · cases served
  · split at served
    · rename_i answer answered
      subst served
      cases previewAnswer_stays answered
    · split at served
      · cases served
      · split at served <;> cases served

private theorem hostFromHeaders_congr {first second : HeaderMap} (same : first.getAll "host" = second.getAll "host") :
    hostFromHeaders first = hostFromHeaders second := by
  simp only [hostFromHeaders,HeaderMap.get,same]

private theorem routePublicRequest_carries (unmarked : Unmarked request.headers) :
    (∀ headers, routePublicRequest peerUri state client request = .application headers →
      Carries client headers ∧ Unmarked headers) ∧
    ∀ base uri headers, routePublicRequest peerUri state client request = .gateway base uri headers →
      Carries client headers ∧ headers.getAll gatewayHopHeader ≠ [] := by
  simp only [routePublicRequest,gatewayOrigin_unmarked unmarked]
  cases found : hostFromHeaders request.headers with
  | none => simp
  | some host =>
    simp only
    split
    · simp
    · rename_i route _
      split
      · simp
      · split
        · simp
        · refine ⟨?_,?_⟩
          · intro headers served
            obtain ⟨before,rfl,kept⟩ := serveLocal_application served
            have named := (hostFromHeaders_congr (kept "host" (by decide) (by decide))).trans found
            exact ⟨forwardToSsr_carries named,forwardToSsr_unmarked⟩
          · intro base uri headers served
            exact absurd served serveLocal_not_gateway
        · split
          · simp
          · rename_i uri sent forwarded
            refine ⟨by simp,?_⟩
            intro base target headers served
            cases served
            exact forwardToGateway_carries found forwarded

private theorem serve_carries (unmarked : Unmarked request.headers) :
    (∀ headers, serve peerUri state client request = .application headers → Carries client headers ∧ Unmarked headers) ∧
    ∀ base uri headers, serve peerUri state client request = .gateway base uri headers →
      Carries client headers ∧ headers.getAll gatewayHopHeader ≠ [] := by
  simp only [serve]
  split
  · rename_i outcome refused
    have stays := ingressRequest_stays refused
    refine ⟨?_,?_⟩
    · rintro headers rfl
      cases stays
    · rintro base uri headers rfl
      cases stays
  · rename_i after entered
    split
    · simp
    · split
      · simp [handlePeerProxy,gatewayOrigin_unmarked (ingressRequest_unmarked entered unmarked)]
      · exact routePublicRequest_carries (ingressRequest_unmarked entered unmarked)

theorem gatewayOrigin_marked {expectedToken : List Char} {authentication : GatewayAuthenticationMode}
    (marked : headers.getAll gatewayHopHeader ≠ [])
    (ok : gatewayOrigin headers expectedToken authentication = .ok origin) : origin = .authenticated := by
  have hop : headers.get gatewayHopHeader ≠ none := by
    simpa [HeaderMap.get] using marked
  simp only [gatewayOrigin] at ok
  repeat' split at ok
  all_goals cases ok
  all_goals first
    | rfl
    | contradiction

/-- What a node passes on for a peer: the metadata of the peer and nothing that marks the hop. -/
structure Passes (request : Request) (headers : HeaderMap) : Prop where
  metadata : ∀ name, isForwardedMetadata name → headers.getAll name = request.headers.getAll name
  unmarked : Unmarked headers

private theorem forwarded_kept {name : HeaderName} (forwarded : isForwardedMetadata name) :
    name ≠ "cookie" ∧ name ≠ "host" ∧ isGatewayInternal name = false := by
  simp only [isForwardedMetadata,decide_eq_true_eq,List.mem_cons,List.not_mem_nil,or_false] at forwarded
  obtain rfl | rfl | rfl := forwarded <;> exact ⟨by decide,by decide,by decide⟩

private theorem serveLocal_passes (served : serveLocal state client route .authenticated request = .application headers) :
    Passes request headers := by
  obtain ⟨before,rfl,kept⟩ := serveLocal_application served
  refine ⟨?_,forwardToSsr_unmarked⟩
  intro name forwarded
  obtain ⟨cookie,_,outside⟩ := forwarded_kept forwarded
  exact (forwardToSsr_passes forwarded).trans (kept name cookie outside)

private theorem stripPeerProxyPrefix_headers {after : Request} (ok : stripPeerProxyPrefix request = .ok after) :
    after.headers = request.headers := by
  simp only [stripPeerProxyPrefix,Request.restored] at ok
  repeat' split at ok
  all_goals cases ok
  all_goals rfl

private theorem handlePeerProxy_passes (served : handlePeerProxy state client request = .application headers) :
    Passes request headers := by
  simp only [handlePeerProxy] at served
  split at served
  · cases served
  · cases served
  · split at served
    · cases served
    · rename_i restored stripped
      repeat' split at served
      all_goals first
        | cases served
        | skip
      obtain ⟨metadata,unmarked⟩ := serveLocal_passes served
      rw [stripPeerProxyPrefix_headers stripped] at metadata
      exact ⟨metadata,unmarked⟩

private theorem routePublicRequest_passes (marked : request.headers.getAll gatewayHopHeader ≠ [])
    (served : routePublicRequest peerUri state client request = .application headers) : Passes request headers := by
  simp only [routePublicRequest] at served
  split at served
  · cases served
  · rename_i origin known
    have peer := gatewayOrigin_marked marked known
    subst peer
    repeat' split at served
    all_goals first
      | cases served
      | exact serveLocal_passes served

private theorem serve_passes (marked : request.headers.getAll gatewayHopHeader ≠ [])
    (served : serve peerUri state client request = .application headers) : Passes request headers := by
  simp only [serve] at served
  split at served
  · rename_i outcome refused
    subst served
    cases ingressRequest_stays refused
  · rename_i after entered
    have same : ∀ name, name ≠ "host" → after.headers.getAll name = request.headers.getAll name :=
      fun name => ingressRequest_keeps entered
    have passes : Passes after headers := by
      split at served
      · cases served
      · split at served
        · exact handlePeerProxy_passes served
        · exact routePublicRequest_passes (by rwa [same _ (by decide)]) served
    refine ⟨?_,passes.unmarked⟩
    intro name forwarded
    exact (passes.metadata name forwarded).trans (same name (forwarded_kept forwarded).2.1)

end Served

section Reaches
variable {web : Web} {client : Connection}

private theorem Carries.of_same {first second : HeaderMap} (carries : Carries client first)
    (same : ∀ name, isForwardedMetadata name → second.getAll name = first.getAll name) : Carries client second := by
  obtain ⟨host,named⟩ := carries.host
  exact ⟨(same _ (by decide)).trans carries.address,(same _ (by decide)).trans carries.proto,
    host,(same _ (by decide)).trans named⟩

private theorem Carries.send {headers : HeaderMap} (carries : Carries client headers) : Carries client (web.send headers) :=
  carries.of_same fun name forwarded => web.keeps headers name (.inl forwarded)

private theorem Unmarked.send {headers : HeaderMap} (unmarked : Unmarked headers) : Unmarked (web.send headers) := by
  intro name gateway
  rw [web.keeps headers name (.inr gateway)]
  exact unmarked name gateway

/-- The application learns the client of the node that was asked first, whichever node it runs on. -/
private theorem reaches_carries {entry : ServeState} {request : Request} {headers : HeaderMap}
    (unmarked : Unmarked request.headers) (reached : web.reaches entry client request = some headers) :
    Carries client headers ∧ Unmarked headers := by
  obtain ⟨application,gateway⟩ := @serve_carries web.peerUri _ client entry unmarked
  simp only [Web.reaches] at reached
  split at reached
  · rename_i base uri sent forwarded
    obtain ⟨carries,marked⟩ := gateway base uri sent forwarded
    simp only [Web.received] at reached
    split at reached
    · rename_i passed served
      cases reached
      have hop := web.keeps sent gatewayHopHeader (.inr (by decide))
      have passes := serve_passes (by simpa only [hop] using marked) served
      exact ⟨(carries.send.of_same passes.metadata).send,passes.unmarked.send⟩
    · cases reached
  · rename_i outcome _
    simp only [Web.received] at reached
    split at reached
    · rename_i headers served
      cases reached
      obtain ⟨carries,clean⟩ := application headers served
      exact ⟨carries.send,clean.send⟩
    · cases reached

end Reaches

private theorem unmarked_parse {lines : List HeaderLine}
    (external : ∀ line ∈ lines, isGatewayInternal (headerName line.1) = false) : Unmarked (HeaderMap.parse lines) := by
  intro name gateway
  rw [HeaderMap.getAll_parse,List.map_eq_nil_iff,List.filter_eq_nil_iff]
  intro line member named
  have plain := external line member
  rw [of_decide_eq_true named,gateway] at plain
  cases plain

private theorem unforwarded_parse {first second : List HeaderLine}
    (same : (first.filter fun line => !isForwardedMetadata (headerName line.1)) =
      second.filter fun line => !isForwardedMetadata (headerName line.1)) :
    (HeaderMap.parse first).without isForwardedMetadata = (HeaderMap.parse second).without isForwardedMetadata := by
  ext1
  funext name
  rw [HeaderMap.getAll_without,HeaderMap.getAll_without]
  split
  · rfl
  · rename_i kept
    exact HeaderMap.getAll_parse_congr same (by simpa using kept)

/-- Two requests of a client that differ in forwarding metadata only reach the application
with the same headers, and these name the client that is connected to the entry node. -/
theorem forwarded_metadata_of_entry (web : Web) (entry : ServeState) (client : Connection) (authority : Option Authority)
    (uri : Uri) (first second : List HeaderLine)
    (external : ∀ line ∈ first ++ second, isGatewayInternal (headerName line.1) = false)
    (same : (first.filter fun line => !isForwardedMetadata (headerName line.1)) =
      second.filter fun line => !isForwardedMetadata (headerName line.1)) :
    web.reaches entry client { authority, uri, headers := .parse first } =
      web.reaches entry client { authority, uri, headers := .parse second } ∧
    ∀ headers, web.reaches entry client { authority, uri, headers := .parse first } = some headers →
      headers.getAll "x-forwarded-for" = [utf8 client.ip] ∧ headers.getAll "x-forwarded-proto" = [scheme client] ∧
      (∃ host, headers.getAll "x-forwarded-host" = [host]) ∧
      headers.getAll gatewayTokenHeader = [] ∧ headers.getAll gatewayHopHeader = [] := by
  have unmarked := unmarked_parse fun line member => external line (List.mem_append_left _ member)
  have unmarked_second := unmarked_parse fun line member => external line (List.mem_append_right _ member)
  refine ⟨?_,?_⟩
  · simp only [Web.reaches]
    rw [← @serve_unforwarded { authority, uri, headers := .parse first } _ _ _ unmarked,
      ← @serve_unforwarded { authority, uri, headers := .parse second } _ _ _ unmarked_second]
    simp only [Request.unforwarded,Request.mapHeaders,unforwarded_parse same]
  · intro headers reached
    obtain ⟨carries,clean⟩ := @reaches_carries web client entry { authority, uri, headers := .parse first } headers unmarked reached
    exact ⟨carries.address,carries.proto,carries.host,clean _ (by decide),clean _ (by decide)⟩

section Spoofed

def peerRoute : ServeRoute :=
  { host := "shop.example", region := "eu", deploymentId := 5, targetNodeId := 2, targetBaseUrl := "http://peer.example",
    resources := ⟨200,256,512⟩, access := .publicAccess }

def servingNode (nodeId : Uuid) : ServeState :=
  { nodeId, gatewayToken := some "secret".toList, gatewayAuthentication := .token,
    routes := { routes := [("shop.example",peerRoute)] }, certificateFor := fun _ => false,
    resolve := fun deployment => if deployment = 5 then some .ssr else none, previewRefuses := fun _ _ _ => true,
    ssrStarts := fun _ => true }

/-- The client adds an `Accept` line to headers that have none. -/
def acceptAnything (headers : HeaderMap) : HeaderMap :=
  if headers.getAll "accept" = [] then headers.insert "accept" (utf8 "*/*".toList) else headers

def onePeer : Web where
  peer := fun _ => servingNode 2
  connection := fun _ => { ip := "10.0.0.1".toList }
  authority := fun _ => none
  peerUri := fun _ path query => some ⟨path,query⟩
  send := acceptAnything
  keeps := by
    intro headers name special
    have other : name ≠ "accept" := by
      rintro rfl
      exact absurd special (by decide)
    simp only [acceptAnything]
    split
    · exact HeaderMap.getAll_insert_of_ne other
    · rfl

def plainLines : List HeaderLine := [("Host",utf8 "shop.example".toList),("Cookie",utf8 "cart=7".toList)]

def spoofedLines : List HeaderLine :=
  ("X-Forwarded-For",utf8 "127.0.0.1".toList) :: plainLines ++
    [("x-forwarded-proto",utf8 "https".toList),("X-FORWARDED-HOST",utf8 "admin.example".toList)]

theorem forwarded_metadata_of_spoofed_request :
    (onePeer.reaches (servingNode 1) { ip := "203.0.113.9".toList }
      { authority := none, uri := ⟨"/cart".toList,none⟩, headers := .parse spoofedLines }).isSome ∧
    onePeer.reaches (servingNode 1) { ip := "203.0.113.9".toList }
      { authority := none, uri := ⟨"/cart".toList,none⟩, headers := .parse spoofedLines } =
    onePeer.reaches (servingNode 1) { ip := "203.0.113.9".toList }
      { authority := none, uri := ⟨"/cart".toList,none⟩, headers := .parse plainLines } ∧
    ∀ headers, onePeer.reaches (servingNode 1) { ip := "203.0.113.9".toList }
      { authority := none, uri := ⟨"/cart".toList,none⟩, headers := .parse spoofedLines } = some headers →
      headers.getAll "x-forwarded-for" = [utf8 "203.0.113.9".toList] :=
  have law := forwarded_metadata_of_entry onePeer (servingNode 1) { ip := "203.0.113.9".toList } none ⟨"/cart".toList,none⟩
    spoofedLines plainLines (by decide +kernel) (by decide +kernel)
  ⟨by decide +kernel,law.1,fun headers reached => (law.2 headers reached).1⟩

end Spoofed

end GrassWorker.Gateway
