import GrassWorker.Domain.PreviewAccess
import GrassWorker.Foundations.Interleaving
import GrassWorker.Foundations.Observations

/-! How a visitor comes to a protected preview: an authorization state, a callback code and a grant, each a token in
the cache. Every call of the cache and every query is an action of its own, and the world changes in between. -/
namespace GrassWorker.PreviewAccess
open Interleaving Validator
open Sessions (Nanoseconds SessionData unixTimestamp)
open CacheBackend (Seconds)

structure Scene where
  world : World
  sessions : Expiring Token SessionData := []
  authorizations : Expiring Token AuthorizationStateRecord := []
  callbacks : Expiring Token CallbackCodeRecord := []
  grants : Expiring Token PreviewGrantRecord := []
  screenshots : Expiring Token ScreenshotGrantRecord := []
  clock : Nanoseconds

def Scene.later (scene : Scene) (elapsed : Nat) : Scene :=
  let now := unixTimestamp (scene.clock + elapsed)
  { scene with
    sessions := Expiring.wait now scene.sessions
    authorizations := Expiring.wait now scene.authorizations
    callbacks := Expiring.wait now scene.callbacks
    grants := Expiring.wait now scene.grants
    screenshots := Expiring.wait now scene.screenshots
    clock := scene.clock + elapsed }

structure Granted where
  code : Token
  grant : Token
  record : PreviewGrantRecord
deriving DecidableEq

/-- A verification that allowed a request, and the number of the moment it began. -/
structure Allowed where
  since : Nat
  host : String
  grant : Token
  record : PreviewGrantRecord ⊕ ScreenshotGrantRecord
deriving DecidableEq

/-- The scene with all that came before it, and what has happened: codes issued and taken, grants given for them
and requests allowed. -/
structure Shared where
  scene : Scene
  drawn : Nat
  moments : List Scene := []
  issued : List (Token × CallbackCodeRecord) := []
  taken : List Token := []
  granted : List Granted := []
  allowed : List Allowed := []

inductive Request
  | startAuthorization (host returnTo : String)
  | authorize (sessionId state : Token)
  | exchange (host : String) (code : Token)
  | verify (host : String) (grant : Token)
  | issueScreenshotGrant (host : String)
  /-- Another request of a session. -/
  | authenticate (sessionId : Token)
  | login (userId : Uuid) (authVersion : Int)
  | logout (sessionId : Token)
  | changeWorld (world : World)

/-- What a preview is resolved, a session validated or an access checked for. -/
inductive Errand
  | start (host returnTo : String)
  | authorize (sessionId state : Token)
  | approve (sessionId : Token) (userId : Uuid) (record : AuthorizationStateRecord)
  | exchange (code : Token) (record : CallbackCodeRecord)
  | verify (since : Nat) (host : String) (grant : Token) (record : PreviewGrantRecord)
  | photograph (host : String)
  | screenshot (since : Nat) (host : String) (grant : Token) (record : ScreenshotGrantRecord)
  | authenticate (sessionId : Token)
deriving DecidableEq

def Errand.preview : Errand → String × Option PreviewBinding
  | .start host _ | .photograph host => (host,none)
  | .approve _ _ record => (record.binding.host,some record.binding)
  | .exchange _ record => (record.binding.host,some record.binding)
  | .verify _ _ _ record => (record.binding.host,some record.binding)
  | .screenshot _ _ _ record => (record.binding.host,some record.binding)
  | .authorize .. | .authenticate _ => ("",none)

inductive Handler
  | takeAuthorization (sessionId state : Token) (userId : Uuid)
  | takeCode (host : String) (code : Token)
  | getScreenshot (host : String) (grant : Token)
  | getGrant (host : String) (grant : Token)
  | findDeployment (errand : Errand)
  | findEffective (errand : Errand) (host : String) (deployment : Deployment)
  | findProject (errand : Errand) (host : String) (deployment : Deployment)
  | readSession (errand : Errand) (sessionId : Token)
  | decideSession (errand : Errand) (sessionId : Token) (data : SessionData) (idleTtl sessionTtl : Seconds)
  | expireSession (sessionId : Token)
  | refreshSession (errand : Errand) (sessionId : Token) (data : SessionData) (remaining : Seconds)
  | readAccount (errand : Errand) (sessionId : Token) (data : SessionData)
  | revokeSession (sessionId : Token)
  | readUser (errand : Errand) (teamId userId : Uuid) (session : Option SessionData)
  | readMember (errand : Errand) (teamId : Uuid) (user : Authentication.User) (session : Option SessionData)
  | storeAuthorization (binding : PreviewBinding) (returnTo : String)
  | storeCallback (sessionId : Token) (userId : Uuid) (record : AuthorizationStateRecord)
  | storeGrant (code : Token) (record : CallbackCodeRecord) (session : SessionData)
  | storeScreenshot (binding : PreviewBinding)
  | createSession (userId : Uuid) (authVersion : Int)
  | changeWorld (world : World)

structure Input where
  elapsed : Nat
  fails : Bool := false

def Shared.now (s : Shared) : Nat := s.moments.length - 1

def Shared.allow (s : Shared) (answer : Allowed) : Shared := { s with allowed := s.allowed ++ [answer] }

def bound (s : Shared) (binding : PreviewBinding) : Errand → Shared × Option Handler
  | .start _ returnTo => (s,some (.storeAuthorization binding returnTo))
  | .approve sessionId userId record =>
    (s,some (.readUser (.approve sessionId userId record) record.binding.teamId userId none))
  | .exchange code record => (s,some (.readSession (.exchange code record) record.sessionId))
  | .verify since host grant record => (s,some (.readSession (.verify since host grant record) record.sessionId))
  | .photograph _ => (s,some (.storeScreenshot binding))
  | .screenshot since host grant record => (s.allow ⟨since,host,grant,.inr record⟩,none)
  | .authorize .. | .authenticate _ => (s,none)

def validated (data : SessionData) : Errand → Option Handler
  | .authorize sessionId state => some (.takeAuthorization sessionId state data.userId)
  | .exchange code record =>
    if data.userId = record.userId then
      some (.readUser (.exchange code record) record.binding.teamId record.userId (some data))
    else none
  | .verify since host grant record =>
    if data.userId = record.userId then
      some (.readUser (.verify since host grant record) record.binding.teamId record.userId (some data))
    else none
  | _ => none

def permitted (s : Shared) (session : Option SessionData) : Errand → Shared × Option Handler
  | .approve sessionId userId record => (s,some (.storeCallback sessionId userId record))
  | .exchange code record => (s,session.map fun session => .storeGrant code record session)
  | .verify since host grant record => (s.allow ⟨since,host,grant,.inl record⟩,none)
  | _ => (s,none)

def advance (s : Shared) (handler : Handler) : Shared × Option Handler :=
  let scene := s.scene
  let seconds := unixTimestamp scene.clock
  match handler with
  | .takeAuthorization sessionId state userId =>
    ({ s with scene := { scene with authorizations := Expiring.remove scene.authorizations state } },
      ((Expiring.get scene.authorizations state).filter fun record => isExpired record.expiresAt scene.clock = false).map
        fun record => .findDeployment (.approve sessionId userId record))
  | .takeCode rawHost code =>
    match normalizeHost rawHost,Expiring.get scene.callbacks code with
    | .ok host,some record =>
      ({ s with scene := { scene with callbacks := Expiring.remove scene.callbacks code }, taken := s.taken ++ [code] },
        if isExpired record.expiresAt scene.clock = false ∧ record.binding.host = host then
          some (.findDeployment (.exchange code record))
        else none)
    | _,_ => (s,none)
  | .getScreenshot rawHost grant =>
    match normalizeHost rawHost with
    | .error _ => (s,none)
    | .ok host =>
      match (Expiring.get scene.screenshots grant).filter fun record =>
          isExpired record.expiresAt scene.clock = false ∧ record.binding.host = host with
      | some record => (s,some (.findDeployment (.screenshot s.now host grant record)))
      | none => (s,some (.getGrant host grant))
  | .getGrant host grant =>
    (s,((Expiring.get scene.grants grant).filter fun record =>
      isExpired record.expiresAt scene.clock = false ∧ record.binding.host = host).map fun record =>
        .findDeployment (.verify s.now host grant record))
  | .findDeployment errand =>
    match normalizeHost errand.preview.1 with
    | .error _ => (s,none)
    | .ok host => (s,(readyDeployment scene.world host).map fun deployment => .findEffective errand host deployment)
  | .findEffective errand host deployment =>
    (s,if effectiveIs scene.world deployment then some (.findProject errand host deployment) else none)
  | .findProject errand host deployment =>
    match scene.world.db.projects.find deployment.projectId with
    | none => (s,none)
    | some project =>
      let binding := ⟨deployment.id,deployment.projectId,project.teamId,host⟩
      if errand.preview.2.all fun expected => expected = binding then bound s binding errand else (s,none)
  | .readSession errand sessionId =>
    (s,(Expiring.get scene.sessions sessionId).map fun data =>
      .decideSession errand sessionId data scene.world.idleTtl scene.world.sessionTtl)
  | .decideSession errand sessionId data idleTtl sessionTtl =>
    match remainingSeconds idleTtl sessionTtl data scene.clock with
    | some remaining => (s,some (.refreshSession errand sessionId { data with lastAccessedAt := scene.clock } remaining))
    | none => (s,some (.expireSession sessionId))
  | .expireSession sessionId | .revokeSession sessionId =>
    ({ s with scene := { scene with sessions := Expiring.remove scene.sessions sessionId } },none)
  | .refreshSession errand sessionId data remaining =>
    ({ s with scene := { scene with
        sessions := Expiring.putIfPresent scene.sessions sessionId data (seconds + remaining) } },
      if (Expiring.get scene.sessions sessionId).isSome then some (.readAccount errand sessionId data) else none)
  | .readAccount errand sessionId data =>
    match (Teams.getUserById scene.world.users data.userId).filter fun user => accountCurrent user data with
    | some _ => (s,validated data errand)
    | none => (s,some (.revokeSession sessionId))
  | .readUser errand teamId userId session =>
    (s,((Teams.getUserById scene.world.users userId).filter fun user => user.status = .active).map fun user =>
      .readMember errand teamId user session)
  | .readMember errand teamId user session =>
    if userMayAccess scene.world teamId user then permitted s session errand else (s,none)
  | .storeAuthorization binding returnTo =>
    let record := ⟨binding,returnTo,expiresAfter authorizationStateTtl scene.clock⟩
    ({ s with
      scene := { scene with
        authorizations := Expiring.put scene.authorizations s.drawn record (seconds + authorizationStateTtl) }
      drawn := s.drawn + 1 },none)
  | .storeCallback sessionId userId record =>
    let record := ⟨record.binding,record.returnTo,sessionId,userId,expiresAfter callbackCodeTtl scene.clock,
      scene.world.cookieSecure⟩
    ({ s with
      scene := { scene with callbacks := Expiring.put scene.callbacks s.drawn record (seconds + callbackCodeTtl) }
      drawn := s.drawn + 1
      issued := s.issued ++ [(s.drawn,record)] },none)
  | .storeGrant code record session =>
    let maxAge := maxAgeSeconds scene.world.sessionTtl session scene.clock
    if maxAge = 0 then (s,none)
    else
      let record := ⟨record.binding,record.sessionId,record.userId,seconds + maxAge⟩
      ({ s with
        scene := { scene with grants := Expiring.put scene.grants s.drawn record (seconds + maxAge) }
        drawn := s.drawn + 1
        granted := s.granted ++ [⟨code,s.drawn,record⟩] },none)
  | .storeScreenshot binding =>
    let record := ⟨binding,expiresAfter screenshotGrantTtl scene.clock⟩
    ({ s with
      scene := { scene with screenshots := Expiring.put scene.screenshots s.drawn record (seconds + screenshotGrantTtl) }
      drawn := s.drawn + 1 },none)
  | .createSession userId authVersion =>
    ({ s with
      scene := { scene with
        sessions := Expiring.put scene.sessions s.drawn ⟨userId,authVersion,scene.clock,scene.clock⟩
          (seconds + scene.world.sessionTtl) }
      drawn := s.drawn + 1 },none)
  | .changeWorld world => ({ s with scene := { scene with world } },none)

def Errand.tracked : Errand → Bool
  | .exchange .. | .verify .. | .screenshot .. => true
  | _ => false

def Handler.tracked : Handler → Bool
  | .findDeployment errand | .findEffective errand _ _ | .findProject errand _ _ | .readSession errand _ |
    .decideSession errand _ _ _ _ | .refreshSession errand _ _ _ | .readAccount errand _ _ | .readUser errand _ _ _ |
    .readMember errand _ _ _ => errand.tracked
  | .storeGrant .. => true
  | _ => false

inductive Acts (s : Shared) : Handler → Shared → Option Handler → Prop
  | ends (handler : Handler) : Acts s handler s none
  | elsewhere (handler : Handler) (scene : Scene) (drawn : Nat) (rest : Option Handler) (more : s.drawn ≤ drawn)
      (callbacks : scene.callbacks = s.scene.callbacks) (grants : scene.grants = s.scene.grants)
      (untracked : ∀ next ∈ rest, next.tracked = false) : Acts s handler { s with scene, drawn } rest
  | took (rawHost host : String) (code : Token) (record : CallbackCodeRecord) (rest : Option Handler)
      (found : Expiring.get s.scene.callbacks code = some record)
      (goes : rest = none ∨ rest = some (.findDeployment (.exchange code record))) :
      Acts s (.takeCode rawHost code)
        { s with
          scene := { s.scene with callbacks := Expiring.remove s.scene.callbacks code }, taken := s.taken ++ [code] } rest
  | pictured (rawHost host : String) (grant : Token) (record : ScreenshotGrantRecord)
      (unexpired : isExpired record.expiresAt s.scene.clock = false) (same : record.binding.host = host) :
      Acts s (.getScreenshot rawHost grant) s (some (.findDeployment (.screenshot s.now host grant record)))
  | granted (host : String) (grant : Token) (record : PreviewGrantRecord)
      (found : Expiring.get s.scene.grants grant = some record)
      (unexpired : isExpired record.expiresAt s.scene.clock = false) (same : record.binding.host = host) :
      Acts s (.getGrant host grant) s (some (.findDeployment (.verify s.now host grant record)))
  | deployed (errand : Errand) (host : String) (deployment : Deployment)
      (ready : readyDeployment s.scene.world host = some deployment) :
      Acts s (.findDeployment errand) s (some (.findEffective errand host deployment))
  | effective (errand : Errand) (host : String) (deployment : Deployment) (newest : effectiveIs s.scene.world deployment = true) :
      Acts s (.findEffective errand host deployment) s (some (.findProject errand host deployment))
  | resolved (errand : Errand) (host : String) (deployment : Deployment) (project : Project)
      (found : s.scene.world.db.projects.find deployment.projectId = some project)
      (expected : errand.preview.2.all fun expected =>
        expected = ⟨deployment.id,deployment.projectId,project.teamId,host⟩) :
      Acts s (.findProject errand host deployment)
        (bound s ⟨deployment.id,deployment.projectId,project.teamId,host⟩ errand).1
        (bound s ⟨deployment.id,deployment.projectId,project.teamId,host⟩ errand).2
  | sessionRead (errand : Errand) (sessionId : Token) (data : SessionData)
      (found : Expiring.get s.scene.sessions sessionId = some data) :
      Acts s (.readSession errand sessionId) s
        (some (.decideSession errand sessionId data s.scene.world.idleTtl s.scene.world.sessionTtl))
  | decided (errand : Errand) (sessionId : Token) (data : SessionData) (idleTtl sessionTtl remaining : Seconds)
      (goes : remainingSeconds idleTtl sessionTtl data s.scene.clock = some remaining) :
      Acts s (.decideSession errand sessionId data idleTtl sessionTtl) s
        (some (.refreshSession errand sessionId { data with lastAccessedAt := s.scene.clock } remaining))
  | refreshed (errand : Errand) (sessionId : Token) (data : SessionData) (remaining : Seconds)
      (present : (Expiring.get s.scene.sessions sessionId).isSome) (sessions : Expiring Token SessionData) :
      Acts s (.refreshSession errand sessionId data remaining) { s with scene := { s.scene with sessions } }
        (some (.readAccount errand sessionId data))
  | accountRead (errand : Errand) (sessionId : Token) (data : SessionData) (user : Authentication.User)
      (found : Teams.getUserById s.scene.world.users data.userId = some user) (current : accountCurrent user data = true) :
      Acts s (.readAccount errand sessionId data) s (validated data errand)
  | userRead (errand : Errand) (teamId userId : Uuid) (session : Option SessionData) (user : Authentication.User)
      (found : Teams.getUserById s.scene.world.users userId = some user) (active : user.status = .active) :
      Acts s (.readUser errand teamId userId session) s (some (.readMember errand teamId user session))
  | memberRead (errand : Errand) (teamId : Uuid) (user : Authentication.User) (session : Option SessionData)
      (may : userMayAccess s.scene.world teamId user = true) :
      Acts s (.readMember errand teamId user session) (permitted s session errand).1 (permitted s session errand).2
  | codeStored (sessionId : Token) (userId : Uuid) (state : AuthorizationStateRecord) (record : CallbackCodeRecord)
      (deadline : Seconds) :
      Acts s (.storeCallback sessionId userId state)
        { s with
          scene := { s.scene with callbacks := Expiring.put s.scene.callbacks s.drawn record deadline }
          drawn := s.drawn + 1, issued := s.issued ++ [(s.drawn,record)] } none
  | grantStored (code : Token) (callback : CallbackCodeRecord) (session : SessionData) (record : PreviewGrantRecord)
      (deadline : Seconds) (binding : record.binding = callback.binding) (source : record.sessionId = callback.sessionId)
      (user : record.userId = callback.userId) :
      Acts s (.storeGrant code callback session)
        { s with
          scene := { s.scene with grants := Expiring.put s.scene.grants s.drawn record deadline }
          drawn := s.drawn + 1, granted := s.granted ++ [⟨code,s.drawn,record⟩] } none

theorem untracked_none : ∀ next ∈ (none : Option Handler), next.tracked = false := by
  intro next member
  cases member

theorem advance_acts (s : Shared) (handler : Handler) : Acts s handler (advance s handler).1 (advance s handler).2 := by
  cases handler with
  | takeAuthorization sessionId state userId =>
    refine .elsewhere _ _ s.drawn _ (Nat.le_refl _) rfl rfl ?_
    intro next member
    obtain ⟨_,_,rfl⟩ := Option.map_eq_some_iff.mp member
    rfl
  | takeCode rawHost code =>
    simp only [advance]
    split
    · rename_i host record _ found
      refine .took rawHost host code record _ found ?_
      split
      · exact .inr rfl
      · exact .inl rfl
    · exact .ends _
  | getScreenshot rawHost grant =>
    simp only [advance]
    cases normalizeHost rawHost with
    | error _ => exact .ends _
    | ok host =>
      simp only
      split
      · rename_i record found
        obtain ⟨_,unexpired,same⟩ := by simpa [Option.filter_eq_some_iff] using found
        exact .pictured rawHost host grant record unexpired same
      · refine .elsewhere _ s.scene s.drawn _ (Nat.le_refl _) rfl rfl ?_
        rintro _ ⟨⟩
        rfl
  | getGrant host grant =>
    simp only [advance]
    cases found : (Expiring.get s.scene.grants grant).filter fun record =>
        isExpired record.expiresAt s.scene.clock = false ∧ record.binding.host = host with
    | none => exact .ends _
    | some record =>
      obtain ⟨there,unexpired,same⟩ := by simpa [Option.filter_eq_some_iff] using found
      exact .granted host grant record there unexpired same
  | findDeployment errand =>
    simp only [advance]
    split
    · exact .ends _
    · rename_i host _
      cases ready : readyDeployment s.scene.world host with
      | none => exact .ends _
      | some deployment => exact .deployed errand host deployment ready
  | findEffective errand host deployment =>
    simp only [advance]
    split
    · rename_i newest
      exact .effective errand host deployment newest
    · exact .ends _
  | findProject errand host deployment =>
    simp only [advance]
    split
    · exact .ends _
    · rename_i project found
      split
      · rename_i expected
        exact .resolved errand host deployment project found expected
      · exact .ends _
  | readSession errand sessionId =>
    simp only [advance]
    cases found : Expiring.get s.scene.sessions sessionId with
    | none => exact .ends _
    | some data => exact .sessionRead errand sessionId data found
  | decideSession errand sessionId data idleTtl sessionTtl =>
    simp only [advance]
    split
    · rename_i remaining goes
      exact .decided errand sessionId data idleTtl sessionTtl remaining goes
    · refine .elsewhere _ s.scene s.drawn _ (Nat.le_refl _) rfl rfl ?_
      rintro _ ⟨⟩
      rfl
  | expireSession sessionId | revokeSession sessionId =>
    simp only [advance]
    refine .elsewhere _ _ s.drawn none (Nat.le_refl _) ?_ ?_ untracked_none
    · rfl
    · rfl
  | refreshSession errand sessionId data remaining =>
    simp only [advance]
    split
    · rename_i present
      exact .refreshed errand sessionId data remaining present _
    · exact .elsewhere _ _ s.drawn none (Nat.le_refl _) rfl rfl untracked_none
  | readAccount errand sessionId data =>
    simp only [advance]
    split
    · rename_i user found
      obtain ⟨found,current⟩ := Option.filter_eq_some_iff.mp found
      exact .accountRead errand sessionId data user found current
    · refine .elsewhere _ s.scene s.drawn _ (Nat.le_refl _) rfl rfl ?_
      rintro _ ⟨⟩
      rfl
  | readUser errand teamId userId session =>
    simp only [advance]
    cases found : (Teams.getUserById s.scene.world.users userId).filter fun user => user.status = .active with
    | none => exact .ends _
    | some user =>
      obtain ⟨there,active⟩ := Option.filter_eq_some_iff.mp found
      exact .userRead errand teamId userId session user there (of_decide_eq_true active)
  | readMember errand teamId user session =>
    simp only [advance]
    split
    · rename_i may
      exact .memberRead errand teamId user session may
    · exact .ends _
  | storeAuthorization binding returnTo =>
    simp only [advance]
    refine .elsewhere _ _ (s.drawn + 1) none (Nat.le_succ _) ?_ ?_ untracked_none
    · rfl
    · rfl
  | storeCallback sessionId userId state => exact .codeStored sessionId userId state _ _
  | storeGrant code callback session =>
    simp only [advance]
    split
    · exact .ends _
    · exact .grantStored code callback session _ _ rfl rfl rfl
  | storeScreenshot binding =>
    simp only [advance]
    refine .elsewhere _ _ (s.drawn + 1) none (Nat.le_succ _) ?_ ?_ untracked_none
    · rfl
    · rfl
  | createSession userId authVersion =>
    simp only [advance]
    refine .elsewhere _ _ (s.drawn + 1) none (Nat.le_succ _) ?_ ?_ untracked_none
    · rfl
    · rfl
  | changeWorld world => exact .elsewhere _ _ s.drawn none (Nat.le_refl _) rfl rfl untracked_none

def Shared.later (s : Shared) (elapsed : Nat) : Shared :=
  { s with scene := s.scene.later elapsed, moments := s.moments ++ [s.scene.later elapsed] }

def act (input : Input) (s : Shared) (handler : Handler) : Shared × Option Handler :=
  if input.fails then (s.later input.elapsed,none) else advance (s.later input.elapsed) handler

theorem act_acts (input : Input) (s : Shared) (handler : Handler) :
    Acts (s.later input.elapsed) handler (act input s handler).1 (act input s handler).2 := by
  unfold act
  split
  · exact .ends handler
  · exact advance_acts _ handler

def enter : Request → Handler
  | .startAuthorization host returnTo => .findDeployment (.start host returnTo)
  | .authorize sessionId state => .readSession (.authorize sessionId state) sessionId
  | .exchange host code => .takeCode host code
  | .verify host grant => .getScreenshot host grant
  | .issueScreenshotGrant host => .findDeployment (.photograph host)
  | .authenticate sessionId => .readSession (.authenticate sessionId) sessionId
  | .login userId authVersion => .createSession userId authVersion
  | .logout sessionId => .revokeSession sessionId
  | .changeWorld world => .changeWorld world

def machine : Machine Shared Handler Request Input := ⟨enter,act⟩

def idle (world : World) (clock : Nanoseconds) (drawn : Nat) : Config Shared Handler := ⟨{ scene := { world, clock }, drawn },[]⟩

end GrassWorker.PreviewAccess
