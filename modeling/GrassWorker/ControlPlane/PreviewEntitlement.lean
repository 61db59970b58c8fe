import GrassWorker.ControlPlane.PreviewGrants
import Mathlib.Data.Multiset.OrderedMonoid

/-! Who is shown a preview. Whoever takes a code has it alone, and a verification that allows a request has found all
it asks for, one thing after another. -/
namespace GrassWorker.PreviewAccess
open Interleaving Runs
open Sessions (SessionData wholeSeconds)
open CacheBackend (Seconds)

section Facts
variable (binding : PreviewBinding)

def Unexpired (expiresAt : Seconds) (scene : Scene) : Prop := isExpired expiresAt scene.clock = false

def Served (scene : Scene) : Prop := ∃ deployment, readyDeployment scene.world binding.host = some deployment ∧
  deployment.id = binding.deploymentId ∧ deployment.projectId = binding.projectId

def NotSuperseded (scene : Scene) : Prop := ∃ environment,
  (Delivery.effectivePreview scene.world.db binding.projectId environment).map Deployment.id = some binding.deploymentId

def OfTeam (scene : Scene) : Prop := ∃ project,
  scene.world.db.projects.find binding.projectId = some project ∧ project.teamId = binding.teamId

/-- The deployment that was found for a host, before it is known to be that of a binding. -/
def Found (host : String) (deployment : Deployment) (scene : Scene) : Prop :=
  readyDeployment scene.world host = some deployment

def Newest (deployment : Deployment) (scene : Scene) : Prop := effectiveIs scene.world deployment = true

def Stored (sessionId : Token) (data : SessionData) (idleTtl sessionTtl : Seconds) (scene : Scene) : Prop :=
  Expiring.get scene.sessions sessionId = some data ∧ scene.world.idleTtl = idleTtl ∧ scene.world.sessionTtl = sessionTtl

def InTime (data : SessionData) (idleTtl sessionTtl : Seconds) (scene : Scene) : Prop :=
  wholeSeconds (scene.clock - data.lastAccessedAt) ≤ idleTtl ∧
    scene.clock < data.createdAt + sessionTtl * Sessions.nanosecondsPerSecond

def NotRevoked (sessionId : Token) (scene : Scene) : Prop := (Expiring.get scene.sessions sessionId).isSome

def AccountCurrent (data : SessionData) (scene : Scene) : Prop := ∃ user,
  Teams.getUserById scene.world.users data.userId = some user ∧ accountCurrent user data = true

def ActiveUser (userId : Uuid) (user : Authentication.User) (scene : Scene) : Prop :=
  Teams.getUserById scene.world.users userId = some user ∧ user.status = .active

def MayAccess (teamId : Uuid) (user : Authentication.User) (scene : Scene) : Prop :=
  userMayAccess scene.world teamId user = true

def current (expiresAt : Seconds) : List (Scene → Prop) :=
  [Unexpired expiresAt,Served binding,NotSuperseded binding,OfTeam binding]

end Facts

def sessionFacts (sessionId : Token) (data : SessionData) (idleTtl sessionTtl : Seconds) : List (Scene → Prop) :=
  [Stored sessionId data idleTtl sessionTtl,InTime data idleTtl sessionTtl,NotRevoked sessionId,AccountCurrent data]

/-- A verification found, in this order, the preview of the grant current, its session valid for its user, and the
user someone who may access the team. For a screenshot it is the preview alone. -/
def Entitled (moments : List Scene) (answer : Allowed) : Prop :=
  match answer.record with
  | .inl record => ∃ data idleTtl sessionTtl user, data.userId = record.userId ∧
    Observed moments answer.since (current record.binding record.expiresAt ++
      sessionFacts record.sessionId data idleTtl sessionTtl ++
      [ActiveUser record.userId user,MayAccess record.binding.teamId user])
  | .inr record => Observed moments answer.since (current record.binding record.expiresAt)

def GivenFor (issued : List (Token × CallbackCodeRecord)) (granted : Granted) : Prop :=
  ∃ record, (granted.code,record) ∈ issued ∧ granted.record.binding = record.binding ∧
    granted.record.sessionId = record.sessionId ∧ granted.record.userId = record.userId

structure Entitling (s : Shared) : Prop where
  once : (s.granted.map Granted.code).Nodup
  given : ∀ granted ∈ s.granted, GivenFor s.issued granted
  hosts : ∀ answer ∈ s.allowed, ∀ record, answer.record = .inl record → record.binding.host = answer.host ∧
    ∃ granted ∈ s.granted, granted.grant = answer.grant ∧ granted.record = record
  entitled : ∀ answer ∈ s.allowed, Entitled s.moments answer

/-! What is so at one moment. -/

/-- `resolve_preview_binding`, if nothing changed while it reads. -/
def previewBinding (world : World) (host : String) : Option PreviewBinding := do
  let deployment ← readyDeployment world host
  if effectiveIs world deployment then
    let project ← world.db.projects.find deployment.projectId
    return ⟨deployment.id,deployment.projectId,project.teamId,host⟩
  else none

def sessionValid (scene : Scene) (sessionId : Token) (userId : Uuid) : Bool :=
  (Expiring.get scene.sessions sessionId).any fun data => data.userId = userId ∧
    (remainingSeconds scene.world.idleTtl scene.world.sessionTtl data scene.clock).isSome ∧
    (Teams.getUserById scene.world.users userId).any fun user => accountCurrent user data

def mayAccess (world : World) (teamId userId : Uuid) : Bool :=
  (Teams.getUserById world.users userId).any fun user => user.status = .active ∧ userMayAccess world teamId user

/-- The session is valid for the user, the user may access the team and the preview is the one of the grant. -/
def entitledNow (scene : Scene) (answer : Allowed) : Bool :=
  match answer.record with
  | .inl record => sessionValid scene record.sessionId record.userId ∧
    mayAccess scene.world record.binding.teamId record.userId ∧ previewBinding scene.world answer.host = some record.binding
  | .inr _ => false

def AllowsNow (input : Input) (s : Shared) (handler : Handler) : Prop :=
  ∀ answer ∈ (act input s handler).1.allowed.drop s.allowed.length, entitledNow (s.later input.elapsed).scene answer

instance (input : Input) (s : Shared) (handler : Handler) : Decidable (AllowsNow input s handler) :=
  inferInstanceAs (Decidable (∀ answer ∈ _, _))

/-! The invariants. -/

structure Sound (s : Shared) : Prop extends Entitling s where
  callbacks : ∀ entry ∈ s.scene.callbacks, entry.key < s.drawn ∧ entry.key ∉ s.taken ∧ (entry.key,entry.value) ∈ s.issued
  grants : ∀ entry ∈ s.scene.grants, ∃ granted ∈ s.granted, granted.grant = entry.key ∧ granted.record = entry.value
  taken : ∀ code ∈ s.taken, code < s.drawn
  takenOnce : s.taken.Nodup

def Errand.Begun (s : Shared) (facts : List (Scene → Prop)) : Errand → Prop
  | .exchange code record => (code,record) ∈ s.issued
  | .verify since host grant record => record.binding.host = host ∧
    (∃ granted ∈ s.granted, granted.grant = grant ∧ granted.record = record) ∧
    Observed s.moments since (Unexpired record.expiresAt :: facts)
  | .screenshot since host _ record => record.binding.host = host ∧
    Observed s.moments since (Unexpired record.expiresAt :: facts)
  | _ => True

def Errand.Resolved (s : Shared) (facts : List (Scene → Prop)) : Errand → Prop
  | .exchange code record => (code,record) ∈ s.issued
  | .verify since host grant record => record.binding.host = host ∧
    (∃ granted ∈ s.granted, granted.grant = grant ∧ granted.record = record) ∧
    Observed s.moments since (current record.binding record.expiresAt ++ facts)
  | .screenshot .. => False
  | _ => True

/-- Once its session is validated too; a verification looks at the user of its grant. -/
def Errand.Validated (s : Shared) (teamId userId : Uuid) (last : List (Scene → Prop)) : Errand → Prop
  | .exchange code record => (code,record) ∈ s.issued
  | .verify since host grant record => teamId = record.binding.teamId ∧ userId = record.userId ∧
    record.binding.host = host ∧ (∃ granted ∈ s.granted, granted.grant = grant ∧ granted.record = record) ∧
    ∃ data idleTtl sessionTtl, data.userId = record.userId ∧
      Observed s.moments since (current record.binding record.expiresAt ++
        sessionFacts record.sessionId data idleTtl sessionTtl ++ last)
  | .screenshot .. => False
  | _ => True

def Errand.sourced (sessionId : Token) : Errand → Prop
  | .verify _ _ _ record => record.sessionId = sessionId
  | _ => True

def Relies (s : Shared) : Handler → Prop
  | .findDeployment errand => errand.Begun s []
  | .findEffective errand host deployment => errand.Begun s [Found host deployment]
  | .findProject errand host deployment => errand.Begun s [Found host deployment,Newest deployment]
  | .readSession errand sessionId => errand.sourced sessionId ∧ errand.Resolved s []
  | .decideSession errand sessionId data idleTtl sessionTtl =>
    errand.sourced sessionId ∧ errand.Resolved s [Stored sessionId data idleTtl sessionTtl]
  | .refreshSession errand sessionId data _ => errand.sourced sessionId ∧ ∃ stored idleTtl sessionTtl,
    stored.userId = data.userId ∧ stored.authVersion = data.authVersion ∧
      errand.Resolved s [Stored sessionId stored idleTtl sessionTtl,InTime stored idleTtl sessionTtl]
  | .readAccount errand sessionId data => errand.sourced sessionId ∧ ∃ stored idleTtl sessionTtl,
    stored.userId = data.userId ∧ stored.authVersion = data.authVersion ∧
      errand.Resolved s [Stored sessionId stored idleTtl sessionTtl,InTime stored idleTtl sessionTtl,NotRevoked sessionId]
  | .readUser errand teamId userId _ => errand.Validated s teamId userId []
  | .readMember errand teamId user _ => ∃ userId, errand.Validated s teamId userId [ActiveUser userId user]
  | .storeGrant code record _ => (code,record) ∈ s.issued
  | _ => True

def Errand.code : Errand → Multiset Token
  | .exchange code _ => {code}
  | _ => 0

def Handler.code : Handler → Multiset Token
  | .findDeployment errand | .findEffective errand _ _ | .findProject errand _ _ | .readSession errand _ |
    .decideSession errand _ _ _ _ | .refreshSession errand _ _ _ | .readAccount errand _ _ | .readUser errand _ _ _ |
    .readMember errand _ _ _ => errand.code
  | .storeGrant code _ _ => {code}
  | _ => 0

theorem relies_of_untracked {s : Shared} {handler : Handler} (untracked : handler.tracked = false) : Relies s handler := by
  have begun : ∀ errand : Errand, errand.tracked = false → ∀ facts, errand.Begun s facts := by
    intro errand untracked facts
    cases errand with
    | exchange | verify | screenshot => cases untracked
    | _ => trivial
  have resolved : ∀ errand : Errand, errand.tracked = false → ∀ facts, errand.Resolved s facts := by
    intro errand untracked facts
    cases errand with
    | exchange | verify | screenshot => cases untracked
    | _ => trivial
  have validated : ∀ errand : Errand, errand.tracked = false → ∀ teamId userId last, errand.Validated s teamId userId last := by
    intro errand untracked teamId userId last
    cases errand with
    | exchange | verify | screenshot => cases untracked
    | _ => trivial
  have sourced : ∀ errand : Errand, errand.tracked = false → ∀ sessionId, errand.sourced sessionId := by
    intro errand untracked sessionId
    cases errand with
    | exchange | verify | screenshot => cases untracked
    | _ => trivial
  cases handler with
  | findDeployment errand | findEffective errand | findProject errand => exact begun errand untracked _
  | readSession errand | decideSession errand => exact ⟨sourced errand untracked _,resolved errand untracked _⟩
  | refreshSession errand sessionId data | readAccount errand sessionId data =>
    exact ⟨sourced errand untracked _,data,0,0,rfl,rfl,resolved errand untracked _⟩
  | readUser errand => exact validated errand untracked _ _ _
  | readMember errand teamId user => exact ⟨user.id,validated errand untracked _ _ _⟩
  | storeGrant => cases untracked
  | _ => trivial

def Fresh (s : Shared) (handler : Handler) : Prop := ∀ code ∈ handler.code, code ∉ s.granted.map Granted.code

structure Grows (s s' : Shared) : Prop where
  issued : s.issued ⊆ s'.issued
  granted : s.granted ⊆ s'.granted
  moments : ∃ more, s'.moments = s.moments ++ more

section Grows
variable {s s' : Shared} {handler other : Handler} {rest : Option Handler}

theorem Grows.observed (grows : Grows s s') {since : Nat} {facts : List (Scene → Prop)}
    (observed : Observed s.moments since facts) : Observed s'.moments since facts := by
  obtain ⟨more,same⟩ := grows.moments
  rw [same]
  exact observed.later more

theorem Grows.grant (grows : Grows s s') {grant : Token} {record : PreviewGrantRecord}
    (given : ∃ granted ∈ s.granted, granted.grant = grant ∧ granted.record = record) :
    ∃ granted ∈ s'.granted, granted.grant = grant ∧ granted.record = record := by
  obtain ⟨granted,member,same⟩ := given
  exact ⟨granted,grows.granted member,same⟩

theorem Errand.Begun.later {errand : Errand} {facts : List (Scene → Prop)} (begun : errand.Begun s facts) (grows : Grows s s') :
    errand.Begun s' facts := by
  cases errand with
  | exchange => exact grows.issued begun
  | verify => exact ⟨begun.1,grows.grant begun.2.1,grows.observed begun.2.2⟩
  | screenshot => exact ⟨begun.1,grows.observed begun.2⟩
  | _ => trivial

theorem Errand.Resolved.later {errand : Errand} {facts : List (Scene → Prop)} (resolved : errand.Resolved s facts)
    (grows : Grows s s') : errand.Resolved s' facts := by
  cases errand with
  | exchange => exact grows.issued resolved
  | verify => exact ⟨resolved.1,grows.grant resolved.2.1,grows.observed resolved.2.2⟩
  | screenshot => exact resolved.elim
  | _ => trivial

theorem Errand.Validated.later {errand : Errand} {teamId userId : Uuid} {last : List (Scene → Prop)}
    (validated : errand.Validated s teamId userId last) (grows : Grows s s') : errand.Validated s' teamId userId last := by
  cases errand with
  | exchange => exact grows.issued validated
  | verify =>
    obtain ⟨team,user,host,given,data,idleTtl,sessionTtl,same,observed⟩ := validated
    exact ⟨team,user,host,grows.grant given,data,idleTtl,sessionTtl,same,grows.observed observed⟩
  | screenshot => exact validated.elim
  | _ => trivial

theorem Relies.later (relies : Relies s handler) (grows : Grows s s') : Relies s' handler := by
  cases handler with
  | findDeployment | findEffective | findProject => exact Errand.Begun.later relies grows
  | readSession | decideSession => exact ⟨relies.1,relies.2.later grows⟩
  | refreshSession | readAccount =>
    obtain ⟨sourced,stored,idleTtl,sessionTtl,user,version,resolved⟩ := relies
    exact ⟨sourced,stored,idleTtl,sessionTtl,user,version,resolved.later grows⟩
  | readUser => exact Errand.Validated.later relies grows
  | readMember =>
    obtain ⟨userId,validated⟩ := relies
    exact ⟨userId,validated.later grows⟩
  | storeGrant => exact grows.issued relies
  | _ => trivial

theorem bound_state (s : Shared) (binding : PreviewBinding) (errand : Errand) :
    (bound s binding errand).1 = { s with allowed := (bound s binding errand).1.allowed } := by
  cases errand <;> rfl

theorem permitted_state (s : Shared) (session : Option SessionData) (errand : Errand) :
    (permitted s session errand).1 = { s with allowed := (permitted s session errand).1.allowed } := by
  cases errand <;> rfl

theorem acts_grows (acts : Acts s handler s' rest) : Grows s s' := by
  have still : ∀ allowed, Grows s { s with allowed } := fun _ => ⟨List.Subset.refl _,List.Subset.refl _,[],by simp⟩
  cases acts with
  | resolved =>
    rw [bound_state]
    exact still _
  | memberRead =>
    rw [permitted_state]
    exact still _
  | codeStored => exact ⟨List.subset_append_left _ _,List.Subset.refl _,[],by simp⟩
  | grantStored => exact ⟨List.Subset.refl _,List.subset_append_left _ _,[],by simp⟩
  | _ => exact ⟨List.Subset.refl _,List.Subset.refl _,[],by simp⟩

theorem later_grows (s : Shared) (elapsed : Nat) : Grows s (s.later elapsed) :=
  ⟨List.Subset.refl _,List.Subset.refl _,[s.scene.later elapsed],rfl⟩

end Grows

section Step
variable {s s' : Shared} {elapsed : Nat} {handler : Handler} {rest : Option Handler}

theorem Errand.Begun.now {errand : Errand} {facts : List (Scene → Prop)} (begun : errand.Begun s facts) {fact : Scene → Prop}
    (holds : fact (s.later elapsed).scene) : errand.Begun (s.later elapsed) (facts ++ [fact]) := by
  cases errand with
  | exchange => exact begun
  | verify => exact ⟨begun.1,begun.2.1,begun.2.2.now holds⟩
  | screenshot => exact ⟨begun.1,begun.2.now holds⟩
  | _ => trivial

theorem Errand.Resolved.now {errand : Errand} {facts : List (Scene → Prop)} (resolved : errand.Resolved s facts)
    {fact : Scene → Prop} (holds : fact (s.later elapsed).scene) : errand.Resolved (s.later elapsed) (facts ++ [fact]) := by
  cases errand with
  | exchange => exact resolved
  | verify =>
    refine ⟨resolved.1,resolved.2.1,?_⟩
    rw [← List.append_assoc]
    exact resolved.2.2.now holds
  | screenshot => exact resolved.elim
  | _ => trivial

theorem Errand.Validated.now {errand : Errand} {teamId userId : Uuid} {last : List (Scene → Prop)}
    (validated : errand.Validated s teamId userId last) {fact : Scene → Prop} (holds : fact (s.later elapsed).scene) :
    errand.Validated (s.later elapsed) teamId userId (last ++ [fact]) := by
  cases errand with
  | exchange => exact validated
  | verify =>
    obtain ⟨team,user,host,given,data,idleTtl,sessionTtl,same,observed⟩ := validated
    refine ⟨team,user,host,given,data,idleTtl,sessionTtl,same,?_⟩
    rw [← List.append_assoc]
    exact observed.now holds
  | screenshot => exact validated.elim
  | _ => trivial

theorem observed_current {moments : List Scene} {since : Nat} {expiresAt : Seconds} {host : String} {deployment : Deployment}
    {project : Project} {binding : PreviewBinding} {scene : Scene}
    (observed : Observed moments since [Unexpired expiresAt,Found host deployment,Newest deployment])
    (found : scene.world.db.projects.find deployment.projectId = some project)
    (same : binding = ⟨deployment.id,deployment.projectId,project.teamId,host⟩) :
    Observed (moments ++ [scene]) since (current binding expiresAt) := by
  subst same
  have weaker : Observed moments since
      [Unexpired expiresAt,Served ⟨deployment.id,deployment.projectId,project.teamId,host⟩,
        NotSuperseded ⟨deployment.id,deployment.projectId,project.teamId,host⟩] := by
    refine observed.mono (.cons (fun _ => id) (.cons ?_ (.cons ?_ .nil)))
    · exact fun _ ready => ⟨deployment,ready,rfl,rfl⟩
    · exact fun _ newest => ⟨deployment.environment,of_decide_eq_true newest⟩
  have team : OfTeam ⟨deployment.id,deployment.projectId,project.teamId,host⟩ scene := ⟨project,found,rfl⟩
  exact weaker.now team

theorem relies_bound {errand : Errand} {host : String} {deployment : Deployment} {project : Project}
    (begun : errand.Begun s [Found host deployment,Newest deployment])
    (found : (s.later elapsed).scene.world.db.projects.find deployment.projectId = some project)
    (expected : errand.preview.2.all fun expected =>
      expected = ⟨deployment.id,deployment.projectId,project.teamId,host⟩) :
    ∀ next, (bound (s.later elapsed) ⟨deployment.id,deployment.projectId,project.teamId,host⟩ errand).2 = some next →
      Relies (bound (s.later elapsed) ⟨deployment.id,deployment.projectId,project.teamId,host⟩ errand).1 next := by
  intro next continues
  cases errand with
  | exchange =>
    cases continues
    exact ⟨trivial,begun⟩
  | verify since requested grant record =>
    cases continues
    refine ⟨rfl,begun.1,begun.2.1,?_⟩
    rw [List.append_nil]
    exact observed_current begun.2.2 found (of_decide_eq_true expected)
  | start | approve | photograph =>
    cases continues
    trivial
  | screenshot | authorize | authenticate => cases continues

theorem relies_validated {errand : Errand} {sessionId : Token} {data : SessionData} {user : Authentication.User}
    (relies : Relies s (.readAccount errand sessionId data))
    (found : Teams.getUserById (s.later elapsed).scene.world.users data.userId = some user)
    (current : accountCurrent user data = true) :
    ∀ next, validated data errand = some next → Relies (s.later elapsed) next := by
  obtain ⟨sourced,stored,idleTtl,sessionTtl,sameUser,sameVersion,resolved⟩ := relies
  intro next continues
  have account : AccountCurrent stored (s.later elapsed).scene := by
    refine ⟨user,sameUser ▸ found,?_⟩
    unfold accountCurrent at current ⊢
    rw [sameVersion]
    exact current
  cases errand with
  | exchange code record =>
    simp only [validated] at continues
    split at continues
    · cases continues
      exact resolved
    · cases continues
  | verify since host grant record =>
    simp only [validated] at continues
    split at continues
    · rename_i owner
      cases continues
      subst sourced
      refine ⟨rfl,rfl,resolved.1,resolved.2.1,stored,idleTtl,sessionTtl,sameUser.trans owner,?_⟩
      rw [List.append_nil]
      have all := resolved.2.2.now account
      rw [List.append_assoc] at all
      exact all
    · cases continues
  | authorize =>
    cases continues
    trivial
  | _ => cases continues

theorem relies_permitted {errand : Errand} {teamId : Uuid} {user : Authentication.User} {session : Option SessionData}
    (relies : Relies s (.readMember errand teamId user session)) :
    ∀ next, (permitted (s.later elapsed) session errand).2 = some next →
      Relies (permitted (s.later elapsed) session errand).1 next := by
  obtain ⟨userId,validated⟩ := relies
  intro next continues
  cases errand with
  | exchange code record =>
    obtain ⟨_,_,rfl⟩ := Option.map_eq_some_iff.mp continues
    exact validated
  | approve =>
    cases continues
    trivial
  | _ => cases continues

theorem relies_next (acts : Acts (s.later elapsed) handler s' rest) (sound : Sound s) (relies : Relies s handler) :
    ∀ next, rest = some next → Relies s' next := by
  have begins : (s.later elapsed).now = s.moments.length := by simp [Shared.now,Shared.later]
  have start {expiresAt : Seconds} (unexpired : isExpired expiresAt (s.later elapsed).scene.clock = false) :
      Observed (s.later elapsed).moments (s.later elapsed).now [Unexpired expiresAt] := by
    rw [begins]
    exact (observed_nothing s.moments).now unexpired
  intro next continues
  cases acts with
  | ends => cases continues
  | elsewhere handler scene drawn rest more callbacks grants untracked =>
    subst continues
    exact relies_of_untracked (untracked next rfl)
  | took rawHost host code record rest found goes =>
    rcases goes with rfl | rfl
    · cases continues
    · cases continues
      obtain ⟨entry,member,rfl,rfl⟩ := Expiring.get_eq_some found
      exact (sound.callbacks entry (Expiring.mem_wait member)).2.2
  | pictured rawHost host grant record unexpired same =>
    cases continues
    exact ⟨same,start unexpired⟩
  | granted host grant record found unexpired same =>
    cases continues
    obtain ⟨entry,member,rfl,rfl⟩ := Expiring.get_eq_some found
    exact ⟨same,sound.grants entry (Expiring.mem_wait member),start unexpired⟩
  | deployed errand host deployment ready =>
    cases continues
    exact Errand.Begun.now relies ready
  | effective errand host deployment newest =>
    cases continues
    exact Errand.Begun.now relies newest
  | resolved errand host deployment project found expected => exact relies_bound relies found expected next continues
  | sessionRead errand sessionId data found =>
    cases continues
    exact ⟨relies.1,relies.2.now ⟨found,rfl,rfl⟩⟩
  | decided errand sessionId data idleTtl sessionTtl remaining goes =>
    cases continues
    exact ⟨relies.1,data,idleTtl,sessionTtl,rfl,rfl,relies.2.now (remainingSeconds_some goes)⟩
  | refreshed errand sessionId data remaining present sessions =>
    cases continues
    obtain ⟨sourced,stored,idleTtl,sessionTtl,user,version,resolved⟩ := relies
    have kept : NotRevoked sessionId (s.later elapsed).scene := present
    have all := resolved.now kept
    exact ⟨sourced,stored,idleTtl,sessionTtl,user,version,
      all.later ⟨List.Subset.refl _,List.Subset.refl _,[],(List.append_nil _).symm⟩⟩
  | accountRead errand sessionId data user found current => exact relies_validated relies found current next continues
  | userRead errand teamId userId session user found active =>
    cases continues
    exact ⟨userId,Errand.Validated.now relies ⟨found,active⟩⟩
  | memberRead errand teamId user session may => exact relies_permitted relies next continues
  | codeStored | grantStored => cases continues

theorem GivenFor.later {issued more : List (Token × CallbackCodeRecord)} {granted : Granted} (given : GivenFor issued granted)
    (grows : issued ⊆ more) : GivenFor more granted := by
  obtain ⟨record,member,same⟩ := given
  exact ⟨record,grows member,same⟩

theorem Entitled.later {moments : List Scene} {answer : Allowed} (entitled : Entitled moments answer) (more : List Scene) :
    Entitled (moments ++ more) answer := by
  unfold Entitled at entitled ⊢
  split at entitled
  · obtain ⟨data,idleTtl,sessionTtl,user,same,observed⟩ := entitled
    exact ⟨data,idleTtl,sessionTtl,user,same,observed.later more⟩
  · exact entitled.later more

theorem Sound.later (sound : Sound s) (elapsed : Nat) : Sound (s.later elapsed) := by
  refine ⟨⟨sound.once,sound.given,sound.hosts,fun answer member => (sound.entitled answer member).later _⟩,?_,?_,
    sound.taken,sound.takenOnce⟩
  · exact fun entry member => sound.callbacks entry (Expiring.mem_wait member)
  · exact fun entry member => sound.grants entry (Expiring.mem_wait member)

theorem sound_allow (sound : Sound s) {answer : Allowed} (entitled : Entitled s.moments answer)
    (host : ∀ record, answer.record = .inl record → record.binding.host = answer.host ∧
      ∃ granted ∈ s.granted, granted.grant = answer.grant ∧ granted.record = record) : Sound (s.allow answer) := by
  refine ⟨⟨sound.once,sound.given,?_,?_⟩,sound.callbacks,sound.grants,sound.taken,sound.takenOnce⟩
  · intro other member
    rcases List.mem_append.mp member with old | new
    · exact sound.hosts other old
    · rw [List.mem_singleton.mp new]
      exact host
  · intro other member
    rcases List.mem_append.mp member with old | new
    · exact sound.entitled other old
    · rw [List.mem_singleton.mp new]
      exact entitled

theorem sound_bound (sound : Sound (s.later elapsed)) {errand : Errand} {host : String} {deployment : Deployment}
    {project : Project} (begun : errand.Begun s [Found host deployment,Newest deployment])
    (found : (s.later elapsed).scene.world.db.projects.find deployment.projectId = some project)
    (expected : errand.preview.2.all fun expected =>
      expected = ⟨deployment.id,deployment.projectId,project.teamId,host⟩) :
    Sound (bound (s.later elapsed) ⟨deployment.id,deployment.projectId,project.teamId,host⟩ errand).1 := by
  cases errand with
  | screenshot since requested grant record =>
    refine sound_allow sound ?_ nofun
    exact observed_current begun.2 found (of_decide_eq_true expected)
  | _ => exact sound

theorem sound_permitted (sound : Sound (s.later elapsed)) {errand : Errand} {teamId : Uuid} {user : Authentication.User}
    {session : Option SessionData} (relies : Relies s (.readMember errand teamId user session))
    (may : userMayAccess (s.later elapsed).scene.world teamId user = true) :
    Sound (permitted (s.later elapsed) session errand).1 := by
  obtain ⟨userId,validated⟩ := relies
  cases errand with
  | verify since host grant record =>
    obtain ⟨rfl,rfl,same,given,data,idleTtl,sessionTtl,owner,observed⟩ := validated
    refine sound_allow sound ⟨data,idleTtl,sessionTtl,user,owner,?_⟩ ?_
    · have member : MayAccess record.binding.teamId user (s.later elapsed).scene := may
      have all := observed.now member
      rw [List.append_assoc] at all
      exact all
    · rintro _ ⟨⟩
      exact ⟨same,given⟩
  | _ => exact sound

theorem acts_sound (acts : Acts (s.later elapsed) handler s' rest) (before : Sound s) (relies : Relies s handler)
    (fresh : Fresh s handler) : Sound s' := by
  have sound := before.later elapsed
  cases acts with
  | elsewhere handler scene drawn rest more callbacks grants untracked =>
    refine ⟨⟨sound.once,sound.given,sound.hosts,sound.entitled⟩,?_,?_,
      fun code member => (sound.taken code member).trans_le more,sound.takenOnce⟩
    · intro entry member
      dsimp only at member
      rw [callbacks] at member
      obtain ⟨drawn,rest⟩ := sound.callbacks entry member
      exact ⟨drawn.trans_le more,rest⟩
    · intro entry member
      dsimp only at member
      rw [grants] at member
      exact sound.grants entry member
  | took rawHost host code record rest found goes =>
    obtain ⟨entry,inside,rfl,rfl⟩ := Expiring.get_eq_some found
    obtain ⟨drawn,untaken,_⟩ := sound.callbacks entry inside
    refine ⟨⟨sound.once,sound.given,sound.hosts,sound.entitled⟩,?_,sound.grants,?_,?_⟩
    · intro other member
      obtain ⟨member,different⟩ := Expiring.mem_remove.mp member
      obtain ⟨below,free,issued⟩ := sound.callbacks other member
      refine ⟨below,?_,issued⟩
      intro again
      rcases List.mem_append.mp again with old | new
      · exact free old
      · exact different (List.mem_singleton.mp new)
    · intro other member
      rcases List.mem_append.mp member with old | new
      · exact sound.taken other old
      · rw [List.mem_singleton.mp new]
        exact drawn
    · refine List.nodup_append.mpr ⟨sound.takenOnce,List.nodup_singleton _,?_⟩
      intro one old two new
      rw [List.mem_singleton.mp new]
      rintro rfl
      exact untaken old
  | resolved errand host deployment project found expected => exact sound_bound sound relies found expected
  | memberRead errand teamId user session may => exact sound_permitted sound relies may
  | codeStored sessionId userId state record deadline =>
    refine ⟨⟨sound.once,?_,sound.hosts,sound.entitled⟩,?_,sound.grants,?_,sound.takenOnce⟩
    · exact fun granted member => (sound.given granted member).later (List.subset_append_left _ _)
    · intro entry member
      rcases Expiring.mem_put.mp member with rfl | ⟨old,_⟩
      · refine ⟨Nat.lt_succ_self _,?_,List.mem_append_right _ (List.mem_singleton_self _)⟩
        exact fun taken => absurd (sound.taken _ taken) (Nat.lt_irrefl _)
      · obtain ⟨drawn,untaken,issued⟩ := sound.callbacks entry old
        exact ⟨drawn.trans (Nat.lt_succ_self _),untaken,List.mem_append_left _ issued⟩
    · exact fun code member => (sound.taken code member).trans (Nat.lt_succ_self _)
  | grantStored code callback session record deadline binding source user =>
    refine ⟨⟨?_,?_,?_,sound.entitled⟩,?_,?_,?_,sound.takenOnce⟩
    · rw [List.map_append]
      refine List.nodup_append.mpr ⟨sound.once,List.nodup_singleton _,?_⟩
      intro one old two new
      rw [List.mem_singleton.mp new]
      rintro rfl
      exact fresh _ (Multiset.mem_singleton_self _) old
    · intro granted member
      rcases List.mem_append.mp member with old | new
      · exact sound.given granted old
      · rw [List.mem_singleton.mp new]
        exact ⟨callback,relies,binding,source,user⟩
    · intro answer member record same
      obtain ⟨host,granted,inside,this⟩ := sound.hosts answer member record same
      exact ⟨host,granted,List.mem_append_left _ inside,this⟩
    · intro entry member
      obtain ⟨drawn,rest⟩ := sound.callbacks entry member
      exact ⟨drawn.trans (Nat.lt_succ_self _),rest⟩
    · intro entry member
      rcases Expiring.mem_put.mp member with rfl | ⟨old,_⟩
      · exact ⟨_,List.mem_append_right _ (List.mem_singleton_self _),rfl,rfl⟩
      · obtain ⟨granted,inside,this⟩ := sound.grants entry old
        exact ⟨granted,List.mem_append_left _ inside,this⟩
    · exact fun code member => (sound.taken code member).trans (Nat.lt_succ_self _)
  | refreshed =>
    exact ⟨⟨sound.once,sound.given,sound.hosts,sound.entitled⟩,sound.callbacks,sound.grants,sound.taken,sound.takenOnce⟩
  | _ => exact sound

end Step

/-! The codes that were taken: each belongs to one exchange, under way or done. -/

theorem code_of_untracked {handler : Handler} (untracked : handler.tracked = false) : handler.code = 0 := by
  have free : ∀ errand : Errand, errand.tracked = false → errand.code = 0 := by
    intro errand untracked
    cases errand with
    | exchange => cases untracked
    | _ => rfl
  cases handler with
  | findDeployment errand | findEffective errand | findProject errand => exact free errand untracked
  | readSession errand | decideSession errand | refreshSession errand => exact free errand untracked
  | readAccount errand | readUser errand | readMember errand => exact free errand untracked
  | storeGrant => cases untracked
  | _ => rfl

section Codes
variable {s s' : Shared} {handler : Handler} {rest : Option Handler}

theorem code_bound (s : Shared) (binding : PreviewBinding) (errand : Errand) :
    Interleaving.rest Handler.code (bound s binding errand).2 ≤ errand.code := by
  cases errand <;> exact le_refl _

theorem code_validated (data : SessionData) (errand : Errand) :
    Interleaving.rest Handler.code (validated data errand) ≤ errand.code := by
  cases errand with
  | exchange | verify =>
    simp only [validated]
    split
    · exact le_refl _
    · exact Multiset.zero_le _
  | _ => exact le_refl _

theorem code_permitted (s : Shared) (session : Option SessionData) (errand : Errand) :
    Interleaving.rest Handler.code (permitted s session errand).2 ≤ errand.code := by
  cases errand with
  | exchange =>
    cases session with
    | none => exact Multiset.zero_le _
    | some session => exact le_refl _
  | _ => exact le_refl _

def grantedCodes (s : Shared) : Multiset Token := (s.granted.map Granted.code : Multiset Token)

theorem acts_codes (acts : Acts s handler s' rest) : ∃ extra : List Token, s'.taken = s.taken ++ extra ∧
    grantedCodes s' + Interleaving.rest Handler.code rest ≤ grantedCodes s + handler.code + extra := by
  have kept {s' : Shared} {rest : Option Handler} (granted : s'.granted = s.granted) (taken : s'.taken = s.taken)
      (codes : Interleaving.rest Handler.code rest ≤ handler.code) : ∃ extra : List Token, s'.taken = s.taken ++ extra ∧
        grantedCodes s' + Interleaving.rest Handler.code rest ≤ grantedCodes s + handler.code + extra := by
    refine ⟨[],by rw [taken,List.append_nil],?_⟩
    unfold grantedCodes
    rw [granted,Multiset.coe_nil,add_zero]
    exact add_le_add_right codes _
  cases acts with
  | ends => exact kept rfl rfl (Multiset.zero_le _)
  | elsewhere handler scene drawn rest more callbacks grants untracked =>
    refine kept rfl rfl ?_
    cases rest with
    | none => exact Multiset.zero_le _
    | some next =>
      rw [rest_some,code_of_untracked (untracked next rfl)]
      exact Multiset.zero_le _
  | took rawHost host code record rest found goes =>
    refine ⟨[code],rfl,?_⟩
    have codes : Interleaving.rest Handler.code rest ≤ {code} := by
      rcases goes with rfl | rfl
      · exact Multiset.zero_le _
      · exact le_refl _
    calc _ ≤ grantedCodes s + {code} := add_le_add_right codes _
      _ = grantedCodes s + 0 + {code} := by rw [add_zero]
  | resolved errand =>
    rw [bound_state]
    exact kept rfl rfl (code_bound s _ errand)
  | accountRead errand sessionId data => exact kept rfl rfl (code_validated data errand)
  | memberRead errand teamId user session =>
    rw [permitted_state]
    exact kept rfl rfl (code_permitted s session errand)
  | codeStored => exact kept rfl rfl (Multiset.zero_le _)
  | grantStored code =>
    refine ⟨[],(List.append_nil _).symm,?_⟩
    unfold grantedCodes
    rw [List.map_append,← Multiset.coe_add,Multiset.coe_nil,add_zero,rest_none,add_zero]
    exact le_refl _
  | pictured | granted => exact kept rfl rfl (Multiset.zero_le _)
  | deployed | effective | sessionRead | decided | refreshed | userRead => exact kept rfl rfl (le_refl _)

end Codes

/-- What every step keeps: what is sound, what each handler relies on, and that codes taken are held once. -/
structure Kept (config : Config Shared Handler) : Prop where
  holds : Holds Sound Relies config
  codes : grantedCodes config.shared + owed Handler.code config ≤ (config.shared.taken : Multiset Token)

theorem Kept.fresh {config : Config Shared Handler} (kept : Kept config) {handler : Handler}
    (member : handler ∈ config.inflight) : Fresh config.shared handler := by
  intro code mine granted
  have once := Multiset.nodup_of_le kept.codes (Multiset.coe_nodup.mpr kept.holds.state.takenOnce)
  have owes : code ∈ owed Handler.code config := (mem_owed Handler.code config code).mpr ⟨handler,member,mine⟩
  exact Multiset.disjoint_left.mp (Multiset.nodup_add.mp once).2.2 granted owes

theorem Kept.step {config : Config Shared Handler} (kept : Kept config) (event : Event Request Input) :
    Kept (machine.step config event) := by
  refine ⟨?_,?_⟩
  · have fresh : Acting (fun (_ : Input) => Fresh) config event := by
      cases event with
      | arrive request => trivial
      | resume index input => exact fun handler found => kept.fresh (List.mem_of_getElem? found)
    refine Holds.step ?_ ?_ ?_ config event kept.holds fresh
    · intro s request _
      cases request <;> exact relies_of_untracked rfl
    · intro input s handler fresh sound relies
      have acts := act_acts input s handler
      exact ⟨acts_sound acts sound relies fresh,relies_next acts sound relies⟩
    · intro input s handler other _ _ _ relied
      exact (relied.later (later_grows s input.elapsed)).later (acts_grows (act_acts input s handler))
  · cases event with
    | arrive request =>
      rw [owed_arrive]
      have free : (machine.enter request).code = 0 := by
        cases request <;> exact code_of_untracked rfl
      rw [free,add_zero]
      exact kept.codes
    | resume index input =>
      cases found : config.inflight[index]? with
      | none => simpa only [Machine.step,found] using kept.codes
      | some handler =>
        obtain ⟨extra,taken,bounded⟩ := acts_codes (act_acts input config.shared handler)
        have whole := account_resume machine Handler.code grantedCodes config index input handler (extra : Multiset Token)
          found bounded
        have shared : (machine.step config (.resume index input)).shared = (act input config.shared handler).1 := by
          simp only [Machine.step,found]
          rfl
        rw [shared] at whole ⊢
        rw [taken,← Multiset.coe_add]
        exact whole.trans (add_le_add_left kept.codes _)

/-- In every run a code has one grant at most, a grant is for what its code was issued for, and who is allowed has
been found entitled in the course of the verification. -/
theorem shown_to_the_entitled (world : World) (clock : Sessions.Nanoseconds) (drawn : Nat)
    (events : List (Event Request Input)) :
    Throughout machine.step (fun config => Entitling config.shared) (idle world clock drawn) events := by
  have start : Kept (idle world clock drawn) := by
    refine ⟨⟨⟨⟨List.nodup_nil,?_,?_,?_⟩,?_,?_,?_,List.nodup_nil⟩,?_⟩,Multiset.zero_le _⟩ <;>
    · intro _ member
      cases member
  have kept : ∀ config event, Kept config → True → Kept (machine.step config event) :=
    fun config event kept _ => kept.step event
  exact throughout_of_invariant kept (fun config kept => kept.holds.state.toEntitling) _ events start (along_true _ events)

def previewed : World where
  db := {
    projects := ⟨[{ id := 1, teamId := 2, slug := "site" }],by decide,by decide⟩
    deployments := ⟨[{
      id := 3, projectId := 1, teamId := 2, region := "eu", serveNodeId := none, environment := .preview
      runtimeKind := .static, buildStatus := .ready, serveStatus := .ready, serveCpuMillicores := 0, serveMemoryMb := 0
      serveDiskMb := 0, overcommitted := false, previewHost := some "site.example.org", createdAt := 0 }],
      by decide,by decide⟩ }
  users := [⟨4,['m','@','b','.','c'],.active,1,.user,some 0,none,none⟩]
  members := ⟨[⟨5,2,4,.member,none,0,none⟩],by decide,by decide⟩
  idleTtl := 3600
  sessionTtl := 86400
  cookieSecure := true

def withdrawn : World := { previewed with db := { previewed.db with deployments := ∅ } }

def actions (index count : Nat) : List (Event Request Input) := List.replicate count (.resume index { elapsed := 1 })

def visit : List (Event Request Input) :=
  .arrive (.login 4 1) :: actions 0 1 ++ .arrive (.startAuthorization "site.example.org" "/") :: actions 0 4 ++
    .arrive (.authorize 10 11) :: actions 0 11 ++ .arrive (.exchange "site.example.org" 12) :: actions 0 11

def withdrawnMeanwhile : List (Event Request Input) :=
  visit ++ .arrive (.verify "site.example.org" 13) :: actions 0 5 ++ .arrive (.changeWorld withdrawn) :: actions 1 1 ++
    actions 0 6

def screenshot : List (Event Request Input) :=
  .arrive (.issueScreenshotGrant "site.example.org") :: actions 0 4 ++ .arrive (.verify "site.example.org" 10) :: actions 0 4

/-- A request is allowed when its preview is not the current one any more, and another one without any session. -/
theorem allowed_but_not_entitled_now :
    ¬Along machine.step (Acting AllowsNow) (idle previewed 0 10) withdrawnMeanwhile ∧
      ¬Along machine.step (Acting AllowsNow) (idle previewed 0 10) screenshot := by
  decide +kernel

end GrassWorker.PreviewAccess
