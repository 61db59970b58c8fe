import GrassWorker.Cache.Sessions
import GrassWorker.Domain.Authentication
import GrassWorker.Domain.EffectivePreview
import GrassWorker.Domain.Teams
import GrassWorker.Foundations.Expiring
import GrassWorker.Validator

/-! Access to protected previews: the records behind its tokens, and what a preview and its visitors are checked for. -/
namespace GrassWorker.PreviewAccess
open CacheBackend (Seconds)
open Sessions (Nanoseconds SessionData wholeSeconds unixTimestamp)

/-- A random token. It has not been drawn before, and it stands for its hash. -/
abbrev Token := Nat

def authorizationStateTtl : Seconds := 300
def callbackCodeTtl : Seconds := 60
def previewGrantTtl : Seconds := 43200
def screenshotGrantTtl : Seconds := 120

structure PreviewBinding where
  deploymentId : Uuid
  projectId : Uuid
  teamId : Uuid
  host : String
deriving DecidableEq

structure AuthorizationStateRecord where
  binding : PreviewBinding
  returnTo : String
  expiresAt : Seconds
deriving DecidableEq

structure CallbackCodeRecord where
  binding : PreviewBinding
  returnTo : String
  sessionId : Token
  userId : Uuid
  expiresAt : Seconds
  cookieSecure : Bool
deriving DecidableEq

structure PreviewGrantRecord where
  binding : PreviewBinding
  sessionId : Token
  userId : Uuid
  expiresAt : Seconds
deriving DecidableEq

structure ScreenshotGrantRecord where
  binding : PreviewBinding
  expiresAt : Seconds
deriving DecidableEq

structure World where
  db : Database
  users : List Authentication.User
  members : Teams.Members
  idleTtl : Seconds
  sessionTtl : Seconds
  cookieSecure : Bool

def expiresAfter (ttl : Seconds) (now : Nanoseconds) : Seconds := unixTimestamp now + ttl

def isExpired (expiresAt : Seconds) (now : Nanoseconds) : Bool := expiresAt ≤ unixTimestamp now

/-- The first read of `resolve_preview_binding`. -/
def readyDeployment (world : World) (host : String) : Option Deployment :=
  (Deployments.findByPreviewHost world.db host).filter fun deployment =>
    deployment.buildStatus = .ready ∧ deployment.serveStatus = .ready

def effectiveIs (world : World) (deployment : Deployment) : Bool :=
  (Delivery.effectivePreview world.db deployment.projectId deployment.environment).map Deployment.id = some deployment.id

def previewAccessAllowed (isActiveUser isTeamMember isPlatformAdmin : Bool) : Bool :=
  isActiveUser && (isTeamMember || isPlatformAdmin)

/-- The last read of `user_can_access_preview`, for a user who was active. -/
def userMayAccess (world : World) (teamId : Uuid) (user : Authentication.User) : Bool :=
  previewAccessAllowed true (Teams.activeMember world.members teamId user.id).isSome (user.platformRole = .admin)

/-- `validate_session` once it has the session: whether it goes on, and the seconds that remain. -/
def remainingSeconds (idleTtl sessionTtl : Seconds) (data : SessionData) (now : Nanoseconds) : Option Seconds :=
  if idleTtl < wholeSeconds (now - data.lastAccessedAt) then none
  else
    let remaining := sessionTtl - wholeSeconds (now - data.createdAt)
    if remaining ≤ 0 then none else some remaining

/-- `validate_current_session`: the account is active and has the version of the session. -/
def accountCurrent (user : Authentication.User) (data : SessionData) : Bool :=
  user.deletedAt = none ∧ user.status = .active ∧ 0 < data.authVersion ∧ user.authVersion = data.authVersion

def maxAgeSeconds (sessionTtl : Seconds) (session : SessionData) (now : Nanoseconds) : Seconds :=
  min previewGrantTtl (max (unixTimestamp session.createdAt + sessionTtl - unixTimestamp now) 0)

theorem remainingSeconds_some {idleTtl sessionTtl remaining : Seconds} {data : SessionData} {now : Nanoseconds}
    (goes : remainingSeconds idleTtl sessionTtl data now = some remaining) :
    wholeSeconds (now - data.lastAccessedAt) ≤ idleTtl ∧ now < data.createdAt + sessionTtl * Sessions.nanosecondsPerSecond := by
  unfold remainingSeconds at goes
  split at goes
  · cases goes
  · rename_i lively
    simp only at goes
    split at goes
    · cases goes
    · rename_i left
      refine ⟨Int.not_lt.mp lively,?_⟩
      have short : wholeSeconds (now - data.createdAt) < sessionTtl := by
        have left : 0 < sessionTtl - wholeSeconds (now - data.createdAt) := Int.not_le.mp left
        exact Int.lt_of_sub_pos left
      by_contra late
      have late : data.createdAt + sessionTtl * Sessions.nanosecondsPerSecond ≤ now := Int.not_lt.mp late
      have whole : wholeSeconds (sessionTtl * Sessions.nanosecondsPerSecond) = sessionTtl :=
        Int.mul_tdiv_cancel sessionTtl (by decide)
      have more := Sessions.wholeSeconds_mono (Int.le_sub_left_of_add_le late)
      rw [whole] at more
      exact absurd short (Int.not_lt.mpr more)

end GrassWorker.PreviewAccess
