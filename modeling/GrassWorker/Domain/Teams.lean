import GrassWorker.Domain.Authentication
import GrassWorker.Validator

/-! Memberships and invitations of teams, and the checks that are made before either is written. -/
namespace GrassWorker.Teams
open Authentication Checks Validator

abbrev Text := List Char

/-- A random token. It has not been drawn before, and it stands for its hash. -/
abbrev Token := Nat

inductive TeamMemberRole
  | owner | admin | member | viewer
deriving DecidableEq, Repr

inductive TeamInvitationStatus
  | pending | accepted | expired | revoked
deriving DecidableEq, Repr

inductive SignupPolicy
  | open | inviteOnly | closed
deriving DecidableEq, Repr

structure TeamMember where
  id : Uuid
  teamId : Uuid
  userId : Uuid
  role : TeamMemberRole
  invitedByUserId : Option Uuid
  joinedAt : Timestamp
  deletedAt : Option Timestamp
deriving DecidableEq

structure TeamInvitation where
  id : Uuid
  teamId : Uuid
  email : Text
  role : TeamMemberRole
  status : TeamInvitationStatus
  invitedByUserId : Option Uuid
  tokenHash : Option Token
  expiresAt : Timestamp
  acceptedAt : Option Timestamp
deriving DecidableEq

structure CreateInvitationParams where
  teamId : Uuid
  email : Text
  role : TeamMemberRole
  invitedByUserId : Uuid
  signupPolicy : SignupPolicy
deriving DecidableEq

inductive InvitationError
  | notFound | notPending | expired | emailMismatch | ownerRole | alreadyMember | userNotFound
deriving DecidableEq, Repr

namespace InvitationError

def message : InvitationError → String
  | notFound => "invitation not found"
  | notPending => "invitation is not pending"
  | expired => "invitation has expired"
  | emailMismatch => "invitation email does not match current user"
  | ownerRole => "owner role can only be assigned through ownership transfer"
  | alreadyMember => "user is already a team member"
  | userNotFound => "user does not exist"

end InvitationError

abbrev Members := Table TeamMember TeamMember.id fun member =>
  if member.deletedAt = none then [(member.teamId,member.userId)] else []

abbrev Invitations := Table TeamInvitation TeamInvitation.id fun invitation =>
  Sum.inl (invitation.teamId,invitation.email) :: (invitation.tokenHash.map Sum.inr).toList

def eqIgnoreAsciiCase (first second : Text) : Bool := first.map toAsciiLowercase = second.map toAsciiLowercase

def validateInvitationAcceptance (status : TeamInvitationStatus) (expiresAt : Timestamp) (invitationEmail userEmail : Text)
    (now : Timestamp) : Except InvitationError Unit := do
  refuse (status ≠ .pending) .notPending
  refuse (expiresAt ≤ now) .expired
  refuse (eqIgnoreAsciiCase invitationEmail userEmail = false) .emailMismatch

def validateManagedMemberRole (role : TeamMemberRole) : Except String Unit :=
  refuse (role = .owner) "owner role can only be assigned through ownership transfer"

def validateMemberChange (currentRole : TeamMemberRole) (requestedRole : Option TeamMemberRole) : Except String Unit := do
  refuse (currentRole = .owner) "team owner cannot be changed through member management"
  match requestedRole with
  | some role => validateManagedMemberRole role
  | none => return ()

section Queries
variable (users : List User) (members : Members) (invitations : Invitations)

def getUserById (userId : Uuid) : Option User := users.find? fun user => user.id = userId ∧ user.deletedAt = none

def getUserByEmail (email : Text) : Option User := users.find? fun user => user.email = email ∧ user.deletedAt = none

def activeMember (teamId userId : Uuid) : Option TeamMember :=
  members.rows.find? fun member => member.teamId = teamId ∧ member.userId = userId ∧ member.deletedAt = none

def invitationByTokenHash (token : Token) : Option TeamInvitation :=
  invitations.rows.find? fun invitation => invitation.tokenHash = some token

def invitationByEmail (teamId : Uuid) (email : Text) : Option TeamInvitation :=
  invitations.rows.find? fun invitation => invitation.teamId = teamId ∧ invitation.email = email

/-- The user an invitation is for, if there is one; without one it takes an open signup. -/
def invitedUser (params : CreateInvitationParams) : Except InvitationError (Option User) :=
  match getUserByEmail users params.email with
  | some user => if user.status = .active then .ok (some user) else .error .userNotFound
  | none => if params.signupPolicy = .open then .ok none else .error .userNotFound

def refuseMember (teamId : Uuid) (userId : Option Uuid) : Except InvitationError Unit :=
  refuse (∃ user ∈ userId, (activeMember members teamId user).isSome) .alreadyMember

end Queries

def day : Int := 86400000000

def TeamInvitation.renewed (row : TeamInvitation) (params : CreateInvitationParams) (token : Token) (now : Timestamp) :
    TeamInvitation :=
  { row with
    role := params.role
    status := .pending
    invitedByUserId := some params.invitedByUserId
    tokenHash := some token
    expiresAt := now + 7 * day
    acceptedAt := none }

def newInvitation (id : Uuid) (params : CreateInvitationParams) (token : Token) (now : Timestamp) : TeamInvitation where
  id := id
  teamId := params.teamId
  email := params.email
  role := params.role
  status := .pending
  invitedByUserId := some params.invitedByUserId
  tokenHash := some token
  expiresAt := now + 7 * day
  acceptedAt := none

def TeamInvitation.acceptedBy (invitation : TeamInvitation) (id userId : Uuid) (now : Timestamp) : TeamMember where
  id := id
  teamId := invitation.teamId
  userId := userId
  role := invitation.role
  invitedByUserId := invitation.invitedByUserId
  joinedAt := now
  deletedAt := none

theorem validateInvitationAcceptance_ok {status : TeamInvitationStatus} {expiresAt now : Timestamp} {email other : Text} :
    validateInvitationAcceptance status expiresAt email other now = .ok () ↔
      status = .pending ∧ now < expiresAt ∧ eqIgnoreAsciiCase email other := by
  unfold validateInvitationAcceptance
  rw [refuse_bind_eq_ok,refuse_bind_eq_ok,refuse_eq_ok]
  simp [not_le]

theorem validateMemberChange_ok {role : TeamMemberRole} {requested : Option TeamMemberRole} :
    validateMemberChange role requested = .ok () ↔ role ≠ .owner ∧ requested ≠ some .owner := by
  unfold validateMemberChange
  rw [refuse_bind_eq_ok]
  cases requested with
  | none => simp [pure,Except.pure]
  | some requested => simp [validateManagedMemberRole,refuse_eq_ok]

theorem invitationByTokenHash_some {invitations : Invitations} {token : Token} {row : TeamInvitation}
    (found : invitationByTokenHash invitations token = some row) : row ∈ invitations.rows ∧ row.tokenHash = some token :=
  ⟨List.mem_of_find?_eq_some found,by simpa using List.find?_some found⟩

end GrassWorker.Teams
