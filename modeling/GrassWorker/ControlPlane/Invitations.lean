import GrassWorker.Domain.Teams
import GrassWorker.Foundations.Mutexes

/-! Invitations are created, renewed and accepted, and members changed, each in a transaction of its own. A
statement sees what has been committed; a row that is locked makes those who want it wait. -/
namespace GrassWorker.Teams
open Authentication Interleaving

inductive Lock
  | invitation (id : Uuid)
  | member (id : Uuid)
deriving DecidableEq

/-- What has been committed: a token that was overwritten, or an invitation that was accepted with one. -/
inductive Happening
  | replaced (token : Token)
  | accepted (token : Token) (invitationId : Uuid)
deriving DecidableEq

structure Shared where
  users : List User
  members : Members
  invitations : Invitations
  locks : Multiset Lock := 0
  drawn : Nat
  log : List Happening := []

/-- What there was when the membership of an invited user was checked: how much had happened, and the
invitation there was for his email. -/
structure Look where
  happened : Nat
  row : Option TeamInvitation
deriving DecidableEq

inductive Request
  | createInvitation (params : CreateInvitationParams)
  | acceptInvitation (token : Token) (userId : Uuid)
  | updateMemberRole (teamId userId : Uuid) (role : TeamMemberRole)
  | removeMember (teamId userId : Uuid)
  /-- Users come, go and change by other requests. -/
  | changeUsers (users : List User)

inductive Handler
  | findInvited (params : CreateInvitationParams)
  | checkMembership (params : CreateInvitationParams) (invited : Option Uuid)
  | findInvitation (params : CreateInvitationParams) (look : Look)
  | writeInvitation (params : CreateInvitationParams) (look : Look) (existing : Option TeamInvitation) (now : Timestamp)
  | lockInvitation (token : Token) (userId : Uuid)
  | readAccepting (invitation : TeamInvitation) (userId : Uuid)
  | checkAccepting (invitation : TeamInvitation) (userId : Uuid)
  | insertMember (invitation : TeamInvitation) (userId : Uuid)
  | lockMember (teamId userId : Uuid) (role : Option TeamMemberRole)
  | changeMember (member : TeamMember) (role : Option TeamMemberRole)
  | changeUsers (users : List User)
deriving DecidableEq

def Handler.guards : Handler → Multiset Lock
  | .readAccepting invitation _ | .checkAccepting invitation _ | .insertMember invitation _ => {.invitation invitation.id}
  | .changeMember member _ => {.member member.id}
  | _ => 0

structure Input where
  now : Timestamp
  fails : Bool := false

def Shared.leave (s : Shared) (handler : Handler) : Shared := { s with locks := s.locks - handler.guards }

def locking (s : Shared) (lock : Lock) (waiting next : Handler) : Shared × Option Handler :=
  if lock ∈ s.locks then (s,some waiting) else ({ s with locks := lock ::ₘ s.locks },some next)

def checking {ε α : Type} (s : Shared) (handler : Handler) (outcome : Except ε α) (next : α → Handler) : Shared × Option Handler :=
  match outcome with
  | .ok value => (s,some (next value))
  | .error _ => (s.leave handler,none)

/-- The columns `update_member_role` or, without a role, `remove_member` writes. -/
def TeamMember.changed (row : TeamMember) (role : Option TeamMemberRole) (now : Timestamp) : TeamMember :=
  match role with
  | some role => { row with role }
  | none => { row with deletedAt := some now }

theorem TeamMember.changed_id (row : TeamMember) (role : Option TeamMemberRole) (now : Timestamp) :
    (row.changed role now).id = row.id := by
  cases role <;> rfl

/-- The last statements of `accept_invitation_with_connection`. -/
def writeAcceptance (s : Shared) (invitation : TeamInvitation) (userId : Uuid) (now : Timestamp) :
    Option (Members × Invitations) := do
  let members ← s.members.insert (invitation.acceptedBy s.drawn userId now)
  let invitations ← s.invitations.update invitation.id
    (fun row => { row with status := .accepted, acceptedAt := some now }) fun _ => rfl
  return (members,invitations)

def advance (input : Input) (s : Shared) (handler : Handler) : Shared × Option Handler :=
  match handler with
  | .findInvited params =>
    match validateManagedMemberRole params.role with
    | .ok _ => checking s handler (invitedUser s.users params) fun invited => .checkMembership params (invited.map User.id)
    | .error _ => (s.leave handler,none)
  | .checkMembership params invited =>
    checking s handler (refuseMember s.members params.teamId invited) fun _ =>
      .findInvitation params ⟨s.log.length,invitationByEmail s.invitations params.teamId params.email⟩
  | .findInvitation params look =>
    (s,some (.writeInvitation params look (invitationByEmail s.invitations params.teamId params.email) input.now))
  | .writeInvitation params _ (some row) now =>
    if .invitation row.id ∈ s.locks then (s,some handler)
    else
      match s.invitations.find row.id,s.invitations.update row.id (·.renewed params s.drawn now) fun _ => rfl with
      | some current,some invitations =>
        ({ s with
          invitations
          drawn := s.drawn + 1
          log := s.log ++ (current.tokenHash.map Happening.replaced).toList },none)
      | _,_ => (s.leave handler,none)
  | .writeInvitation params _ none now =>
    match s.invitations.insert (newInvitation s.drawn params s.drawn now) with
    | some invitations => ({ s with invitations, drawn := s.drawn + 1 },none)
    | none => (s.leave handler,none)
  | .lockInvitation token userId =>
    match invitationByTokenHash s.invitations token with
    | some row => locking s (.invitation row.id) handler (.readAccepting row userId)
    | none => (s.leave handler,none)
  | .readAccepting invitation userId =>
    match getUserById s.users userId with
    | some user =>
      checking s handler (validateInvitationAcceptance invitation.status invitation.expiresAt invitation.email user.email input.now)
        fun _ => .checkAccepting invitation userId
    | none => (s.leave handler,none)
  | .checkAccepting invitation userId =>
    checking s handler (refuseMember s.members invitation.teamId (some userId)) fun _ => .insertMember invitation userId
  | .insertMember invitation userId =>
    match writeAcceptance s invitation userId input.now with
    | some (members,invitations) =>
      ({ s.leave handler with
        members
        invitations
        drawn := s.drawn + 1
        log := s.log ++ (invitation.tokenHash.map fun token => Happening.accepted token invitation.id).toList },none)
    | none => (s.leave handler,none)
  | .lockMember teamId userId role =>
    match activeMember s.members teamId userId with
    | some member => locking s (.member member.id) handler (.changeMember member role)
    | none => (s.leave handler,none)
  | .changeMember member role =>
    match validateMemberChange member.role role,s.members.update member.id (·.changed role input.now)
        (TeamMember.changed_id · role input.now) with
    | .ok _,some members => ({ s.leave handler with members },none)
    | _,_ => (s.leave handler,none)
  | .changeUsers users => ({ s with users },none)

def act (input : Input) (s : Shared) (handler : Handler) : Shared × Option Handler :=
  if input.fails then (s.leave handler,none) else advance input s handler

def enter : Request → Handler
  | .createInvitation params => .findInvited params
  | .acceptInvitation token userId => .lockInvitation token userId
  | .updateMemberRole teamId userId role => .lockMember teamId userId (some role)
  | .removeMember teamId userId => .lockMember teamId userId none
  | .changeUsers users => .changeUsers users

def machine : Machine Shared Handler Request Input := ⟨enter,act⟩

def idle (users : List User) (members : Members) (drawn : Nat) : Config Shared Handler :=
  ⟨{ users, members, invitations := ∅, drawn },[]⟩

inductive Acts (input : Input) (s : Shared) : Handler → Shared → Option Handler → Prop
  | ends (handler : Handler) : Acts input s handler (s.leave handler) none
  | waits (handler : Handler) : Acts input s handler s (some handler)
  | invites (params : CreateInvitationParams) (invited : Option Uuid) (managed : params.role ≠ .owner) :
      Acts input s (.findInvited params) s (some (.checkMembership params invited))
  | looks (params : CreateInvitationParams) (invited : Option Uuid) : Acts input s (.checkMembership params invited) s
      (some (.findInvitation params ⟨s.log.length,invitationByEmail s.invitations params.teamId params.email⟩))
  | reads (params : CreateInvitationParams) (look : Look) : Acts input s (.findInvitation params look) s
      (some (.writeInvitation params look (invitationByEmail s.invitations params.teamId params.email) input.now))
  | renewed (params : CreateInvitationParams) (look : Look) (row current : TeamInvitation) (now : Timestamp)
      (invitations : Invitations) (free : .invitation row.id ∉ s.locks) (found : s.invitations.find row.id = some current)
      (updated : s.invitations.update row.id (·.renewed params s.drawn now) (fun _ => rfl) = some invitations) :
      Acts input s (.writeInvitation params look (some row) now) { s with
        invitations, drawn := s.drawn + 1, log := s.log ++ (current.tokenHash.map Happening.replaced).toList } none
  | created (params : CreateInvitationParams) (look : Look) (now : Timestamp) (invitations : Invitations)
      (inserted : s.invitations.insert (newInvitation s.drawn params s.drawn now) = some invitations) :
      Acts input s (.writeInvitation params look none now) { s with invitations, drawn := s.drawn + 1 } none
  | locked (token : Token) (userId : Uuid) (row : TeamInvitation)
      (found : invitationByTokenHash s.invitations token = some row) (free : .invitation row.id ∉ s.locks) :
      Acts input s (.lockInvitation token userId) { s with locks := .invitation row.id ::ₘ s.locks }
        (some (.readAccepting row userId))
  | validated (invitation : TeamInvitation) (userId : Uuid) (pending : invitation.status = .pending) :
      Acts input s (.readAccepting invitation userId) s (some (.checkAccepting invitation userId))
  | stranger (invitation : TeamInvitation) (userId : Uuid) :
      Acts input s (.checkAccepting invitation userId) s (some (.insertMember invitation userId))
  | accepted (invitation : TeamInvitation) (userId : Uuid) (members : Members) (invitations : Invitations)
      (inserted : s.members.insert (invitation.acceptedBy s.drawn userId input.now) = some members)
      (updated : s.invitations.update invitation.id
        (fun row => { row with status := .accepted, acceptedAt := some input.now }) (fun _ => rfl) = some invitations) :
      Acts input s (.insertMember invitation userId) { s.leave (.insertMember invitation userId) with
        members, invitations, drawn := s.drawn + 1
        log := s.log ++ (invitation.tokenHash.map fun token => Happening.accepted token invitation.id).toList } none
  | lockedMember (teamId userId : Uuid) (role : Option TeamMemberRole) (member : TeamMember)
      (found : activeMember s.members teamId userId = some member) (free : .member member.id ∉ s.locks) :
      Acts input s (.lockMember teamId userId role) { s with locks := .member member.id ::ₘ s.locks }
        (some (.changeMember member role))
  | changed (member : TeamMember) (role : Option TeamMemberRole) (members : Members) (kept : member.role ≠ .owner)
      (managed : role ≠ some .owner)
      (updated : s.members.update member.id (·.changed role input.now) (TeamMember.changed_id · role input.now) = some members) :
      Acts input s (.changeMember member role) { s.leave (.changeMember member role) with members } none
  | users (users : List User) : Acts input s (.changeUsers users) { s with users } none

section Acts
variable (input : Input) (s : Shared)

theorem checking_acts {ε α : Type} (handler : Handler) (outcome : Except ε α) (next : α → Handler)
    (goes : ∀ value, outcome = .ok value → Acts input s handler s (some (next value))) :
    Acts input s handler (checking s handler outcome next).1 (checking s handler outcome next).2 := by
  cases outcome with
  | ok value => exact goes value rfl
  | error _ => exact .ends handler

theorem locking_acts (lock : Lock) (handler next : Handler)
    (goes : lock ∉ s.locks → Acts input s handler { s with locks := lock ::ₘ s.locks } (some next)) :
    Acts input s handler (locking s lock handler next).1 (locking s lock handler next).2 := by
  unfold locking
  split
  · exact .waits handler
  · rename_i free
    exact goes free

theorem advance_acts (handler : Handler) : Acts input s handler (advance input s handler).1 (advance input s handler).2 := by
  cases handler with
  | findInvited params =>
    simp only [advance]
    split
    · rename_i passed
      exact checking_acts input s _ _ _ fun invited _ => .invites params _ (Checks.refuse_eq_ok.mp passed)
    · exact .ends _
  | checkMembership params invited => exact checking_acts input s _ _ _ fun _ _ => .looks params invited
  | findInvitation params look => exact .reads params look
  | writeInvitation params look existing now =>
    cases existing with
    | some row =>
      simp only [advance]
      split
      · exact .waits _
      · rename_i free
        split
        · rename_i current invitations found updated
          exact .renewed params look row current now invitations free found updated
        · exact .ends _
    | none =>
      simp only [advance]
      split
      · rename_i invitations inserted
        exact .created params look now invitations inserted
      · exact .ends _
  | lockInvitation token userId =>
    simp only [advance]
    split
    · rename_i row found
      exact locking_acts input s _ _ _ fun free => .locked token userId row found free
    · exact .ends _
  | readAccepting invitation userId =>
    simp only [advance]
    split
    · exact checking_acts input s _ _ _ fun _ valid =>
        .validated invitation userId (validateInvitationAcceptance_ok.mp valid).1
    · exact .ends _
  | checkAccepting invitation userId => exact checking_acts input s _ _ _ fun _ _ => .stranger invitation userId
  | insertMember invitation userId =>
    simp only [advance]
    split
    · rename_i members invitations written
      obtain ⟨_,inserted,written⟩ := Option.bind_eq_some_iff.mp written
      obtain ⟨_,updated,written⟩ := Option.bind_eq_some_iff.mp written
      cases written
      exact .accepted invitation userId members invitations inserted updated
    · exact .ends _
  | lockMember teamId userId role =>
    simp only [advance]
    split
    · rename_i member found
      exact locking_acts input s _ _ _ fun free => .lockedMember teamId userId role member found free
    · exact .ends _
  | changeMember member role =>
    simp only [advance]
    split
    · rename_i members passed updated
      obtain ⟨kept,managed⟩ := validateMemberChange_ok.mp passed
      exact .changed member role members kept managed updated
    · exact .ends _
  | changeUsers users => exact .users users

theorem act_acts (handler : Handler) : Acts input s handler (act input s handler).1 (act input s handler).2 := by
  unfold act
  split
  · exact .ends handler
  · exact advance_acts input s handler

end Acts

end GrassWorker.Teams
