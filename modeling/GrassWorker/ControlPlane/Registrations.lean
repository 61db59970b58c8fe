import GrassWorker.ControlPlane.Logins
import GrassWorker.Domain.Codes
import GrassWorker.Foundations.Mutexes

/-! Registrations by form and through an identity provider, with the codes and the list of emails that admit
users. Each statement of a transaction is an action of its own, and its writes come with the commit. -/
namespace GrassWorker.Registrations
open Authentication Checks Codes Interleaving Teams Validator
open Logins (ExternalIdentity UserExternalIdentity Users newUser)

structure AllowlistEntry where
  id : Uuid
  email : Text
  createdByUserId : Option Uuid
  createdAt : Timestamp
deriving DecidableEq

abbrev Allowlist := Table AllowlistEntry AllowlistEntry.id fun entry => [entry.email]

abbrev Identities := Table UserExternalIdentity (fun identity => (identity.providerId,identity.subject)) fun identity =>
  [(identity.userId,identity.providerId)]

inductive RegistrationAccessError
  | invalidPolicy | closed | credentialRequired
  | code (error : CodeUseError)
deriving DecidableEq, Repr

def RegistrationAccessError.message : RegistrationAccessError → String
  | .invalidPolicy => "signup policy setting is invalid"
  | .closed => "user registration is closed"
  | .credentialRequired => "a registration code or allowed email is required"
  | .code error => error.message

def parsePolicy (value : Option String) : Except RegistrationAccessError SignupPolicy :=
  if value.getD "open" = "open" then .ok .open
  else if value.getD "open" = "invite_only" then .ok .inviteOnly
  else if value.getD "open" = "closed" then .ok .closed
  else .error .invalidPolicy

inductive RegistrationGrant
  | open
  | code (code : Code)
  | email (entry : AllowlistEntry)
deriving DecidableEq

inductive Credential
  | code (id : Uuid)
  | email (id : Uuid)
deriving DecidableEq

def RegistrationGrant.credential : RegistrationGrant → Option Credential
  | .open => none
  | .code row => some (.code row.id)
  | .email entry => some (.email entry.id)

structure Withdrawn where
  codes : List Uuid
  entries : List Uuid
deriving DecidableEq

/-- A grant as it was authorised: under which policy, when, and what had been taken back by then. -/
structure Authorization where
  grant : RegistrationGrant
  policy : SignupPolicy
  began : Withdrawn
  checkedAt : Timestamp
deriving DecidableEq

structure Admission where
  userId : Uuid
  authorization : Authorization
deriving DecidableEq

def Admission.credential (admission : Admission) : Option Credential := admission.authorization.grant.credential

inductive Lock
  | code (id : Uuid)
  | entry (id : Uuid)
deriving DecidableEq

structure Shared where
  users : Users
  identities : Identities
  codes : CodeRows := ∅
  allowlist : Allowlist := ∅
  locks : Multiset Lock := 0
  drawn : Nat
  admissions : List Admission := []
  allowed : List Uuid := []
  removed : List Uuid := []

def Shared.withdrawn (s : Shared) : Withdrawn where
  codes := (s.codes.rows.filter fun code => code.revokedAt.isSome).map Code.id
  entries := s.removed

def Shared.consumed (s : Shared) : List Credential := s.admissions.filterMap Admission.credential

/-- A registration: by form without an identity, or for the identity a provider has confirmed. -/
structure Registering where
  email : Text
  registrationCode : Option Text
  identity : Option ExternalIdentity
deriving DecidableEq

inductive Request
  | register (email : Text) (registrationCode : Option Text)
  | callback (identity : ExternalIdentity) (registrationCode : Option Text)
  | generate (request : GenerateCodesRequest) (userId : Uuid)
  | revoke (codeId : Uuid)
  | addEmail (email : Text) (userId : Uuid)
  | removeEmail (entryId : Uuid)

inductive Handler
  | validateInput (email : Text) (registrationCode : Option Text)
  | findIdentity (identity : ExternalIdentity) (registrationCode : Option Text)
  | findOwner (registering : Registering)
  | linkOwner (registering : Registering) (user : User)
  | readPolicy (registering : Registering)
  | authorize (registering : Registering) (policy : SignupPolicy)
  | checkCode (registering : Registering) (code : Code) (began : Withdrawn)
  | findEmail (registering : Registering) (authorization : Authorization)
  | createUser (registering : Registering) (authorization : Authorization)
  | consume (registering : Registering) (authorization : Authorization) (user : User)
  | commit (registering : Registering) (authorization : Authorization) (user : User) (usedAt : Timestamp)
  | generate (request : GenerateCodesRequest) (userId : Uuid)
  | lockRevoked (codeId : Uuid)
  | checkRevoked (code : Code)
  | writeRevoked (code : Code)
  | addEmail (email : Text) (userId : Uuid)
  | findEntry (entryId : Uuid)
  | deleteEntry (entry : AllowlistEntry)
deriving DecidableEq

def RegistrationGrant.guards : RegistrationGrant → Multiset Lock
  | .open => 0
  | .code row => {.code row.id}
  | .email entry => {.entry entry.id}

def Handler.guards : Handler → Multiset Lock
  | .checkCode _ code _ | .checkRevoked code | .writeRevoked code => {.code code.id}
  | .findEmail _ authorization | .createUser _ authorization | .consume _ authorization _ | .commit _ authorization _ _ =>
    authorization.grant.guards
  | _ => 0

/-- What an action meets: the time, whether a call fails, what the settings say, and the values drawn for codes. -/
structure Input where
  now : Timestamp
  fails : Bool := false
  policy : Option String := none
  verificationRequired : Bool := false
  values : List Text := []

def Shared.leave (s : Shared) (handler : Handler) : Shared := { s with locks := s.locks - handler.guards }

def locking (s : Shared) (lock : Lock) (waiting next : Handler) : Shared × Option Handler :=
  if lock ∈ s.locks then (s,some waiting) else ({ s with locks := lock ::ₘ s.locks },some next)

def getUserByEmail (users : Users) (email : Text) : Option User :=
  users.rows.find? fun user => user.email = email ∧ user.deletedAt = none

def codeByToken (codes : CodeRows) (tokenHash : Text) : Option Code :=
  codes.rows.find? fun code => code.tokenHash = tokenHash

def entryByEmail (allowlist : Allowlist) (email : Text) : Option AllowlistEntry :=
  allowlist.rows.find? fun entry => entry.email = email

/-- The transaction goes on with its grant. Only the form looks for the email again. -/
def authorized (registering : Registering) (authorization : Authorization) : Handler :=
  match registering.identity with
  | none => .findEmail registering authorization
  | some _ => .createUser registering authorization

/-- `authorize_registration` up to the row it locks. -/
def authorizeRegistration (hashToken : Text → Text) (input : Input) (s : Shared) (registering : Registering)
    (policy : SignupPolicy) : Shared × Option Handler :=
  match policy with
  | .open => (s,some (authorized registering ⟨.open,.open,s.withdrawn,input.now⟩))
  | .closed => (s,none)
  | .inviteOnly =>
    match (registering.registrationCode.map trim).filter (· ≠ []) with
    | some value =>
      match codeByToken s.codes (hashToken (trim value)) with
      | some code => locking s (.code code.id) (.authorize registering policy) (.checkCode registering code s.withdrawn)
      | none => (s,none)
    | none =>
      match entryByEmail s.allowlist registering.email with
      | some entry =>
        locking s (.entry entry.id) (.authorize registering policy)
          (authorized registering ⟨.email entry,.inviteOnly,s.withdrawn,input.now⟩)
      | none => (s,none)

/-- What `consume_registration_grant` writes. -/
def consumeGrant (s : Shared) (grant : RegistrationGrant) (userId : Uuid) (usedAt : Timestamp) : Option (CodeRows × Allowlist) :=
  match grant with
  | .open => some (s.codes,s.allowlist)
  | .code code => do
    let row ← s.codes.find code.id
    let codes ← s.codes.update row.id (fun row => { row with usedAt := some usedAt, usedByUserId := some userId }) fun _ => rfl
    return (codes,s.allowlist)
  | .email entry => some (s.codes,s.allowlist.deleteWhere fun row => row.id = entry.id)

def linkIdentity (identities : Identities) (registering : Registering) (userId : Uuid) : Option Identities :=
  match registering.identity with
  | none => some identities
  | some identity => identities.insert ⟨userId,identity.providerId,identity.subject,registering.email⟩

def writeRegistration (s : Shared) (registering : Registering) (authorization : Authorization) (user : User)
    (usedAt : Timestamp) : Option Shared := do
  let users ← s.users.insert user
  let written ← consumeGrant s authorization.grant user.id usedAt
  let identities ← linkIdentity s.identities registering user.id
  return { s with
    users
    identities
    codes := written.1
    allowlist := written.2
    admissions := s.admissions ++ [⟨user.id,authorization⟩] }

theorem verified_id (now : Timestamp) (row : User) : ({ row with emailVerifiedAt := some now } : User).id = row.id := rfl

def markVerified (users : Users) (user : User) (now : Timestamp) : Option Users :=
  if user.emailVerifiedAt = none then users.update user.id (fun row => { row with emailVerifiedAt := some now }) (verified_id now)
  else some users

def writeOwner (s : Shared) (registering : Registering) (user : User) (now : Timestamp) : Option (Users × Identities) := do
  let users ← markVerified s.users user now
  let identities ← linkIdentity s.identities registering user.id
  return (users,identities)

def generateCodes (hashToken : Text → Text) (s : Shared) (generation : GenerationInput) (values : List Text) (userId : Uuid)
    (now : Timestamp) : Option CodeRows :=
  s.codes.insertMany ((values.take generation.count).mapIdx fun index value =>
    prepareCode hashToken value (s.drawn + index) generation.scope generation.expiresAt (some userId) now)

def writeRevoked (s : Shared) (code : Code) (now : Timestamp) : Option CodeRows := do
  let row ← s.codes.find code.id
  s.codes.update row.id (fun row => { row with revokedAt := some now }) fun _ => rfl

def advance (hashToken : Text → Text) (input : Input) (s : Shared) (handler : Handler) : Shared × Option Handler :=
  match handler with
  | .validateInput email registrationCode =>
    match normalizeEmail email with
    | .ok email => (s,some (.readPolicy ⟨email,registrationCode,none⟩))
    | .error _ => (s,none)
  | .findIdentity identity registrationCode =>
    if trim identity.subject = [] ∨ (s.identities.find (identity.providerId,identity.subject)).isSome ∨
        identity.emailVerified = false then (s,none)
    else
      match normalizeEmail (identity.email.getD []) with
      | .ok email => (s,some (.findOwner ⟨email,registrationCode,some identity⟩))
      | .error _ => (s,none)
  | .findOwner registering =>
    match getUserByEmail s.users registering.email with
    | some user => (s,some (.linkOwner registering user))
    | none => (s,some (.readPolicy registering))
  | .linkOwner registering user =>
    match writeOwner s registering user input.now with
    | some (users,identities) => ({ s with users, identities },none)
    | none => (s,none)
  | .readPolicy registering =>
    match parsePolicy input.policy with
    | .ok policy => (s,some (.authorize registering policy))
    | .error _ => (s,none)
  | .authorize registering policy => authorizeRegistration hashToken input s registering policy
  | .checkCode registering code began =>
    match validateRedemption code .registration input.now with
    | .ok _ => (s,some (authorized registering ⟨.code code,.inviteOnly,began,input.now⟩))
    | .error _ => (s.leave handler,none)
  | .findEmail registering authorization =>
    match getUserByEmail s.users registering.email with
    | some _ => (s.leave handler,none)
    | none => (s,some (.createUser registering authorization))
  | .createUser registering authorization =>
    let verified := registering.identity.isSome || !input.verificationRequired
    ({ s with drawn := s.drawn + 1 },
      some (.consume registering authorization (newUser input.now s.drawn registering.email verified)))
  | .consume registering authorization user => (s,some (.commit registering authorization user input.now))
  | .commit registering authorization user usedAt =>
    match writeRegistration s registering authorization user usedAt with
    | some after => (after.leave handler,none)
    | none => (s.leave handler,none)
  | .generate request userId =>
    match validateGeneration request input.now with
    | .ok generation =>
      match generateCodes hashToken s generation input.values userId input.now with
      | some codes => ({ s with codes, drawn := s.drawn + generation.count },none)
      | none => (s,none)
    | .error _ => (s,none)
  | .lockRevoked codeId =>
    match s.codes.find codeId with
    | some code => locking s (.code code.id) handler (.checkRevoked code)
    | none => (s,none)
  | .checkRevoked code =>
    match (CodeScope.parse code.scope).elim (.error .wrongScope) fun scope => validateRedemption code scope input.now with
    | .ok _ => (s,some (.writeRevoked code))
    | .error _ => (s.leave handler,none)
  | .writeRevoked code =>
    match writeRevoked s code input.now with
    | some codes => ({ s.leave handler with codes },none)
    | none => (s.leave handler,none)
  | .addEmail email userId =>
    match normalizeEmail email with
    | .ok email =>
      match s.allowlist.insert ⟨s.drawn,email,some userId,input.now⟩ with
      | some allowlist => ({ s with allowlist, drawn := s.drawn + 1, allowed := s.allowed ++ [s.drawn] },none)
      | none => (s,none)
    | .error _ => (s,none)
  | .findEntry entryId =>
    match s.allowlist.find entryId with
    | some entry => (s,some (.deleteEntry entry))
    | none => (s,none)
  | .deleteEntry entry =>
    -- a delete waits for the row that is locked, and then there may be no row
    if .entry entry.id ∈ s.locks then (s,some handler)
    else
      ({ s with
        allowlist := s.allowlist.deleteWhere fun row => row.id = entry.id
        removed := s.removed ++ if (s.allowlist.find entry.id).isSome then [entry.id] else [] },none)

def act (hashToken : Text → Text) (input : Input) (s : Shared) (handler : Handler) : Shared × Option Handler :=
  if input.fails then (s.leave handler,none) else advance hashToken input s handler

def enter : Request → Handler
  | .register email registrationCode => .validateInput email registrationCode
  | .callback identity registrationCode => .findIdentity identity registrationCode
  | .generate request userId => .generate request userId
  | .revoke codeId => .lockRevoked codeId
  | .addEmail email userId => .addEmail email userId
  | .removeEmail entryId => .findEntry entryId

def machine (hashToken : Text → Text) : Machine Shared Handler Request Input := ⟨enter,act hashToken⟩

def idle (users : Users) (identities : Identities) (drawn : Nat) : Config Shared Handler := ⟨{ users, identities, drawn },[]⟩

inductive Carries : Handler → Authorization → Prop
  | findEmail (registering : Registering) (authorization : Authorization) :
      Carries (.findEmail registering authorization) authorization
  | createUser (registering : Registering) (authorization : Authorization) :
      Carries (.createUser registering authorization) authorization
  | consume (registering : Registering) (authorization : Authorization) (user : User) :
      Carries (.consume registering authorization user) authorization
  | commit (registering : Registering) (authorization : Authorization) (user : User) (usedAt : Timestamp) :
      Carries (.commit registering authorization user usedAt) authorization

inductive Plain : Handler → Prop
  | findOwner (registering : Registering) : Plain (.findOwner registering)
  | linkOwner (registering : Registering) (user : User) : Plain (.linkOwner registering user)
  | readPolicy (registering : Registering) : Plain (.readPolicy registering)
  | authorize (registering : Registering) (policy : SignupPolicy) : Plain (.authorize registering policy)
  | deleteEntry (entry : AllowlistEntry) : Plain (.deleteEntry entry)

theorem carries_authorized (registering : Registering) (authorization : Authorization) :
    Carries (authorized registering authorization) authorization := by
  unfold authorized
  split
  · exact .findEmail registering authorization
  · exact .createUser registering authorization

theorem Carries.guards {handler : Handler} {authorization : Authorization} (carries : Carries handler authorization) :
    handler.guards = authorization.grant.guards := by
  cases carries <;> rfl

inductive Acts (input : Input) (s : Shared) : Handler → Shared → Option Handler → Prop
  | waits (handler : Handler) : Acts input s handler s (some handler)
  | ends (handler : Handler) : Acts input s handler (s.leave handler) none
  | plain (handler next : Handler) (free : handler.guards = 0) (plain : Plain next) : Acts input s handler s (some next)
  | opened (registering : Registering) (next : Handler)
      (carries : Carries next ⟨.open,.open,s.withdrawn,input.now⟩) : Acts input s (.authorize registering .open) s (some next)
  | lockedCode (registering : Registering) (code : Code) (free : .code code.id ∉ s.locks)
      (found : s.codes.find code.id = some code) :
      Acts input s (.authorize registering .inviteOnly) { s with locks := .code code.id ::ₘ s.locks }
        (some (.checkCode registering code s.withdrawn))
  | lockedEntry (registering : Registering) (entry : AllowlistEntry) (next : Handler) (free : .entry entry.id ∉ s.locks)
      (found : s.allowlist.find entry.id = some entry)
      (carries : Carries next ⟨.email entry,.inviteOnly,s.withdrawn,input.now⟩) :
      Acts input s (.authorize registering .inviteOnly) { s with locks := .entry entry.id ::ₘ s.locks } (some next)
  | checked (registering : Registering) (code : Code) (began : Withdrawn) (next : Handler)
      (open' : code.status input.now = .available) (carries : Carries next ⟨.code code,.inviteOnly,began,input.now⟩) :
      Acts input s (.checkCode registering code began) s (some next)
  | carried {handler next : Handler} {authorization : Authorization} (carries : Carries handler authorization)
      (goes : Carries next authorization) (drawn : Nat) (later : s.drawn ≤ drawn) :
      Acts input s handler { s with drawn } (some next)
  | committed (registering : Registering) (authorization : Authorization) (user : User) (usedAt : Timestamp) (users : Users)
      (identities : Identities) (written : CodeRows × Allowlist) (inserted : s.users.insert user = some users)
      (consumed : consumeGrant s authorization.grant user.id usedAt = some written) :
      Acts input s (.commit registering authorization user usedAt)
        (Shared.leave { s with
          users
          identities
          codes := written.1
          allowlist := written.2
          admissions := s.admissions ++ [⟨user.id,authorization⟩] } (.commit registering authorization user usedAt)) none
  | linked (registering : Registering) (user : User) (users : Users) (identities : Identities)
      (kept : ∀ id, (s.users.find id).isSome → (users.find id).isSome) :
      Acts input s (.linkOwner registering user) { s with users, identities } none
  | generated (request : GenerateCodesRequest) (userId : Uuid) (codes : CodeRows) (fresh : List Code) (count : Nat)
      (rows : codes.rows = s.codes.rows ++ fresh) (unused : ∀ code ∈ fresh, code.usedAt = none) :
      Acts input s (.generate request userId) { s with codes, drawn := s.drawn + count } none
  | lockedRevoked (codeId : Uuid) (code : Code) (free : .code code.id ∉ s.locks) (found : s.codes.find code.id = some code) :
      Acts input s (.lockRevoked codeId) { s with locks := .code code.id ::ₘ s.locks } (some (.checkRevoked code))
  | toRevoke (code : Code) (unused : code.usedAt = none) : Acts input s (.checkRevoked code) s (some (.writeRevoked code))
  | revoked (code : Code) (codes : CodeRows)
      (updated : s.codes.update code.id (fun row => { row with revokedAt := some input.now }) (fun _ => rfl) = some codes) :
      Acts input s (.writeRevoked code) { s.leave (.writeRevoked code) with codes } none
  | added (raw : Text) (userId : Uuid) (entry : AllowlistEntry) (allowlist : Allowlist) (fresh : entry.id = s.drawn)
      (inserted : s.allowlist.insert entry = some allowlist) :
      Acts input s (.addEmail raw userId)
        { s with allowlist, drawn := s.drawn + 1, allowed := s.allowed ++ [s.drawn] } none
  | removed (entry : AllowlistEntry) (free : .entry entry.id ∉ s.locks) :
      Acts input s (.deleteEntry entry) { s with
        allowlist := s.allowlist.deleteWhere fun row => row.id = entry.id
        removed := s.removed ++ if (s.allowlist.find entry.id).isSome then [entry.id] else [] } none

section Acts
attribute [local simp] advance

variable (hashToken : Text → Text) (input : Input) (s : Shared)

theorem leave_free {s : Shared} {handler : Handler} (free : handler.guards = 0) : s.leave handler = s := by
  unfold Shared.leave
  rw [free,tsub_zero]

theorem acts_ends {handler : Handler} (free : handler.guards = 0) : Acts input s handler s none := by
  have ends : Acts input s handler (s.leave handler) none := .ends handler
  rwa [leave_free free] at ends

theorem codeByToken_some {codes : CodeRows} {tokenHash : Text} {code : Code} (found : codeByToken codes tokenHash = some code) :
    codes.find code.id = some code := Table.find_of_mem (List.mem_of_find?_eq_some found)

theorem authorize_acts (registering : Registering) (policy : SignupPolicy) :
    Acts input s (.authorize registering policy) (authorizeRegistration hashToken input s registering policy).1
      (authorizeRegistration hashToken input s registering policy).2 := by
  cases policy with
  | «open» => exact .opened registering _ (carries_authorized registering _)
  | closed => exact acts_ends input s rfl
  | inviteOnly =>
    simp only [authorizeRegistration]
    split
    · split
      · rename_i code found
        unfold locking
        split
        · exact .waits _
        · rename_i free
          exact .lockedCode registering code free (codeByToken_some found)
      · exact acts_ends input s rfl
    · split
      · rename_i entry found
        unfold locking
        split
        · exact .waits _
        · rename_i free
          exact .lockedEntry registering entry _ free (Table.find_of_mem (List.mem_of_find?_eq_some found))
            (carries_authorized registering _)
      · exact acts_ends input s rfl

theorem commit_acts (registering : Registering) (authorization : Authorization) (user : User) (usedAt : Timestamp) :
    Acts input s (.commit registering authorization user usedAt)
      (advance hashToken input s (.commit registering authorization user usedAt)).1
      (advance hashToken input s (.commit registering authorization user usedAt)).2 := by
  simp only [advance]
  split
  · rename_i after written
    unfold writeRegistration at written
    obtain ⟨users,inserted,written⟩ := Option.bind_eq_some_iff.mp written
    obtain ⟨spent,consumed,written⟩ := Option.bind_eq_some_iff.mp written
    obtain ⟨identities,_,written⟩ := Option.bind_eq_some_iff.mp written
    cases written
    exact .committed registering authorization user usedAt users identities spent inserted consumed
  · exact .ends _

theorem find_updated_isSome {users after : Users} {userId : Uuid} {change : User → User} {keeps : ∀ row, (change row).id = row.id}
    (updated : users.update userId change keeps = some after) (id : Uuid) (there : (users.find id).isSome) :
    (after.find id).isSome := by
  rw [Table.find_update updated]
  split
  · rw [Option.isSome_map]
    exact there
  · exact there

theorem linkOwner_acts (registering : Registering) (user : User) :
    Acts input s (.linkOwner registering user) (advance hashToken input s (.linkOwner registering user)).1
      (advance hashToken input s (.linkOwner registering user)).2 := by
  simp only [advance]
  split
  · rename_i users identities written
    unfold writeOwner at written
    obtain ⟨marked,updated,written⟩ := Option.bind_eq_some_iff.mp written
    obtain ⟨_,_,written⟩ := Option.bind_eq_some_iff.mp written
    cases written
    refine .linked registering user _ _ fun id there => ?_
    unfold markVerified at updated
    split at updated
    · exact find_updated_isSome updated id there
    · cases updated
      exact there
  · exact acts_ends input s rfl

theorem generate_acts (request : GenerateCodesRequest) (userId : Uuid) :
    Acts input s (.generate request userId) (advance hashToken input s (.generate request userId)).1
      (advance hashToken input s (.generate request userId)).2 := by
  simp only [advance]
  split
  · split
    · rename_i codes inserted
      unfold generateCodes at inserted
      refine .generated request userId codes _ _ (Table.rows_insertMany inserted) ?_
      intro code member
      obtain ⟨index,inside,rfl⟩ := List.mem_mapIdx.mp member
      rfl
    · exact acts_ends input s rfl
  · exact acts_ends input s rfl

theorem checkRevoked_acts (code : Code) :
    Acts input s (.checkRevoked code) (advance hashToken input s (.checkRevoked code)).1
      (advance hashToken input s (.checkRevoked code)).2 := by
  simp only [advance]
  split
  · rename_i valid
    cases scope : CodeScope.parse code.scope with
    | none =>
      rw [scope] at valid
      cases valid
    | some scope' =>
      rw [scope] at valid
      exact .toRevoke code (status_available (validateRedemption_ok valid)).1
  · exact .ends _

theorem advance_acts (handler : Handler) :
    Acts input s handler (advance hashToken input s handler).1 (advance hashToken input s handler).2 := by
  cases handler with
  | validateInput email registrationCode =>
    simp only [advance]
    split
    · exact .plain _ _ rfl (.readPolicy _)
    · exact acts_ends input s rfl
  | findIdentity identity registrationCode =>
    simp only [advance]
    split
    · exact acts_ends input s rfl
    · split
      · exact .plain _ _ rfl (.findOwner _)
      · exact acts_ends input s rfl
  | findOwner registering =>
    simp only [advance]
    split
    · exact .plain _ _ rfl (.linkOwner _ _)
    · exact .plain _ _ rfl (.readPolicy _)
  | linkOwner registering user => exact linkOwner_acts hashToken input s registering user
  | readPolicy registering =>
    simp only [advance]
    split
    · exact .plain _ _ rfl (.authorize _ _)
    · exact acts_ends input s rfl
  | authorize registering policy => exact authorize_acts hashToken input s registering policy
  | checkCode registering code began =>
    simp only [advance]
    split
    · rename_i valid
      exact .checked registering code began _ (validateRedemption_ok valid) (carries_authorized registering _)
    · exact .ends _
  | findEmail registering authorization =>
    simp only [advance]
    split
    · exact .ends _
    · exact .carried (.findEmail registering authorization) (.createUser registering authorization) s.drawn le_rfl
  | createUser registering authorization =>
    exact .carried (.createUser registering authorization) (.consume registering authorization _) _ (Nat.le_succ _)
  | consume registering authorization user =>
    exact .carried (.consume registering authorization user) (.commit registering authorization user input.now) s.drawn le_rfl
  | commit registering authorization user usedAt => exact commit_acts hashToken input s registering authorization user usedAt
  | generate request userId => exact generate_acts hashToken input s request userId
  | lockRevoked codeId =>
    simp only [advance]
    split
    · rename_i code found
      unfold locking
      split
      · exact .waits _
      · rename_i free
        exact .lockedRevoked codeId code free (Table.find_of_mem (Table.find_mem found))
    · exact acts_ends input s rfl
  | checkRevoked code => exact checkRevoked_acts hashToken input s code
  | writeRevoked code =>
    simp only [advance]
    split
    · rename_i codes written
      unfold Registrations.writeRevoked at written
      obtain ⟨row,found,updated⟩ := Option.bind_eq_some_iff.mp written
      rw [Table.find_key found] at updated
      exact .revoked code codes updated
    · exact .ends _
  | addEmail email userId =>
    simp only [advance]
    split
    · split
      · rename_i allowlist inserted
        exact .added email userId _ allowlist rfl inserted
      · exact acts_ends input s rfl
    · exact acts_ends input s rfl
  | findEntry entryId =>
    simp only [advance]
    split
    · exact .plain _ _ rfl (.deleteEntry _)
    · exact acts_ends input s rfl
  | deleteEntry entry =>
    simp only [advance]
    split
    · exact .waits _
    · rename_i free
      exact .removed entry free

theorem act_acts (handler : Handler) :
    Acts input s handler (act hashToken input s handler).1 (act hashToken input s handler).2 := by
  unfold act
  split
  · exact .ends handler
  · exact advance_acts hashToken input s handler

end Acts

end GrassWorker.Registrations
