import GrassWorker.Domain.Authentication
import GrassWorker.Foundations.Expiring
import GrassWorker.Foundations.Interleaving
import GrassWorker.Foundations.Transaction
import GrassWorker.Validator

/-! Logging in: passwords, identity providers, registration, second factors and sessions. Each
call of the database or the cache is an action of its own; any number of requests run between one another. -/
namespace GrassWorker.Logins
open Authentication Interleaving Transaction Validator

abbrev Text := List Char

/-- A random token or identifier. It has not been drawn before, and it stands for its hash. -/
abbrev Token := Nat

inductive AuthTokenKind
  | emailVerification | passwordReset
deriving DecidableEq, Repr

structure UserAuthToken where
  token : Token
  userId : Uuid
  kind : AuthTokenKind
  expiresAt : Timestamp
  usedAt : Option Timestamp
deriving DecidableEq

structure UserExternalIdentity where
  userId : Uuid
  providerId : Uuid
  subject : Text
  email : Text
deriving DecidableEq

abbrev Users := Table User User.id fun user => if user.deletedAt = none then [user.email] else []

abbrev Factors := Table UserMfaFactor UserMfaFactor.id fun factor => [(factor.userId,factor.kind)]

structure Accounts where
  users : Users
  credentials : Table PasswordCredential PasswordCredential.id fun credential => [credential.userId]
  factors : Factors
  userPolicies : Table UserMfaPolicyRow UserMfaPolicyRow.userId fun _ => ([] : List Unit)
  authTokens : Table UserAuthToken UserAuthToken.token fun _ => ([] : List Unit)
  identities : Table UserExternalIdentity (fun identity => (identity.providerId,identity.subject)) fun identity =>
    [(identity.userId,identity.providerId)]
  mfaPolicy : Option MfaPolicy := none
  registrationVerification : Bool := false

section Queries
variable (db : Accounts)

def getUserByEmail (email : Text) : Option User := db.users.rows.find? fun user => user.email = email ∧ user.deletedAt = none

def getUserById (userId : Uuid) : Option User := (db.users.find userId).filter fun user => user.deletedAt = none

def credentialOf (userId : Uuid) : Option PasswordCredential :=
  db.credentials.rows.find? fun credential => credential.userId = userId

def mfaPolicy : MfaPolicy := db.mfaPolicy.getD {}

def userMfaPolicy (userId : Uuid) : UserMfaPolicy :=
  ((db.userPolicies.find userId).map userMfaPolicyFromRecord).getD {}

def verifiedMfaFactors (userId : Uuid) : List UserMfaFactor :=
  (db.factors.rows.filter fun factor => factor.userId = userId ∧ factor.verifiedAt.isSome).insertionSort
    fun first second => first.createdAt ≤ second.createdAt

def usableFactors (policy : MfaPolicy) (userId : Uuid) : List UserMfaFactor :=
  (verifiedMfaFactors db userId).filter fun factor => policy.allows factor.kind

def mfaFactor (userId factorId : Uuid) : Option UserMfaFactor :=
  (db.factors.find factorId).filter fun factor => factor.userId = userId

def factorOfKind (userId : Uuid) (kind : MfaFactorKind) : Option UserMfaFactor :=
  db.factors.rows.find? fun factor => factor.userId = userId ∧ factor.kind = kind

def countActiveAdmins : Nat :=
  db.users.rows.countP fun user => user.deletedAt = none ∧ user.status = .active ∧ user.platformRole = .admin

end Queries

inductive ChallengeMode
  | verify | enroll
deriving DecidableEq, Repr

structure LoginChallenge where
  userId : Uuid
  authVersion : Int
  mode : ChallengeMode
  returnTo : Text
deriving DecidableEq

/-- What a password check rests on: how often the password had been set when it read the credential, and
how often the account had been disabled when it read the user. -/
structure Basis where
  passwords : Nat
  disables : Nat
deriving DecidableEq

/-- A challenge, and what was so when it was created: the factors that could be proved and the password
check it rests on. -/
structure Opened where
  challenge : LoginChallenge
  held : List Uuid
  basis : Option Basis
deriving DecidableEq

structure SessionData where
  userId : Uuid
  authVersion : Int
  createdAt : Timestamp
  lastAccessedAt : Timestamp
deriving DecidableEq

structure Session where
  data : SessionData
  basis : Option Basis
deriving DecidableEq

inductive Scope
  | challenge (token : Token)
  | account (userId : Uuid)
deriving DecidableEq

/-- A code under its scope and factor, and the number of the mail it was sent with. -/
structure SentCode where
  code : Text
  mail : Nat
deriving DecidableEq

structure TotpCode where
  factorId : Uuid
  secret : Option Secret
  step : Int
deriving DecidableEq

structure Issuance where
  userId : Uuid
  origin : Option (Token × Opened)
deriving DecidableEq

structure Admission where
  started : Basis
  session : Session
deriving DecidableEq

/-- The database and the cache, and what has happened: correct codes given in challenges, codes used up,
passwords set, accounts disabled, sessions issued and requests let in. -/
structure Shared where
  db : Accounts
  challenges : Expiring Token Opened := []
  codes : Expiring (Scope × Uuid) SentCode := []
  sessions : Expiring Token Session := []
  drawn : Nat
  mails : Nat := 0
  presented : List (Token × Uuid) := []
  usedCodes : List TotpCode := []
  usedMails : List Nat := []
  passwordsSet : List Uuid := []
  disabled : List Uuid := []
  issued : List Issuance := []
  admitted : List Admission := []

def Shared.wait (s : Shared) (now : Timestamp) : Shared :=
  { s with
    challenges := Expiring.wait now s.challenges
    codes := Expiring.wait now s.codes
    sessions := Expiring.wait now s.sessions }

def Shared.basis (s : Shared) (userId : Uuid) : Basis := ⟨s.passwordsSet.count userId,s.disabled.count userId⟩

structure ExternalIdentity where
  providerId : Uuid
  subject : Text
  email : Option Text
  emailVerified : Bool
  returnTo : Option Text
deriving DecidableEq

structure Registration where
  email : Text
  passwordHash : Text
deriving DecidableEq

structure Login where
  user : User
  returnTo : Option Text := none
  basis : Option Basis := none
  origin : Option (Token × Opened) := none
deriving DecidableEq

inductive Purpose
  | totpStart
  | emailSend (factorId : Option Uuid)
  | verify (factorId : Uuid) (code : Text)
deriving DecidableEq

structure Start where
  userId : Uuid
  kind : MfaFactorKind
  scope : Option Scope
deriving DecidableEq

structure Pending where
  token : Token
  opened : Opened
  user : User
deriving DecidableEq

/-- A factor and the code given for it; without a challenge its owner confirms it in his account. -/
structure Verification where
  scope : Scope
  factor : UserMfaFactor
  code : Text
  pending : Option (Pending × MfaPolicy)
deriving DecidableEq

inductive Checked
  | totp (steps : List Int)
  | mail (number : Nat)
deriving DecidableEq

/-- An administrator's change, and the users it is to be made to after the present one. -/
structure UserUpdate where
  actor : Uuid
  status : Option UserStatus
  platformRole : Option PlatformRole
  rest : List Uuid := []
deriving DecidableEq

inductive Request
  | login (email password : Text) (returnTo : Option Text)
  | callback (identity : ExternalIdentity)
  | register (registration : Registration)
  | verifyEmail (token : Token)
  | resendEmail (email : Text)
  | challenge (token : Token) (purpose : Purpose)
  | accountStart (userId : Uuid) (kind : MfaFactorKind)
  | accountConfirm (userId factorId : Uuid) (code : Text)
  | accountDelete (userId factorId : Uuid)
  | resetFactor (userId factorId : Uuid)
  | updateMfaPolicy (userId : Uuid) (policy : UserMfaPolicy)
  | updateSettings (policy : Option MfaPolicy) (registrationVerification : Option Bool)
  | updateUsers (update : UserUpdate) (userId : Uuid)
  | setPassword (userId : Uuid) (passwordHash : Text)
  | validate (session : Token)
  | logout (session : Token)

inductive Handler
  | login (email password : Text) (returnTo : Option Text)
  | readCredential (login : Login) (password : Text)
  | readPolicy (login : Login)
  | readFactors (login : Login) (policy : MfaPolicy)
  | readUserPolicy (login : Login) (policy : MfaPolicy) (factors : List UserMfaFactor)
  | createChallenge (login : Login) (mode : ChallengeMode)
  | updateLastLogin (login : Login)
  | createSession (login : Login)
  | findIdentity (identity : ExternalIdentity)
  | readLinkedUser (identity : ExternalIdentity) (userId : Uuid)
  | linkIdentity (identity : ExternalIdentity) (email : Text)
  | register (registration : Registration)
  | createUser (registration : Registration) (verificationRequired : Bool)
  | resendEmail (email : Text)
  | createAuthToken (userId : Uuid)
  | consumeAuthToken (token : Token)
  | readVerifiedUser (userId : Uuid)
  | markEmailVerified (user : User)
  | loadChallenge (token : Token) (purpose : Purpose)
  | readChallengeUser (token : Token) (opened : Opened) (purpose : Purpose)
  | readAccountUser (start : Start)
  | readStartPolicy (start : Start)
  | findFactor (start : Start)
  | writeFactor (start : Start) (existing : Option UserMfaFactor)
  | readSendFactor (userId factorId : Uuid) (token : Token)
  | sendCode (scope : Scope) (factorId : Uuid)
  | readFactor (pending : Pending) (factorId : Uuid) (code : Text)
  | readVerifyPolicy (pending : Pending) (factor : UserMfaFactor) (code : Text)
  | readOwnFactor (userId factorId : Uuid) (code : Text)
  | checkCode (verification : Verification)
  | deleteCode (verification : Verification) (number : Nat)
  | writeUse (verification : Verification) (checked : Checked)
  | readEnrolled (pending : Pending) (policy : MfaPolicy)
  | readEnrolledPolicy (pending : Pending) (policy : MfaPolicy) (factors : List UserMfaFactor)
  | takeChallenge (pending : Pending)
  | readDeletion (userId factorId : Uuid)
  | deleteFactor (userId factorId : Uuid)
  | setUserPolicy (userId : Uuid) (policy : UserMfaPolicy)
  | writeSettings (policy : Option MfaPolicy) (registrationVerification : Option Bool)
  | readTarget (update : UserUpdate) (userId : Uuid)
  | countAdmins (update : UserUpdate) (target : User)
  | writeUser (update : UserUpdate) (target : User) (counted : Option Nat)
  | setPassword (userId : Uuid) (passwordHash : Text)
  | validate (session : Token)
  | expire (session : Token)
  | refresh (token : Token) (session : Session) (started : Basis) (remaining : Int)
  | readSessionUser (token : Token) (session : Session) (started : Basis)
  | revoke (session : Token)
deriving DecidableEq

/-- What an action gets from outside: the clock, whether its call fails, whether the rate limits let it
pass, whether the signup policy grants a registration, whether mail can be sent, and what is drawn at random. -/
structure Input where
  now : Timestamp
  fails : Bool := false
  admits : Bool := true
  grants : Bool := true
  mailEnabled : Bool := true
  secret : Secret := []
  code : Text := []

/-- The functions of other packages, and the lifetimes of sessions in seconds. -/
structure Library where
  verifyPassword : Text → Text → Bool
  /-- The value of a secret for a step of 30 seconds. -/
  generate : Secret → Int → Text
  sessionTtl : Int
  idleTtl : Int

def microseconds : Int := 1000000

def unixTimestamp (now : Timestamp) : Int := now / microseconds

def stepAt (now : Timestamp) : Int := (unixTimestamp now).tdiv 30

def challengeTtl : Int := 600 * microseconds

def codeTtl : Int := 600 * microseconds

def emailTokenTtl : Int := 86400 * microseconds

def safeReturnTo (value : Option Text) : Text :=
  (value.filter fun value => List.isPrefixOf ['/'] value && !List.isPrefixOf ['/','/'] value && !value.contains '\\' &&
    byteLength value ≤ 4096 && !value.any fun c => isAsciiControl c || (128 ≤ c.toNat && c.toNat < 160)).getD ['/']

/-- The mode `begin` chooses, if there is to be a challenge. -/
def chosenMode (requirements : MfaRequirements) (factors : List UserMfaFactor) : Option ChallengeMode :=
  if factors ≠ [] ∧ requirements.metBy factors then some .verify
  else if requirements.isEnforced then some .enroll
  else if factors ≠ [] then some .verify
  else none

/-- `verify_user_password` once both rows are read. -/
def credentialsAreValid (library : Library) (user : User) (credential : Option PasswordCredential) (password : Text) : Bool :=
  user.status = .active ∧ ∃ found ∈ credential, library.verifyPassword password found.passwordHash

def newUser (now : Timestamp) (id : Uuid) (email : Text) (verified : Bool) : User where
  id := id
  email := email
  status := .active
  authVersion := 1
  platformRole := .user
  emailVerifiedAt := if verified then some now else none
  lastLoginAt := none
  deletedAt := none

/-- Writes the row of a user; it fails if the row is not there or a constraint refuses it. -/
def updateRow (userId : Uuid) (change : User → User) (keeps : ∀ row, (change row).id = row.id) : Transaction Accounts Unit User :=
  write (fun db => do
    let users ← db.users.update userId change keeps
    let row ← users.find userId
    return (row,{ db with users })) ()

def createUserRow (now : Timestamp) (id : Uuid) (email : Text) (passwordHash : Option Text) (verified : Bool) :
    Transaction Accounts Unit User :=
  write (fun db => do
    let users ← db.users.insert (newUser now id email verified)
    let credentials ← match passwordHash with
      | some passwordHash => db.credentials.insert ⟨id,id,passwordHash⟩
      | none => some db.credentials
    return (newUser now id email verified,{ db with users, credentials })) ()

def userForEmail (now : Timestamp) (granted : Bool) (id : Uuid) (email : Text) : Transaction Accounts Unit User := do
  let db ← get
  match getUserByEmail db email with
  | some user =>
    if user.emailVerifiedAt = none then updateRow user.id (fun row => { row with emailVerifiedAt := some now }) fun _ => rfl
    else pure user
  | none => do
    require granted ()
    createUserRow now id email none true

/-- The transaction of `resolve_user` for an identity that has no link. -/
def linkUser (now : Timestamp) (granted : Bool) (id : Uuid) (identity : ExternalIdentity) (email : Text) :
    Transaction Accounts Unit User := do
  let user ← userForEmail now granted id email
  write (fun db => do
    let identities ← db.identities.insert ⟨user.id,identity.providerId,identity.subject,email⟩
    return ((),{ db with identities })) ()
  return user

/-- `create_auth_token`: the earlier tokens are used up. -/
def replaceAuthToken (now : Timestamp) (token : Token) (userId : Uuid) : Transaction Accounts Unit Unit :=
  write (fun db => do
    let used ← db.authTokens.updateWhere
      (fun row => row.userId = userId ∧ row.kind = .emailVerification ∧ row.usedAt = none)
      (fun row => { row with usedAt := some now }) fun _ => rfl
    let authTokens ← used.insert ⟨token,userId,.emailVerification,now + emailTokenTtl,none⟩
    return ((),{ db with authTokens })) ()

def spendAuthToken (now : Timestamp) (token : Token) : Transaction Accounts Unit Uuid := do
  let db ← get
  let row ← orElse ((db.authTokens.find token).filter fun row =>
    row.kind = .emailVerification ∧ row.usedAt = none ∧ now < row.expiresAt) ()
  write (fun db => do
    let authTokens ← db.authTokens.update token (fun row => { row with usedAt := some now }) fun _ => rfl
    return ((),{ db with authTokens })) ()
  return row.userId

/-- `start_mfa_factor`: the secret of the factor that was found, or a new factor. -/
def storeStarted (now : Timestamp) (id : Uuid) (start : Start) (secret : Option Secret) (existing : Option UserMfaFactor) :
    Transaction Accounts Unit UserMfaFactor :=
  write (fun db =>
    match existing with
    | some factor => do
      let factors ← db.factors.update factor.id (fun row => { row with secretEnvelope := secret }) fun _ => rfl
      let row ← factors.find factor.id
      return (row,{ db with factors })
    | none => do
      let row := ⟨id,start.userId,start.kind,secret,none,none,now⟩
      let factors ← db.factors.insert row
      return (row,{ db with factors })) ()

/-- `verify_mfa_factor` for a factor that was read as unverified or is confirmed, `mark_mfa_factor_used` for any other. -/
def useFactor (now : Timestamp) (factorId : Uuid) (verifies : Bool) : Transaction Accounts Unit UserMfaFactor :=
  write (fun db => do
    let factors ← db.factors.update factorId (fun row =>
      { row with verifiedAt := if verifies then some now else row.verifiedAt, lastUsedAt := some now }) fun _ => rfl
    let row ← factors.find factorId
    return (row,{ db with factors })) ()

def storeUserPolicy (userId : Uuid) (policy : UserMfaPolicy) : Transaction Accounts Unit Unit := do
  let db ← get
  let _ ← orElse (getUserById db userId) ()
  require (policy.validate (mfaPolicy db) = .ok ()) ()
  write (fun db => do
    let row := userMfaPolicyRow userId policy
    let userPolicies ← match db.userPolicies.find userId with
      | some _ => db.userPolicies.update userId (fun old => { row with userId := old.userId }) fun _ => rfl
      | none => db.userPolicies.insert row
    return ((),{ db with userPolicies })) ()

def storeSettings (mailEnabled : Bool) (policy : Option MfaPolicy) (registrationVerification : Option Bool) :
    Transaction Accounts Unit Unit := do
  let db ← get
  require (registrationVerification = some true → mailEnabled) ()
  require (∀ next ∈ policy, next.validate mailEnabled = .ok () ∧
    ∀ row ∈ db.userPolicies.rows, (userMfaPolicyFromRecord row).validate next = .ok ()) ()
  set { db with
    mfaPolicy := policy.or db.mfaPolicy
    registrationVerification := registrationVerification.getD db.registrationVerification }

def UserUpdate.demotes (update : UserUpdate) (target : User) : Bool :=
  target.platformRole = .admin ∧ update.platformRole = some .user

def UserUpdate.disables (update : UserUpdate) : Bool := update.status = some .disabled

/-- The columns `update_user` writes. To disable is to revoke as well. -/
def UserUpdate.apply (update : UserUpdate) (row : User) : User :=
  { row with
    status := update.status.getD row.status
    platformRole := update.platformRole.getD row.platformRole
    authVersion := if update.disables then row.authVersion + 1 else row.authVersion }

/-- `set_password`. -/
def storePassword (id userId : Uuid) (passwordHash : Text) : Transaction Accounts Unit Unit := do
  write (fun db => do
    let credentials ← match credentialOf db userId with
      | some credential => db.credentials.update credential.id (fun row => { row with passwordHash }) fun _ => rfl
      | none => db.credentials.insert ⟨id,userId,passwordHash⟩
    return ((),{ db with credentials })) ()
  let _ ← updateRow userId (fun row => { row with authVersion := row.authVersion + 1 }) fun _ => rfl

section Actions
variable (library : Library) (input : Input)

def ran {α : Type} (s : Shared) (transaction : Transaction Accounts Unit α) : Option (α × Accounts) :=
  (transaction s.db).toOption

def reading {α : Type} (s : Shared) (found : Option α) (next : α → Option Handler) : Shared × Option Handler :=
  (s,found.bind next)

def writing {α : Type} (s : Shared) (transaction : Transaction Accounts Unit α) (next : α → Option Handler) :
    Shared × Option Handler :=
  match ran s transaction with
  | some (value,db) => ({ s with db, drawn := s.drawn + 1 },next value)
  | none => (s,none)

/-- The steps whose value the code is, among the current one and its neighbours. -/
def matchingSteps (secret : Secret) (code : Text) : List Int :=
  [stepAt input.now - 1,stepAt input.now,stepAt input.now + 1].filter fun step => library.generate secret step = code

/-- `verify_factor_code` for a one-time password, on the row that was read. -/
def checkTotp (factor : UserMfaFactor) (code : Text) : Option (List Int) :=
  if ∃ lastUsed ∈ factor.lastUsedAt, stepAt lastUsed = stepAt input.now then none
  else factor.secretEnvelope.bind fun secret =>
    if matchingSteps library input secret code = [] then none else some (matchingSteps library input secret code)

/-- A verified factor is only marked as used, except where its owner confirms it. -/
def Verification.verifies (verification : Verification) : Bool :=
  verification.pending.isNone || verification.factor.verifiedAt.isNone

def Verification.used (verification : Verification) : Checked → List TotpCode
  | .totp steps => steps.map fun step => ⟨verification.factor.id,verification.factor.secretEnvelope,step⟩
  | .mail _ => []

def Checked.mails : Checked → List Nat
  | .totp _ => []
  | .mail number => [number]

def UserUpdate.next (update : UserUpdate) : Option Handler :=
  match update.rest with
  | [] => none
  | userId :: rest => some (.readTarget { update with rest } userId)

def Pending.next (pending : Pending) : Purpose → Option Handler
  | .totpStart => some (.readStartPolicy ⟨pending.user.id,.totp,none⟩)
  | .emailSend factorId =>
    match pending.opened.challenge.mode with
    | .enroll =>
      if pending.user.emailVerifiedAt = none ∨ input.mailEnabled = false then none
      else some (.readStartPolicy ⟨pending.user.id,.email,some (.challenge pending.token)⟩)
    | .verify => factorId.map fun factorId => .readSendFactor pending.user.id factorId pending.token
  | .verify factorId code => some (.readFactor pending factorId code)

def advance (s : Shared) : Handler → Shared × Option Handler
  | .login email password returnTo =>
    match normalizeEmail email with
    | .ok email =>
      if password = [] ∨ 1024 < byteLength password ∨ input.admits = false then (s,none)
      else
        reading s (getUserByEmail s.db email) fun user =>
          some (.readCredential { user, returnTo, basis := some (s.basis user.id) } password)
    | .error _ => (s,none)
  | .readCredential login password =>
    if credentialsAreValid library login.user (credentialOf s.db login.user.id) password ∧
        login.user.emailVerifiedAt.isSome then
      (s,some (.readPolicy { login with
        basis := login.basis.map fun basis => { basis with passwords := (s.basis login.user.id).passwords } }))
    else (s,none)
  | .readPolicy login => (s,some (.readFactors login (mfaPolicy s.db)))
  | .readFactors login policy => (s,some (.readUserPolicy login policy (usableFactors s.db policy login.user.id)))
  | .readUserPolicy login policy factors =>
    match chosenMode (policy.requirementsFor (userMfaPolicy s.db login.user.id) login.user.platformRole) factors with
    | some mode => (s,some (.createChallenge login mode))
    | none => (s,some (.updateLastLogin login))
  | .createChallenge login mode =>
    let challenge := ⟨login.user.id,login.user.authVersion,mode,safeReturnTo login.returnTo⟩
    let held := (usableFactors s.db (mfaPolicy s.db) login.user.id).map UserMfaFactor.id
    ({ s with
      challenges := Expiring.put s.challenges s.drawn ⟨challenge,held,login.basis⟩ (input.now + challengeTtl)
      drawn := s.drawn + 1 },none)
  | .updateLastLogin login =>
    writing s (updateRow login.user.id (fun row => { row with lastLoginAt := some input.now }) fun _ => rfl) fun _ =>
      some (.createSession login)
  | .createSession login =>
    let data := ⟨login.user.id,login.user.authVersion,input.now,input.now⟩
    ({ s with
      sessions := Expiring.put s.sessions s.drawn ⟨data,login.basis⟩ (input.now + library.sessionTtl * microseconds)
      drawn := s.drawn + 1
      issued := s.issued ++ [⟨login.user.id,login.origin⟩] },none)
  | .findIdentity identity =>
    if trim identity.subject = [] then (s,none)
    else
      match s.db.identities.find (identity.providerId,identity.subject) with
      | some link => (s,some (.readLinkedUser identity link.userId))
      | none =>
        if identity.emailVerified then
          match normalizeEmail (identity.email.getD []) with
          | .ok email => (s,some (.linkIdentity identity email))
          | .error _ => (s,none)
        else (s,none)
  | .readLinkedUser identity userId =>
    reading s ((getUserById s.db userId).filter fun user => user.status = .active) fun user =>
      some (.readPolicy { user, returnTo := identity.returnTo })
  | .linkIdentity identity email =>
    writing s (linkUser input.now input.grants s.drawn identity email) fun user =>
      if user.status = .active then some (.readPolicy { user, returnTo := identity.returnTo }) else none
  | .register registration =>
    match normalizeEmail registration.email with
    | .ok email =>
      if s.db.registrationVerification ∧ input.mailEnabled = false then (s,none)
      else (s,some (.createUser { registration with email } s.db.registrationVerification))
    | .error _ => (s,none)
  | .createUser registration verificationRequired =>
    if input.grants = false ∨ (getUserByEmail s.db registration.email).isSome then (s,none)
    else
      writing s (createUserRow input.now s.drawn registration.email (some registration.passwordHash) (!verificationRequired))
        fun user => if verificationRequired then some (.createAuthToken user.id) else some (.updateLastLogin { user })
  | .resendEmail email =>
    if input.admits ∧ input.mailEnabled then
      match normalizeEmail email with
      | .ok email =>
        reading s ((getUserByEmail s.db email).filter fun user => user.emailVerifiedAt = none) fun user =>
          some (.createAuthToken user.id)
      | .error _ => (s,none)
    else (s,none)
  | .createAuthToken userId => writing s (replaceAuthToken input.now s.drawn userId) fun _ => none
  | .consumeAuthToken token => writing s (spendAuthToken input.now token) fun userId => some (.readVerifiedUser userId)
  | .readVerifiedUser userId => reading s (getUserById s.db userId) fun user => some (.markEmailVerified user)
  | .markEmailVerified user =>
    writing s (updateRow user.id (fun row => { row with emailVerifiedAt := some input.now }) fun _ => rfl) fun user =>
      some (.updateLastLogin { user })
  | .loadChallenge token purpose =>
    reading s (Expiring.get s.challenges token) fun opened =>
      if purpose = .totpStart ∧ opened.challenge.mode ≠ .enroll then none
      else some (.readChallengeUser token opened purpose)
  | .readChallengeUser token opened purpose =>
    reading s ((getUserById s.db opened.challenge.userId).filter fun user =>
        0 < opened.challenge.authVersion ∧ opened.challenge.authVersion = user.authVersion) fun user =>
      Pending.next input ⟨token,opened,user⟩ purpose
  | .readAccountUser start =>
    reading s (getUserById s.db start.userId) fun user =>
      if start.kind = .email ∧ (user.emailVerifiedAt = none ∨ input.mailEnabled = false) then none
      else some (.readStartPolicy start)
  | .readStartPolicy start => if (mfaPolicy s.db).allows start.kind then (s,some (.findFactor start)) else (s,none)
  | .findFactor start =>
    match factorOfKind s.db start.userId start.kind with
    | some factor => if factor.verifiedAt.isSome then (s,none) else (s,some (.writeFactor start (some factor)))
    | none => (s,some (.writeFactor start none))
  | .writeFactor start existing =>
    writing s (storeStarted input.now s.drawn start (if start.kind = .totp then some input.secret else none) existing)
      fun factor => start.scope.map fun scope => .sendCode scope factor.id
  | .readSendFactor userId factorId token =>
    reading s ((mfaFactor s.db userId factorId).filter fun factor => factor.kind = .email ∧ factor.verifiedAt.isSome)
      fun factor => some (.sendCode (.challenge token) factor.id)
  | .sendCode scope factorId =>
    if input.admits then
      ({ s with
        codes := Expiring.put s.codes (scope,factorId) ⟨input.code,s.mails⟩ (input.now + codeTtl)
        mails := s.mails + 1 },none)
    else (s,none)
  | .readFactor pending factorId code =>
    reading s (mfaFactor s.db pending.user.id factorId) fun factor => some (.readVerifyPolicy pending factor code)
  | .readVerifyPolicy pending factor code =>
    if (mfaPolicy s.db).allows factor.kind = false ∨
        (pending.opened.challenge.mode = .verify ∧ factor.verifiedAt = none) then (s,none)
    else (s,some (.checkCode ⟨.challenge pending.token,factor,trim code,some (pending,mfaPolicy s.db)⟩))
  | .readOwnFactor userId factorId code =>
    reading s (mfaFactor s.db userId factorId) fun factor => some (.checkCode ⟨.account userId,factor,trim code,none⟩)
  | .checkCode verification =>
    if input.admits then
      match verification.factor.kind with
      | .totp =>
        (s,(checkTotp library input verification.factor verification.code).map fun steps =>
          .writeUse verification (.totp steps))
      | .email =>
        reading s ((Expiring.get s.codes (verification.scope,verification.factor.id)).filter fun sent =>
            sent.code = verification.code) fun sent => some (.deleteCode verification sent.mail)
    else (s,none)
  | .deleteCode verification number =>
    ({ s with codes := Expiring.remove s.codes (verification.scope,verification.factor.id) },
      some (.writeUse verification (.mail number)))
  | .writeUse verification checked =>
    match ran s (useFactor input.now verification.factor.id verification.verifies) with
    | some (_,db) =>
      ({ s with
        db
        usedCodes := s.usedCodes ++ verification.used checked
        usedMails := s.usedMails ++ checked.mails
        presented := s.presented ++
          (verification.pending.map fun pending => (pending.1.token,verification.factor.id)).toList },
        verification.pending.bind fun pending =>
          match pending.1.opened.challenge.mode with
          | .enroll => some (.readEnrolled pending.1 pending.2)
          | .verify => some (.takeChallenge pending.1))
    | none => (s,none)
  | .readEnrolled pending policy =>
    (s,some (.readEnrolledPolicy pending policy (usableFactors s.db policy pending.user.id)))
  | .readEnrolledPolicy pending policy factors =>
    if (policy.requirementsFor (userMfaPolicy s.db pending.user.id) pending.user.platformRole).metBy factors then
      (s,some (.takeChallenge pending))
    else (s,none)
  | .takeChallenge pending =>
    match Expiring.get s.challenges pending.token with
    | some _ =>
      ({ s with challenges := Expiring.remove s.challenges pending.token },
        some (.updateLastLogin
          { user := pending.user, basis := pending.opened.basis, origin := some (pending.token,pending.opened) }))
    | none => (s,none)
  | .readDeletion userId factorId =>
    reading s ((getUserById s.db userId).bind fun user => (mfaFactor s.db userId factorId).map fun factor => (user,factor))
      fun found =>
        let policy := mfaPolicy s.db
        let requirements := policy.requirementsFor (userMfaPolicy s.db userId) found.1.platformRole
        let remaining := (usableFactors s.db policy userId).filter fun factor => factor.id ≠ factorId
        if found.2.verifiedAt.isSome ∧ requirements.isEnforced ∧ requirements.metBy remaining = false then none
        else some (.deleteFactor userId factorId)
  | .deleteFactor userId factorId =>
    ({ s with db := { s.db with
      factors := s.db.factors.deleteWhere fun factor => factor.id = factorId ∧ factor.userId = userId } },none)
  | .setUserPolicy userId policy => writing s (storeUserPolicy userId policy) fun _ => none
  | .writeSettings policy registrationVerification =>
    writing s (storeSettings input.mailEnabled policy registrationVerification) fun _ => none
  | .readTarget update userId =>
    match getUserById s.db userId with
    | none => (s,update.next)
    | some target =>
      if target.id = update.actor ∧ (update.demotes target ∨ update.disables) then (s,update.next)
      else if target.platformRole = .admin ∧ target.status = .active ∧ (update.demotes target ∨ update.disables) then
        (s,some (.countAdmins update target))
      else (s,some (.writeUser update target none))
  | .countAdmins update target =>
    if countActiveAdmins s.db ≤ 1 then (s,update.next)
    else (s,some (.writeUser update target (some (countActiveAdmins s.db))))
  | .writeUser update target _ =>
    match ran s (updateRow target.id update.apply fun _ => rfl) with
    | some (_,db) =>
      ({ s with db, disabled := if update.disables then s.disabled ++ [target.id] else s.disabled },update.next)
    | none => (s,update.next)
  | .setPassword userId passwordHash =>
    match ran s (storePassword s.drawn userId passwordHash) with
    | some (_,db) => ({ s with db, drawn := s.drawn + 1, passwordsSet := s.passwordsSet ++ [userId] },none)
    | none => (s,none)
  | .validate token =>
    reading s (Expiring.get s.sessions token) fun session =>
      if library.idleTtl < (input.now - session.data.lastAccessedAt).tdiv microseconds then some (.expire token)
      else
        let remaining := library.sessionTtl - (input.now - session.data.createdAt).tdiv microseconds
        if remaining ≤ 0 then some (.expire token)
        else some (.refresh token { session with data := { session.data with lastAccessedAt := input.now } }
          (s.basis session.data.userId) remaining)
  | .expire token => ({ s with sessions := Expiring.remove s.sessions token },none)
  | .refresh token session started remaining =>
    ({ s with sessions := Expiring.putIfPresent s.sessions token session (input.now + remaining * microseconds) },
      if (Expiring.get s.sessions token).isSome then some (.readSessionUser token session started) else none)
  | .readSessionUser token session started =>
    match getUserById s.db session.data.userId with
    | some user =>
      if user.status = .active ∧ 0 < session.data.authVersion ∧ user.authVersion = session.data.authVersion then
        ({ s with admitted := s.admitted ++ [⟨started,session⟩] },none)
      else (s,some (.revoke token))
    | none => (s,some (.revoke token))
  | .revoke token => ({ s with sessions := Expiring.remove s.sessions token },none)

def abandon : Handler → Option Handler
  | .readTarget update _ | .countAdmins update _ | .writeUser update _ _ => update.next
  | _ => none

def act (s : Shared) (handler : Handler) : Shared × Option Handler :=
  if input.fails then (s.wait input.now,abandon handler) else advance library input (s.wait input.now) handler

end Actions

def enter : Request → Handler
  | .login email password returnTo => .login email password returnTo
  | .callback identity => .findIdentity identity
  | .register registration => .register registration
  | .verifyEmail token => .consumeAuthToken token
  | .resendEmail email => .resendEmail email
  | .challenge token purpose => .loadChallenge token purpose
  | .accountStart userId kind =>
    .readAccountUser ⟨userId,kind,match kind with | .totp => none | .email => some (.account userId)⟩
  | .accountConfirm userId factorId code => .readOwnFactor userId factorId code
  | .accountDelete userId factorId => .readDeletion userId factorId
  | .resetFactor userId factorId => .deleteFactor userId factorId
  | .updateMfaPolicy userId policy => .setUserPolicy userId policy
  | .updateSettings policy registrationVerification => .writeSettings policy registrationVerification
  | .updateUsers update userId => .readTarget update userId
  | .setPassword userId passwordHash => .setPassword userId passwordHash
  | .validate session => .validate session
  | .logout session => .revoke session

def machine (library : Library) : Machine Shared Handler Request Input := ⟨enter,act library⟩

end GrassWorker.Logins
