import GrassWorker.ControlPlane.RevokedLogins

/-! Whether the user of a session is active and has the factors that are asked of him when it is issued. Each
way in checks the user, his status and his factors by itself, or does not. -/
namespace GrassWorker.Logins
open Authentication Interleaving Transaction Runs

/-- What the policies ask of a user, if they ask anything, is met by the factors he can prove. -/
def MeetsPolicies (db : Accounts) (userId : Uuid) (role : PlatformRole) : Prop :=
  Satisfied ((mfaPolicy db).requirementsFor (userMfaPolicy db userId) role) (usableFactors db (mfaPolicy db) userId)

instance (db : Accounts) (userId : Uuid) (role : PlatformRole) : Decidable (MeetsPolicies db userId role) :=
  inferInstanceAs (Decidable (Satisfied _ _))

def Meets (db : Accounts) (userId : Uuid) : Prop :=
  ∃ user ∈ getUserById db userId, user.status = .active ∧ MeetsPolicies db userId user.platformRole

instance (db : Accounts) (userId : Uuid) : Decidable (Meets db userId) :=
  inferInstanceAs (Decidable (∃ user ∈ getUserById db userId, _))

def Handler.sessionFor : Handler → Option Uuid
  | .createSession attempt => some attempt.user.id
  | _ => none

def IssuedMet (input : Input) (s : Shared) (handler : Handler) : Prop :=
  input.fails = false → ∀ userId ∈ handler.sessionFor, Meets s.db userId

instance (input : Input) (s : Shared) (handler : Handler) : Decidable (IssuedMet input s handler) :=
  inferInstanceAs (Decidable (_ → ∀ userId ∈ handler.sessionFor, _))

def Handler.registers : Handler → Bool
  | .createUser _ verificationRequired => !verificationRequired
  | _ => false

def Handler.mailVerified : Handler → Option Uuid
  | .markEmailVerified user => some user.id
  | _ => none

/-- A challenge whose user has proved one of his factors, without any look at what is asked of him. -/
def Handler.proved : Handler → Option Pending
  | .takeChallenge pending => if pending.opened.challenge.mode = .verify then some pending else none
  | _ => none

/-- Where a way in does not look at them, the status and the policies are as they should be. -/
def Screened (input : Input) (s : Shared) (handler : Handler) : Prop :=
  input.fails = false →
    (handler.registers → ¬((mfaPolicy s.db).requirementsFor (userMfaPolicy s.db s.drawn) .user).isEnforced) ∧
    (∀ userId ∈ handler.mailVerified, Meets s.db userId) ∧
    ∀ pending ∈ handler.proved, MeetsPolicies s.db pending.user.id pending.user.platformRole

instance (input : Input) (s : Shared) (handler : Handler) : Decidable (Screened input s handler) :=
  inferInstanceAs (Decidable (_ → (_ → ¬_) ∧ (∀ userId ∈ handler.mailVerified, _) ∧ ∀ pending ∈ handler.proved, _))

/-- The user whose login is under way, from when he is read until his session. -/
def Handler.subject : Handler → Option Uuid
  | .readCredential attempt _ | .readPolicy attempt | .readFactors attempt _ | .readUserPolicy attempt _ _
  | .createChallenge attempt _ | .updateLastLogin attempt | .createSession attempt => some attempt.user.id
  | .readFactor pending _ _ | .readVerifyPolicy pending _ _ | .readEnrolled pending _ | .readEnrolledPolicy pending _ _
  | .takeChallenge pending => some pending.user.id
  | .checkCode verification | .deleteCode verification _ | .writeUse verification _ =>
    verification.pending.map fun carried => carried.1.user.id
  | _ => none

def standing (db : Accounts) (userId : Uuid) :
    Option (UserStatus × PlatformRole) × MfaPolicy × UserMfaPolicy × Finset MfaFactorKind :=
  ((getUserById db userId).map fun user => (user.status,user.platformRole),mfaPolicy db,userMfaPolicy db userId,
    heldKinds (verifiedMfaFactors db userId))

/-- An action of one request leaves the user of a login under way in another as he is. -/
def LeavesStanding (library : Library) (input : Input) (s : Shared) (handler other : Handler) : Prop :=
  ∀ userId ∈ other.subject, standing (act library input s handler).1.db userId = standing s.db userId

instance (library : Library) (input : Input) (s : Shared) (handler other : Handler) :
    Decidable (LeavesStanding library input s handler other) :=
  inferInstanceAs (Decidable (∀ userId ∈ other.subject, _))

section Standing
variable {db after : Accounts} {userId : Uuid}

theorem heldKinds_usable (policy : MfaPolicy) :
    heldKinds (usableFactors db policy userId) =
      (heldKinds (verifiedMfaFactors db userId)).filter fun kind => policy.allows kind := by
  ext kind
  rw [Finset.mem_filter,mem_heldKinds,mem_heldKinds]
  constructor
  · rintro ⟨factor,member,verified,rfl⟩
    obtain ⟨inside,allowed⟩ := List.mem_filter.mp member
    exact ⟨⟨factor,inside,verified,rfl⟩,allowed⟩
  · rintro ⟨⟨factor,member,verified,rfl⟩,allowed⟩
    exact ⟨factor,List.mem_filter.mpr ⟨member,allowed⟩,verified,rfl⟩

theorem meetsPolicies_of_standing (same : standing after userId = standing db userId) (role : PlatformRole) :
    MeetsPolicies after userId role ↔ MeetsPolicies db userId role := by
  obtain ⟨_,policy,userPolicy,kinds⟩ := Prod.mk.inj same |>.imp_right fun rest =>
    (Prod.mk.inj rest).imp_right fun rest => Prod.mk.inj rest
  have held : heldKinds (usableFactors after (mfaPolicy after) userId) =
      heldKinds (usableFactors db (mfaPolicy db) userId) := by
    rw [heldKinds_usable,heldKinds_usable,kinds,policy]
  rw [MeetsPolicies,MeetsPolicies,Satisfied,Satisfied,metBy_congr _ held,policy,userPolicy]

theorem meets_of_standing (same : standing after userId = standing db userId) (meets : Meets db userId) :
    Meets after userId := by
  obtain ⟨user,found,active,met⟩ := meets
  have row := congrArg Prod.fst same
  dsimp only [standing] at row
  rw [found] at row
  obtain ⟨next,there,columns⟩ := Option.map_eq_some_iff.mp row
  obtain ⟨status,role⟩ := Prod.mk.inj columns
  exact ⟨next,there,status.trans active,role ▸ (meetsPolicies_of_standing same _).mpr met⟩

end Standing

/-- What becomes of the row of a user: whoever is active and still has his version is still active. -/
structure Advances (row next : User) : Prop where
  deleted : next.deletedAt = row.deletedAt
  version : row.authVersion ≤ next.authVersion
  active : next.authVersion = row.authVersion → row.status = .active → next.status = .active

theorem Unchanged.advances {row next : User} (unchanged : Unchanged row next) : Advances row next :=
  ⟨unchanged.deleted,le_of_eq unchanged.version.symm,fun _ active => unchanged.status.trans active⟩

theorem apply_advances (update : UserUpdate) (row : User) : Advances row (update.apply row) := by
  refine ⟨rfl,?_,?_⟩
  · simp only [UserUpdate.apply]
    split <;> omega
  · intro same active
    by_cases disables : update.disables
    · simp only [UserUpdate.apply,if_pos disables] at same
      omega
    · cases given : update.status with
      | none => simpa [UserUpdate.apply,given] using active
      | some status =>
        cases status with
        | active => simp [UserUpdate.apply,given]
        | disabled => exact absurd (by simp [UserUpdate.disables,given]) disables

def Trusted (db : Accounts) (userId : Uuid) (version : Int) : Prop :=
  ∃ row, db.users.find userId = some row ∧ version ≤ row.authVersion ∧ (row.authVersion = version → row.status = .active)

def AsRead (db : Accounts) (user : User) : Prop :=
  ∃ row, getUserById db user.id = some row ∧ row.status = user.status ∧ row.platformRole = user.platformRole ∧
    user.authVersion ≤ row.authVersion

section Users
variable {library : Library} {input : Input} {s s' : Shared} {handler : Handler} {userId : Uuid}

theorem does_users (does : Does library input s handler s') {row : User} (found : s.db.users.find userId = some row) :
    ∃ next, s'.db.users.find userId = some next ∧ Advances row next := by
  cases does with
  | users _ db write =>
    obtain ⟨users,credentials,identities,write,_,rfl⟩ := write
    obtain ⟨next,there,unchanged⟩ := usersWrite_find write found
    exact ⟨next,there,unchanged.advances⟩
  | updated update target counted users updated =>
    have there := Table.find_update updated userId
    rw [found] at there
    split at there
    · exact ⟨_,there,apply_advances update row⟩
    · exact ⟨row,there,⟨rfl,le_refl _,fun _ active => active⟩⟩
  | password target passwordHash credentials users updated others =>
    have there := Table.find_update updated userId
    rw [found] at there
    split at there
    · exact ⟨_,there,⟨rfl,by dsimp only; omega,fun same _ => by dsimp only at same; omega⟩⟩
    · exact ⟨row,there,⟨rfl,le_refl _,fun _ active => active⟩⟩
  | _ => exact ⟨row,found,⟨rfl,le_refl _,fun _ active => active⟩⟩

theorem Trusted.later (does : Does library input s handler s') {version : Int} (trusted : Trusted s.db userId version) :
    Trusted s'.db userId version := by
  obtain ⟨row,found,reached,active⟩ := trusted
  obtain ⟨next,there,advances⟩ := does_users does found
  refine ⟨next,there,reached.trans advances.version,fun same => ?_⟩
  have before := advances.version
  exact advances.active (by omega) (active (by omega))

theorem AsRead.later (does : Does library input s handler s') {user : User} (read : AsRead s.db user)
    (same : standing s'.db user.id = standing s.db user.id) : AsRead s'.db user := by
  obtain ⟨row,found,status,role,version⟩ := read
  have columns := congrArg Prod.fst same
  dsimp only [standing] at columns
  rw [found] at columns
  obtain ⟨next,there,columns⟩ := Option.map_eq_some_iff.mp columns
  obtain ⟨status',role'⟩ := Prod.mk.inj columns
  obtain ⟨known,_⟩ := Option.filter_eq_some_iff.mp found
  obtain ⟨other,there',advances⟩ := does_users does known
  obtain ⟨known',_⟩ := Option.filter_eq_some_iff.mp there
  rw [there'] at known'
  cases known'
  exact ⟨next,there,status'.trans status,role'.trans role,version.trans advances.version⟩

theorem AsRead.trusted {db : Accounts} {user : User} (read : AsRead db user) (active : user.status = .active) :
    Trusted db user.id user.authVersion := by
  obtain ⟨row,found,status,_,version⟩ := read
  obtain ⟨known,_⟩ := Option.filter_eq_some_iff.mp found
  exact ⟨row,known,version,fun _ => status.trans active⟩

theorem AsRead.meets {db : Accounts} {user : User} (read : AsRead db user) (active : user.status = .active)
    (met : MeetsPolicies db user.id user.platformRole) : Meets db user.id := by
  obtain ⟨row,found,status,role,_⟩ := read
  exact ⟨row,found,status.trans active,role ▸ met⟩

theorem asRead_of_find {db : Accounts} {user : User} (found : getUserById db userId = some user) : AsRead db user := by
  obtain ⟨known,_⟩ := Option.filter_eq_some_iff.mp found
  rw [← Table.find_key known] at found
  exact ⟨user,found,rfl,rfl,le_refl _⟩

theorem asRead_of_email {db : Accounts} {email : Text} {user : User} (found : getUserByEmail db email = some user) :
    AsRead db user := by
  have live : user.email = email ∧ user.deletedAt = none := by simpa using List.find?_some found
  have known := getUserByEmail_find found
  exact asRead_of_find (Option.filter_eq_some_iff.mpr ⟨known,by simpa using live.2⟩)

end Users

def Pends (db : Accounts) (pending : Pending) : Prop := AsRead db pending.user ∧ pending.user.status = .active

def Entitled (db : Accounts) : Handler → Prop
  | .readCredential login _ => AsRead db login.user
  | .readPolicy login | .createChallenge login _ => AsRead db login.user ∧ login.user.status = .active
  | .readFactors login policy | .readUserPolicy login policy _ =>
    AsRead db login.user ∧ login.user.status = .active ∧ policy = mfaPolicy db
  | .updateLastLogin login | .createSession login => Meets db login.user.id
  | .readChallengeUser _ opened _ => Trusted db opened.challenge.userId opened.challenge.authVersion
  | .readFactor pending _ _ | .readVerifyPolicy pending _ _ => Pends db pending
  | .checkCode verification | .deleteCode verification _ | .writeUse verification _ =>
    ∀ carried ∈ verification.pending, Pends db carried.1 ∧ carried.2 = mfaPolicy db
  | .readEnrolled pending policy => Pends db pending ∧ policy = mfaPolicy db
  | .readEnrolledPolicy pending policy factors =>
    Pends db pending ∧ policy = mfaPolicy db ∧
      heldKinds factors = heldKinds (usableFactors db policy pending.user.id)
  | .takeChallenge pending => Pends db pending ∧
      (pending.opened.challenge.mode = .enroll → MeetsPolicies db pending.user.id pending.user.platformRole)
  | _ => True

section Entitled
variable {library : Library} {input : Input} {s s' : Shared} {handler other : Handler}

theorem Entitled.later (does : Does library input s handler s') (entitled : Entitled s.db other)
    (same : ∀ userId ∈ other.subject, standing s'.db userId = standing s.db userId) : Entitled s'.db other := by
  have policies : ∀ userId, standing s'.db userId = standing s.db userId → mfaPolicy s'.db = mfaPolicy s.db :=
    fun userId same => congrArg (fun standing => standing.2.1) same
  cases other with
  | readCredential => exact AsRead.later does entitled (same _ rfl)
  | readPolicy | createChallenge => exact ⟨entitled.1.later does (same _ rfl),entitled.2⟩
  | readFactors | readUserPolicy =>
    exact ⟨entitled.1.later does (same _ rfl),entitled.2.1,entitled.2.2.trans (policies _ (same _ rfl)).symm⟩
  | updateLastLogin | createSession => exact meets_of_standing (same _ rfl) entitled
  | readChallengeUser => exact Trusted.later does entitled
  | readFactor | readVerifyPolicy => exact ⟨entitled.1.later does (same _ rfl),entitled.2⟩
  | checkCode | deleteCode | writeUse =>
    intro carried member
    obtain ⟨⟨read,active⟩,policy⟩ := entitled carried member
    have subject := same carried.1.user.id (Option.mem_map_of_mem (fun carried => carried.1.user.id) member)
    exact ⟨⟨read.later does subject,active⟩,policy.trans (policies _ subject).symm⟩
  | readEnrolled =>
    exact ⟨⟨entitled.1.1.later does (same _ rfl),entitled.1.2⟩,entitled.2.trans (policies _ (same _ rfl)).symm⟩
  | readEnrolledPolicy pending policy factors =>
    obtain ⟨⟨read,active⟩,asked,held⟩ := entitled
    have kinds := congrArg (fun standing => standing.2.2.2) (same _ rfl)
    refine ⟨⟨read.later does (same _ rfl),active⟩,asked.trans (policies _ (same _ rfl)).symm,?_⟩
    rw [held,heldKinds_usable,heldKinds_usable]
    rw [show heldKinds (verifiedMfaFactors s'.db pending.user.id) = heldKinds (verifiedMfaFactors s.db pending.user.id) from
      kinds]
  | takeChallenge pending =>
    obtain ⟨⟨read,active⟩,met⟩ := entitled
    exact ⟨⟨read.later does (same _ rfl),active⟩,fun mode => (meetsPolicies_of_standing (same _ rfl) _).mpr (met mode)⟩
  | _ => trivial

def Handler.writes : Handler → Bool
  | .updateLastLogin .. | .linkIdentity .. | .createUser .. | .createAuthToken .. | .consumeAuthToken .. | .markEmailVerified ..
  | .writeFactor .. | .writeUse .. | .deleteFactor .. | .setUserPolicy .. | .writeSettings .. | .writeUser ..
  | .setPassword .. => true
  | _ => false

theorem act_reads (reads : handler.writes = false) : (act library input s handler).1.db = s.db := by
  have waited : (s.wait input.now).db = s.db := rfl
  unfold act
  split
  · exact waited
  · rw [← waited]
    generalize s.wait input.now = s
    cases handler with
    | updateLastLogin | linkIdentity | createUser | createAuthToken | consumeAuthToken | markEmailVerified | writeFactor
    | writeUse | deleteFactor | setUserPolicy | writeSettings | writeUser | setPassword => cases reads
    | readPolicy | readFactors | readEnrolled | createChallenge | createSession | readLinkedUser | readVerifiedUser
    | loadChallenge | readChallengeUser | readAccountUser | readSendFactor | readFactor | readOwnFactor | deleteCode
    | readDeletion | validate | expire | refresh | revoke => rfl
    | login | register | resendEmail | findFactor | checkCode | findIdentity | readTarget | readSessionUser =>
      simp only [advance]
      repeat' split
      all_goals rfl
    | readCredential | readUserPolicy | readStartPolicy | sendCode | readVerifyPolicy | readEnrolledPolicy | takeChallenge
    | countAdmins =>
      simp only [advance]
      split <;> rfl

theorem leads_entitled {rest : Handler} (leads : Leads library input s handler rest) (reads : handler.writes = false)
    (cache : ∀ entry ∈ s.challenges, Trusted s.db entry.value.challenge.userId entry.value.challenge.authVersion)
    (proved : ∀ pending ∈ handler.proved, MeetsPolicies s.db pending.user.id pending.user.platformRole)
    (entitled : Entitled s.db handler) : Entitled s.db rest := by
  cases leads with
  | password email email' password returnTo user found => exact asRead_of_email found
  | checked login password valid =>
    simp only [credentialsAreValid,decide_eq_true_eq] at valid
    exact ⟨entitled,valid.1⟩
  | policy login => exact ⟨entitled.1,entitled.2,rfl⟩
  | factors login policy => exact entitled
  | challenge login policy factors mode chosen => exact ⟨entitled.1,entitled.2.1⟩
  | unchallenged login policy factors chosen =>
    obtain ⟨read,active,rfl⟩ := entitled
    refine read.meets active fun enforced => ?_
    -- without a challenge nothing is asked of the user
    unfold chosenMode at chosen
    split at chosen
    · cases chosen
    · cases chosen
  | linkedUser identity userId user found active => exact ⟨asRead_of_find found,active⟩
  | loaded token purpose opened found permitted =>
    obtain ⟨entry,member,_,rfl⟩ := Expiring.get_eq_some found
    exact cache entry member
  | challengeVerify token opened factorId code user found current =>
    obtain ⟨row,known,_,active⟩ := entitled
    have read := asRead_of_find found
    obtain ⟨there,_⟩ := Option.filter_eq_some_iff.mp found
    rw [there] at known
    cases known
    exact ⟨read,active current.symm⟩
  | factor pending factorId code factor found => exact entitled
  | usable pending factor code allowed enrolled =>
    intro carried member
    cases member
    exact ⟨entitled,rfl⟩
  | ownFactor userId factorId code factor found =>
    intro carried member
    cases member
  | totp verification steps correct => exact entitled
  | mail verification sent found correct => exact entitled
  | deleted verification number => exact entitled
  | enrolled pending policy => exact ⟨entitled.1,entitled.2,rfl⟩
  | met pending policy factors met =>
    obtain ⟨pends,rfl,held⟩ := entitled
    refine ⟨pends,fun _ _ => ?_⟩
    rw [← metBy_congr _ held]
    exact met
  | taken pending present =>
    obtain ⟨⟨read,active⟩,met⟩ := entitled
    refine read.meets active ?_
    cases mode : pending.opened.challenge.mode with
    | enroll => exact met mode
    | verify =>
      refine proved pending ?_
      rw [Handler.proved,if_pos mode]
      rfl
  | lastLogin | identityUser | registered | emailVerified | enrolling | verifying => cases reads
  | _ => trivial

theorem usersOnly_standing {drawn : Nat} {db after : Accounts} {userId : Uuid} {row : User}
    (write : UsersOnly drawn db after) (found : getUserById db userId = some row) :
    standing after userId = standing db userId := by
  obtain ⟨users,credentials,identities,write,_,rfl⟩ := write
  obtain ⟨known,live⟩ := Option.filter_eq_some_iff.mp found
  obtain ⟨next,there,unchanged⟩ := usersWrite_find write known
  have later : getUserById { db with users, credentials, identities } userId = some next :=
    Option.filter_eq_some_iff.mpr ⟨there,by simpa [unchanged.deleted] using live⟩
  unfold standing
  rw [later,found]
  simp only [Option.map_some,unchanged.status,unchanged.role]
  rfl

/-- Whoever meets the policies still does after an action that writes users but is no administrator's. -/
theorem does_meets (does : Does library input s handler s') (login : handler.sessionFor = none)
    (own : ∃ userId, handler = .markEmailVerified userId ∨ ∃ login, handler = .updateLastLogin login) {userId : Uuid}
    (meets : Meets s.db userId) : Meets s'.db userId := by
  obtain ⟨row,found,_⟩ := id meets
  cases does with
  | users _ db write => exact meets_of_standing (usersOnly_standing write found) meets
  | nothing | tokens | ended => exact meets
  | _ => simp at own

theorem asRead_new {now : Timestamp} {id : Uuid} {email : Text} {verified : Bool} {db : Accounts} {users : Users}
    {credentials identities} (inserted : db.users.insert (newUser now id email verified) = some users) :
    AsRead { db with users, credentials, identities } (newUser now id email verified) := by
  have found := (Table.find_insert inserted id).trans (if_pos rfl)
  exact asRead_of_find (Option.filter_eq_some_iff.mpr ⟨found,rfl⟩)

theorem ensures_userForEmail {now : Timestamp} {granted : Bool} {id : Uuid} {email : Text} {db : Accounts} :
    Ensures (userForEmail now granted id email) db fun user after => AsRead after user := by
  unfold userForEmail
  rw [ensures_bind,ensures_get]
  split
  · rename_i user found
    split
    · rw [ensures_updateRow]
      intro users row updated there
      have live : user.email = email ∧ user.deletedAt = none := by simpa using List.find?_some found
      have old := Table.find_update updated user.id
      rw [if_pos rfl,getUserByEmail_find found,there] at old
      cases old
      exact asRead_of_find (Option.filter_eq_some_iff.mpr ⟨there,by simpa using live.2⟩)
    · rw [ensures_pure]
      exact asRead_of_email found
  · rw [ensures_bind,ensures_require]
    intro _
    refine createUserRow_spec.mono ?_
    rintro user after ⟨rfl,users,credentials,inserted,_,rfl⟩
    exact asRead_new inserted

theorem ensures_linkUser {now : Timestamp} {granted : Bool} {id : Uuid} {identity : ExternalIdentity} {email : Text}
    {db : Accounts} :
    Ensures (linkUser now granted id identity email) db fun user after => AsRead after user := by
  unfold linkUser
  rw [ensures_bind]
  refine ensures_userForEmail.mono ?_
  intro user between read
  rw [ensures_bind,ensures_write]
  intro _ after written
  obtain ⟨linked,_,written⟩ := Option.bind_eq_some_iff.mp written
  cases written
  rw [ensures_pure]
  exact read

theorem registered_meets {registration : Registration} {user : User} {db : Accounts}
    (outcome : ran s (createUserRow input.now s.drawn registration.email (some registration.passwordHash) true) = some (user,db))
    (free : ¬((mfaPolicy s.db).requirementsFor (userMfaPolicy s.db s.drawn) .user).isEnforced) : Meets db user.id := by
  obtain ⟨rfl,users,credentials,inserted,_,rfl⟩ := ran_ensures outcome createUserRow_spec
  exact (asRead_new inserted).meets rfl fun enforced => absurd enforced free

theorem writing_db {α : Type} {transaction : Transaction Accounts Unit α} {next : α → Option Handler} {value : α}
    {db : Accounts} (outcome : ran s transaction = some (value,db)) : (writing s transaction next).1.db = db := by
  rw [writing,outcome]

theorem act_live {rest : Handler} (next : (act library input s handler).2 = some rest) (abandons : abandon handler = none) :
    input.fails = false ∧ act library input s handler = advance library input (s.wait input.now) handler := by
  unfold act at next ⊢
  split at next
  · rw [abandons] at next
    cases next
  · rename_i live
    exact ⟨by simpa using live,if_neg live⟩

theorem writeUse_accounts (library : Library) (input : Input) (s : Shared) (verification : Verification) (checked : Checked) :
    ∃ factors, (act library input s (.writeUse verification checked)).1.db = { s.db with factors } := by
  unfold act
  split
  · exact ⟨s.db.factors,rfl⟩
  · simp only [advance]
    split
    · rename_i outcome
      obtain ⟨factors,_,_,rfl⟩ := ran_ensures outcome useFactor_spec
      exact ⟨factors,rfl⟩
    · exact ⟨s.db.factors,rfl⟩

theorem act_entitled {rest : Handler} (next : (act library input s handler).2 = some rest)
    (cache : ∀ entry ∈ s.challenges, Trusted s.db entry.value.challenge.userId entry.value.challenge.authVersion)
    (screened : Screened input s handler) (entitled : Entitled s.db handler) :
    Entitled (act library input s handler).1.db rest := by
  have does := act_does library input handler (s := s)
  have leads := act_leads next
  cases writes : handler.writes with
  | false =>
    rw [act_reads writes]
    refine leads_entitled (s := s.wait input.now) leads writes (fun entry member => cache entry (Expiring.mem_wait member)) ?_ entitled
    intro pending member
    have passes : abandon handler = none := by cases handler <;> first | rfl | cases member
    exact (screened (act_live next passes).1).2.2 pending member
  | true =>
    cases leads with
    | lastLogin login => exact does_meets does rfl ⟨login.user,.inr ⟨login,rfl⟩⟩ entitled
    | identityUser identity email user db outcome active =>
      obtain ⟨_,acts⟩ := act_live next rfl
      rw [acts,advance,writing_db outcome]
      exact ⟨ran_ensures outcome ensures_linkUser,active⟩
    | registered registration user db outcome =>
      obtain ⟨live,acts⟩ := act_live next rfl
      rw [acts] at next ⊢
      simp only [advance] at next ⊢
      split at next
      · cases next
      · rename_i permitted
        rw [if_neg permitted]
        simp only [Bool.not_false]
        rw [writing_db outcome]
        exact registered_meets outcome ((screened live).1 rfl)
    | emailVerified user row db outcome =>
      obtain ⟨live,_⟩ := act_live next rfl
      have met := does_meets does rfl ⟨user,.inl rfl⟩ ((screened live).2.1 user.id rfl)
      have same : row.id = user.id := by
        have found : Ensures (updateRow user.id (fun row => { row with emailVerifiedAt := some input.now }) fun _ => rfl)
            (s.wait input.now).db fun row _ => row.id = user.id := by
          rw [ensures_updateRow]
          exact fun users row _ found => Table.find_key found
        exact ran_ensures outcome found
      change Meets _ row.id
      rw [same]
      exact met
    | enrolling verification checked pending policy carried mode =>
      obtain ⟨factors,same⟩ := writeUse_accounts library input s verification checked
      rw [same]
      exact entitled (pending,policy) carried
    | verifying verification checked pending policy carried mode =>
      obtain ⟨factors,same⟩ := writeUse_accounts library input s verification checked
      rw [same]
      refine ⟨(entitled (pending,policy) carried).1,fun enrols => ?_⟩
      rw [mode] at enrols
      cases enrols
    | _ => trivial

def TrustsCache (s : Shared) : Prop :=
  ∀ entry ∈ s.challenges, Trusted s.db entry.value.challenge.userId entry.value.challenge.authVersion

theorem does_trusts (does : Does library input s handler s') (cache : TrustsCache s) (entitled : Entitled s.db handler) :
    TrustsCache s' := by
  have kept : ∀ entry ∈ s.challenges, Trusted s'.db entry.value.challenge.userId entry.value.challenge.authVersion :=
    fun entry member => (cache entry member).later does
  intro entry member
  cases does with
  | challenged login mode =>
    rcases Expiring.mem_put.mp member with rfl | old
    · exact entitled.1.trusted entitled.2
    · exact kept entry old.1
  | taken pending present => exact kept entry (Expiring.mem_remove.mp member).1
  | _ => exact kept entry member

end Entitled

def enforcing : Accounts where
  users := ∅
  credentials := ∅
  factors := ∅
  userPolicies := ∅
  authTokens := ∅
  identities := ∅
  mfaPolicy := some { allowedFactors := ["totp"], enforcement := .allUsers, minimumFactors := 1 }

end GrassWorker.Logins
