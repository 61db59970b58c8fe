import GrassWorker.ControlPlane.Logins

/-! What an action of a login or of an administrator can do to the accounts, the cache and the
record of what has happened. -/
namespace GrassWorker.Logins
open Authentication Interleaving Transaction Validator

/-- The columns that logins and sessions are checked against are as they were. -/
structure Unchanged (row next : User) : Prop where
  status : next.status = row.status
  version : next.authVersion = row.authVersion
  role : next.platformRole = row.platformRole
  deleted : next.deletedAt = row.deletedAt
  verified : row.emailVerifiedAt.isSome → next.emailVerifiedAt.isSome

inductive UsersWrite (drawn : Nat) (before : Users) : Users → Prop
  | same : UsersWrite drawn before before
  | rewritten (userId : Uuid) (change : User → User) (keeps : ∀ row, (change row).id = row.id)
      (unchanged : ∀ row, Unchanged row (change row)) {after : Users}
      (updated : before.update userId change keeps = some after) : UsersWrite drawn before after
  | created (now : Timestamp) (email : Text) (verified : Bool) {after : Users}
      (inserted : before.insert (newUser now drawn email verified) = some after) : UsersWrite drawn before after

inductive FactorsStart (drawn : Nat) (before : Factors) : Factors → Prop
  | replaced (factorId : Uuid) (secret : Option Secret) {after : Factors}
      (updated : before.update factorId (fun row => { row with secretEnvelope := secret }) (fun _ => rfl) = some after) :
      FactorsStart drawn before after
  | inserted (now : Timestamp) (start : Start) (secret : Option Secret) {after : Factors}
      (inserted : before.insert ⟨drawn,start.userId,start.kind,secret,none,none,now⟩ = some after) :
      FactorsStart drawn before after

def PoliciesWrite (db : Accounts) (rows : List UserMfaPolicyRow) : Prop :=
  ∀ row ∈ rows, (∃ old ∈ db.userPolicies.rows, old.userId = row.userId) ∨ (db.users.find row.userId).isSome

section Transactions
variable {db : Accounts}

theorem ensures_updateRow {userId : Uuid} {change : User → User} {keeps : ∀ row, (change row).id = row.id}
    {post : User → Accounts → Prop} :
    Ensures (updateRow userId change keeps) db post ↔
      ∀ users row, db.users.update userId change keeps = some users → users.find userId = some row →
        post row { db with users } := by
  rw [updateRow,ensures_write]
  constructor
  · intro whole users row updated found
    refine whole row _ ?_
    simp [updated,found]
  · intro parts row after written
    obtain ⟨users,updated,written⟩ := Option.bind_eq_some_iff.mp written
    obtain ⟨found,present,written⟩ := Option.bind_eq_some_iff.mp written
    cases written
    exact parts users row updated present

theorem updateRow_spec {userId : Uuid} {change : User → User} {keeps : ∀ row, (change row).id = row.id} :
    Ensures (updateRow userId change keeps) db fun _ after =>
      ∃ users, db.users.update userId change keeps = some users ∧ after = { db with users } := by
  rw [ensures_updateRow]
  exact fun users row updated found => ⟨users,updated,rfl⟩

def KeepsCredentials (db after : Accounts) : Prop :=
  ∀ userId, (db.users.find userId).isSome → credentialOf after userId = credentialOf db userId

def UsersOnly (drawn : Nat) (db after : Accounts) : Prop :=
  ∃ users credentials identities, UsersWrite drawn db.users users ∧ KeepsCredentials db after ∧
    after = { db with users, credentials, identities }

theorem updateRow_usersOnly (drawn : Nat) {userId : Uuid} {change : User → User} {keeps : ∀ row, (change row).id = row.id}
    (unchanged : ∀ row, Unchanged row (change row)) :
    Ensures (updateRow userId change keeps) db fun _ => UsersOnly drawn db := by
  rw [ensures_updateRow]
  intro users row updated found
  exact ⟨users,db.credentials,db.identities,.rewritten userId change keeps unchanged updated,fun _ _ => rfl,rfl⟩

theorem createUserRow_spec {now : Timestamp} {id : Uuid} {email : Text} {passwordHash : Option Text} {verified : Bool} :
    Ensures (createUserRow now id email passwordHash verified) db fun user after =>
      user = newUser now id email verified ∧ ∃ users credentials, db.users.insert user = some users ∧
        KeepsCredentials db after ∧ after = { db with users, credentials } := by
  rw [createUserRow,ensures_write]
  intro user after written
  obtain ⟨users,inserted,written⟩ := Option.bind_eq_some_iff.mp written
  cases passwordHash with
  | none =>
    cases written
    exact ⟨rfl,users,db.credentials,inserted,fun _ _ => rfl,rfl⟩
  | some passwordHash =>
    obtain ⟨credentials,stored,written⟩ := Option.bind_eq_some_iff.mp written
    cases written
    refine ⟨rfl,users,credentials,inserted,fun userId there => ?_,rfl⟩
    have other : id ≠ userId := by
      rintro rfl
      have absent := Table.find_before_insert inserted
      change db.users.find id = none at absent
      rw [absent] at there
      cases there
    unfold credentialOf
    rw [Table.rows_insert stored,List.find?_append,List.find?_cons_of_neg (by simpa using other),List.find?_nil,Option.or_none]

theorem createUserRow_usersOnly {now : Timestamp} {drawn : Nat} {email : Text} {passwordHash : Option Text}
    {verified : Bool} :
    Ensures (createUserRow now drawn email passwordHash verified) db fun _ => UsersOnly drawn db := by
  refine createUserRow_spec.mono ?_
  rintro user after ⟨rfl,users,credentials,inserted,kept,rfl⟩
  exact ⟨users,credentials,db.identities,.created now email verified inserted,kept,rfl⟩

theorem verified_unchanged (now : Timestamp) (row : User) : Unchanged row { row with emailVerifiedAt := some now } :=
  ⟨rfl,rfl,rfl,rfl,fun _ => rfl⟩

theorem userForEmail_usersOnly {now : Timestamp} {granted : Bool} {drawn : Nat} {email : Text} :
    Ensures (userForEmail now granted drawn email) db fun _ => UsersOnly drawn db := by
  unfold userForEmail
  rw [ensures_bind,ensures_get]
  split
  · split
    · exact updateRow_usersOnly drawn (verified_unchanged now)
    · rw [ensures_pure]
      exact ⟨db.users,db.credentials,db.identities,.same,fun _ _ => rfl,rfl⟩
  · rw [ensures_bind,ensures_require]
    exact fun _ => createUserRow_usersOnly

theorem linkUser_usersOnly {now : Timestamp} {granted : Bool} {drawn : Nat} {identity : ExternalIdentity} {email : Text} :
    Ensures (linkUser now granted drawn identity email) db fun _ => UsersOnly drawn db := by
  unfold linkUser
  rw [ensures_bind]
  refine userForEmail_usersOnly.mono ?_
  rintro user between ⟨users,credentials,identities,write,kept,rfl⟩
  rw [ensures_bind,ensures_write]
  intro _ after written
  obtain ⟨linked,_,written⟩ := Option.bind_eq_some_iff.mp written
  cases written
  rw [ensures_pure]
  exact ⟨users,credentials,linked,write,kept,rfl⟩

theorem replaceAuthToken_tokens {now : Timestamp} {token : Token} {userId : Uuid} :
    Ensures (replaceAuthToken now token userId) db fun _ after => ∃ authTokens, after = { db with authTokens } := by
  rw [replaceAuthToken,ensures_write]
  intro _ after written
  obtain ⟨_,_,written⟩ := Option.bind_eq_some_iff.mp written
  obtain ⟨authTokens,_,written⟩ := Option.bind_eq_some_iff.mp written
  cases written
  exact ⟨authTokens,rfl⟩

theorem spendAuthToken_tokens {now : Timestamp} {token : Token} :
    Ensures (spendAuthToken now token) db fun _ after => ∃ authTokens, after = { db with authTokens } := by
  unfold spendAuthToken
  simp only [ensures_bind,ensures_get,ensures_orElse,ensures_write,ensures_pure]
  intro row _ _ after written
  obtain ⟨authTokens,_,written⟩ := Option.bind_eq_some_iff.mp written
  cases written
  exact ⟨authTokens,rfl⟩

theorem storeStarted_starts {now : Timestamp} {drawn : Nat} {start : Start} {secret : Option Secret}
    {existing : Option UserMfaFactor} :
    Ensures (storeStarted now drawn start secret existing) db fun _ after =>
      ∃ factors, FactorsStart drawn db.factors factors ∧ after = { db with factors } := by
  rw [storeStarted,ensures_write]
  intro row after written
  cases existing with
  | some factor =>
    obtain ⟨factors,updated,written⟩ := Option.bind_eq_some_iff.mp written
    obtain ⟨_,_,written⟩ := Option.bind_eq_some_iff.mp written
    cases written
    exact ⟨factors,.replaced factor.id secret updated,rfl⟩
  | none =>
    obtain ⟨factors,inserted,written⟩ := Option.bind_eq_some_iff.mp written
    cases written
    exact ⟨factors,.inserted now start secret inserted,rfl⟩

theorem useFactor_spec {now : Timestamp} {factorId : Uuid} {verifies : Bool} :
    Ensures (useFactor now factorId verifies) db fun _ after =>
      ∃ factors, db.factors.update factorId (fun row =>
          { row with verifiedAt := if verifies then some now else row.verifiedAt, lastUsedAt := some now }) (fun _ => rfl) =
            some factors ∧
        (db.factors.find factorId).isSome ∧ after = { db with factors } := by
  rw [useFactor,ensures_write]
  intro row after written
  obtain ⟨factors,updated,written⟩ := Option.bind_eq_some_iff.mp written
  obtain ⟨found,present,written⟩ := Option.bind_eq_some_iff.mp written
  cases written
  refine ⟨factors,updated,?_,rfl⟩
  rw [Table.find_update updated,if_pos rfl] at present
  obtain ⟨old,there,_⟩ := Option.map_eq_some_iff.mp present
  rw [there]
  rfl

theorem storeUserPolicy_policies {userId : Uuid} {policy : UserMfaPolicy} :
    Ensures (storeUserPolicy userId policy) db fun _ after =>
      ∃ userPolicies, PoliciesWrite db userPolicies.rows ∧ after = { db with userPolicies } := by
  unfold storeUserPolicy
  simp only [ensures_bind,ensures_get,ensures_orElse,ensures_require,ensures_write]
  intro user present _ _ after written
  have known : (db.users.find userId).isSome := by
    obtain ⟨found,_⟩ := Option.filter_eq_some_iff.mp present
    rw [found]
    rfl
  split at written
  · obtain ⟨userPolicies,updated,written⟩ := Option.bind_eq_some_iff.mp written
    cases written
    refine ⟨userPolicies,?_,rfl⟩
    intro row member
    rw [Table.rows_update updated] at member
    obtain ⟨old,inside,rfl⟩ := List.mem_map.mp member
    refine .inl ⟨old,inside,?_⟩
    split <;> rfl
  · obtain ⟨userPolicies,inserted,written⟩ := Option.bind_eq_some_iff.mp written
    cases written
    refine ⟨userPolicies,?_,rfl⟩
    intro row member
    rw [Table.rows_insert inserted] at member
    rcases List.mem_append.mp member with old | new
    · exact .inl ⟨row,old,rfl⟩
    · rw [List.mem_singleton.mp new]
      exact .inr known

theorem storeSettings_spec {mailEnabled : Bool} {policy : Option MfaPolicy} {registrationVerification : Option Bool} :
    Ensures (storeSettings mailEnabled policy registrationVerification) db fun _ after =>
      after = { db with
        mfaPolicy := policy.or db.mfaPolicy
        registrationVerification := registrationVerification.getD db.registrationVerification } := by
  unfold storeSettings
  simp only [ensures_bind,ensures_get,ensures_require,ensures_set]
  exact fun _ _ => trivial

private theorem find?_map_kept {α : Type} {test : α → Bool} {change : α → α} {rows : List α}
    (kept : ∀ row ∈ rows, (change row = row ∨ test row = false) ∧ test (change row) = test row) :
    (rows.map change).find? test = rows.find? test := by
  induction rows with
  | nil => rfl
  | cons row others ih =>
    obtain ⟨same,tested⟩ := kept row List.mem_cons_self
    rw [List.map_cons,List.find?_cons,List.find?_cons,tested,ih fun other member => kept other (List.mem_cons_of_mem _ member)]
    cases result : test row with
    | false => rfl
    | true =>
      rcases same with same | missed
      · rw [same]
      · rw [result] at missed
        cases missed

theorem storePassword_spec {id userId : Uuid} {passwordHash : Text} :
    Ensures (storePassword id userId passwordHash) db fun _ after =>
      ∃ credentials users, db.users.update userId (fun row => { row with authVersion := row.authVersion + 1 }) (fun _ => rfl) =
        some users ∧ (∀ other, other ≠ userId → credentialOf after other = credentialOf db other) ∧
          after = { db with credentials, users } := by
  unfold storePassword
  simp only [ensures_bind,ensures_write,ensures_pure]
  intro _ between written
  rw [ensures_updateRow]
  have kept : ∃ credentials, (∀ other, other ≠ userId →
      credentialOf { db with credentials } other = credentialOf db other) ∧ between = { db with credentials } := by
    split at written
    · rename_i credential found
      obtain ⟨credentials,updated,written⟩ := Option.bind_eq_some_iff.mp written
      cases written
      have owner : credential.userId = userId := by simpa using List.find?_some found
      refine ⟨credentials,fun other different => ?_,rfl⟩
      unfold credentialOf
      rw [Table.rows_update updated]
      refine find?_map_kept fun row member => ?_
      by_cases changed : row.id = credential.id
      · have same := db.credentials.same_of_key member (List.mem_of_find?_eq_some found) changed
        rw [if_pos changed,same,owner]
        exact ⟨.inr (by simpa using Ne.symm different),by simp⟩
      · rw [if_neg changed]
        exact ⟨.inl rfl,rfl⟩
    · obtain ⟨credentials,stored,written⟩ := Option.bind_eq_some_iff.mp written
      cases written
      refine ⟨credentials,fun other different => ?_,rfl⟩
      unfold credentialOf
      rw [Table.rows_insert stored,List.find?_append,List.find?_cons_of_neg (by simpa using Ne.symm different),List.find?_nil,
        Option.or_none]
  obtain ⟨credentials,others,rfl⟩ := kept
  intro users row updated found
  exact ⟨credentials,users,updated,others,rfl⟩

end Transactions

inductive Does (library : Library) (input : Input) (s : Shared) : Handler → Shared → Prop
  | nothing (handler : Handler) : Does library input s handler s
  | users (handler : Handler) (db : Accounts) (write : UsersOnly s.drawn s.db db) :
      Does library input s handler { s with db, drawn := s.drawn + 1 }
  | tokens (handler : Handler) (authTokens) :
      Does library input s handler { s with db := { s.db with authTokens }, drawn := s.drawn + 1 }
  | started (start : Start) (existing : Option UserMfaFactor) (factors : Factors)
      (write : FactorsStart s.drawn s.db.factors factors) :
      Does library input s (.writeFactor start existing) { s with db := { s.db with factors }, drawn := s.drawn + 1 }
  | used (verification : Verification) (checked : Checked) (factors : Factors)
      (updated : s.db.factors.update verification.factor.id (fun row =>
        { row with verifiedAt := if verification.verifies then some input.now else row.verifiedAt
                   lastUsedAt := some input.now }) (fun _ => rfl) = some factors)
      (present : (s.db.factors.find verification.factor.id).isSome) :
      Does library input s (.writeUse verification checked) { s with
        db := { s.db with factors }
        usedCodes := s.usedCodes ++ verification.used checked
        usedMails := s.usedMails ++ checked.mails
        presented := s.presented ++
          (verification.pending.map fun pending => (pending.1.token,verification.factor.id)).toList }
  | deleted (userId factorId : Uuid) : Does library input s (.deleteFactor userId factorId) { s with db := { s.db with
      factors := s.db.factors.deleteWhere fun factor => factor.id = factorId ∧ factor.userId = userId } }
  | userPolicy (userId : Uuid) (policy : UserMfaPolicy) (userPolicies) (write : PoliciesWrite s.db userPolicies.rows) :
      Does library input s (.setUserPolicy userId policy) { s with db := { s.db with userPolicies }, drawn := s.drawn + 1 }
  | settings (policy : Option MfaPolicy) (registrationVerification : Option Bool) :
      Does library input s (.writeSettings policy registrationVerification) { s with
        db := { s.db with
          mfaPolicy := policy.or s.db.mfaPolicy
          registrationVerification := registrationVerification.getD s.db.registrationVerification }
        drawn := s.drawn + 1 }
  | updated (update : UserUpdate) (target : User) (counted : Option Nat) (users : Users)
      (updated : s.db.users.update target.id update.apply (fun _ => rfl) = some users) :
      Does library input s (.writeUser update target counted) { s with
        db := { s.db with users }
        disabled := if update.disables then s.disabled ++ [target.id] else s.disabled }
  | password (userId : Uuid) (passwordHash : Text) (credentials) (users : Users)
      (updated : s.db.users.update userId (fun row => { row with authVersion := row.authVersion + 1 }) (fun _ => rfl) =
        some users)
      (others : ∀ other, other ≠ userId → credentialOf { s.db with credentials, users } other = credentialOf s.db other) :
      Does library input s (.setPassword userId passwordHash) { s with
        db := { s.db with credentials, users }, drawn := s.drawn + 1, passwordsSet := s.passwordsSet ++ [userId] }
  | challenged (login : Login) (mode : ChallengeMode) :
      Does library input s (.createChallenge login mode) { s with
        challenges := Expiring.put s.challenges s.drawn
          ⟨⟨login.user.id,login.user.authVersion,mode,safeReturnTo login.returnTo⟩,
            (usableFactors s.db (mfaPolicy s.db) login.user.id).map UserMfaFactor.id,login.basis⟩ (input.now + challengeTtl)
        drawn := s.drawn + 1 }
  | taken (pending : Pending) (present : (Expiring.get s.challenges pending.token).isSome) :
      Does library input s (.takeChallenge pending) { s with challenges := Expiring.remove s.challenges pending.token }
  | sent (scope : Scope) (factorId : Uuid) : Does library input s (.sendCode scope factorId) { s with
      codes := Expiring.put s.codes (scope,factorId) ⟨input.code,s.mails⟩ (input.now + codeTtl), mails := s.mails + 1 }
  | redeemed (verification : Verification) (number : Nat) : Does library input s (.deleteCode verification number) { s with
      codes := Expiring.remove s.codes (verification.scope,verification.factor.id) }
  | issued (login : Login) : Does library input s (.createSession login) { s with
      sessions := Expiring.put s.sessions s.drawn
        ⟨⟨login.user.id,login.user.authVersion,input.now,input.now⟩,login.basis⟩ (input.now + library.sessionTtl * microseconds)
      drawn := s.drawn + 1
      issued := s.issued ++ [⟨login.user.id,login.origin⟩] }
  | refreshed (token : Token) (session : Session) (started : Basis) (remaining : Int) :
      Does library input s (.refresh token session started remaining) { s with
        sessions := Expiring.putIfPresent s.sessions token session (input.now + remaining * microseconds) }
  | ended (handler : Handler) (token : Token) :
      Does library input s handler { s with sessions := Expiring.remove s.sessions token }
  | admitted (token : Token) (session : Session) (started : Basis) (user : User)
      (found : getUserById s.db session.data.userId = some user) (active : user.status = .active)
      (current : user.authVersion = session.data.authVersion) :
      Does library input s (.readSessionUser token session started) { s with admitted := s.admitted ++ [⟨started,session⟩] }

section Does
variable (library : Library) (input : Input) (handler : Handler) {s : Shared}

theorem ran_ensures {α : Type} {transaction : Transaction Accounts Unit α} {value : α} {db : Accounts}
    {post : α → Accounts → Prop} (outcome : ran s transaction = some (value,db))
    (ensured : Ensures transaction s.db post) : post value db := by
  unfold ran at outcome
  cases result : transaction s.db with
  | error error =>
    rw [result] at outcome
    cases outcome
  | ok result' =>
    rw [result] at outcome
    cases outcome
    exact ensured _ _ result

theorem writing_does {α : Type} {transaction : Transaction Accounts Unit α} (next : α → Option Handler)
    {post : Accounts → Prop} (ensured : Ensures transaction s.db fun _ => post)
    (does : ∀ db, post db → Does library input s handler { s with db, drawn := s.drawn + 1 }) :
    Does library input s handler (writing s transaction next).1 := by
  unfold writing
  split
  · rename_i value db outcome
    exact does db (ran_ensures outcome ensured)
  · exact .nothing handler

theorem writing_users {α : Type} {transaction : Transaction Accounts Unit α} (next : α → Option Handler)
    (ensured : Ensures transaction s.db fun _ => UsersOnly s.drawn s.db) :
    Does library input s handler (writing s transaction next).1 :=
  writing_does library input handler next ensured fun db write => .users handler db write

theorem writing_tokens {α : Type} {transaction : Transaction Accounts Unit α} (next : α → Option Handler)
    (ensured : Ensures transaction s.db fun _ after => ∃ authTokens, after = { s.db with authTokens }) :
    Does library input s handler (writing s transaction next).1 := by
  refine writing_does library input handler next ensured ?_
  rintro _ ⟨authTokens,rfl⟩
  exact .tokens handler authTokens

theorem advance_does : Does library input s handler (advance library input s handler).1 := by
  cases handler with
  | login email password returnTo =>
    simp only [advance]
    split
    · split
      · exact .nothing _
      · exact .nothing _
    · exact .nothing _
  | readCredential | readUserPolicy | readStartPolicy | readVerifyPolicy | readEnrolledPolicy =>
    simp only [advance]
    split <;> exact .nothing _
  | readPolicy | readFactors | readEnrolled => exact .nothing _
  | createChallenge login mode => exact .challenged login mode
  | updateLastLogin login =>
    exact writing_users library input _ _ (updateRow_usersOnly s.drawn fun row => ⟨rfl,rfl,rfl,rfl,id⟩)
  | createSession login => exact .issued login
  | findIdentity identity =>
    simp only [advance]
    split
    · exact .nothing _
    · split
      · exact .nothing _
      · split
        · split <;> exact .nothing _
        · exact .nothing _
  | readLinkedUser | readVerifiedUser | loadChallenge | readChallengeUser | readAccountUser | readSendFactor | readFactor
  | readOwnFactor | readDeletion | validate =>
    exact .nothing _
  | linkIdentity identity email => exact writing_users library input _ _ linkUser_usersOnly
  | register registration =>
    simp only [advance]
    split
    · split <;> exact .nothing _
    · exact .nothing _
  | createUser registration verificationRequired =>
    simp only [advance]
    split
    · exact .nothing _
    · exact writing_users library input _ _ createUserRow_usersOnly
  | resendEmail email =>
    simp only [advance]
    split
    · split <;> exact .nothing _
    · exact .nothing _
  | createAuthToken userId => exact writing_tokens library input _ _ replaceAuthToken_tokens
  | consumeAuthToken token => exact writing_tokens library input _ _ spendAuthToken_tokens
  | markEmailVerified user => exact writing_users library input _ _ (updateRow_usersOnly s.drawn (verified_unchanged input.now))
  | findFactor start =>
    simp only [advance]
    split
    · split <;> exact .nothing _
    · exact .nothing _
  | writeFactor start existing =>
    refine writing_does library input _ _ storeStarted_starts ?_
    rintro _ ⟨factors,write,rfl⟩
    exact .started start existing factors write
  | sendCode scope factorId =>
    simp only [advance]
    split
    · exact .sent scope factorId
    · exact .nothing _
  | checkCode verification =>
    simp only [advance]
    split
    · split <;> exact .nothing _
    · exact .nothing _
  | deleteCode verification number => exact .redeemed verification number
  | writeUse verification checked =>
    simp only [advance]
    split
    · rename_i row db outcome
      obtain ⟨factors,updated,present,rfl⟩ := ran_ensures outcome useFactor_spec
      exact .used verification checked factors updated present
    · exact .nothing _
  | takeChallenge pending =>
    simp only [advance]
    split
    · rename_i found
      refine .taken pending ?_
      rw [found]
      rfl
    · exact .nothing _
  | deleteFactor userId factorId => exact .deleted userId factorId
  | setUserPolicy userId policy =>
    refine writing_does library input _ _ storeUserPolicy_policies ?_
    rintro _ ⟨userPolicies,write,rfl⟩
    exact .userPolicy userId policy userPolicies write
  | writeSettings policy registrationVerification =>
    refine writing_does library input _ _ storeSettings_spec ?_
    rintro _ rfl
    exact .settings policy registrationVerification
  | readTarget update userId =>
    simp only [advance]
    split
    · exact .nothing _
    · split
      · exact .nothing _
      · split <;> exact .nothing _
  | countAdmins update target =>
    simp only [advance]
    split <;> exact .nothing _
  | writeUser update target counted =>
    simp only [advance]
    split
    · rename_i row db outcome
      obtain ⟨users,updated,rfl⟩ := ran_ensures outcome updateRow_spec
      exact .updated update target counted users updated
    · exact .nothing _
  | setPassword userId passwordHash =>
    simp only [advance]
    split
    · rename_i value db outcome
      obtain ⟨credentials,users,updated,others,rfl⟩ := ran_ensures outcome storePassword_spec
      exact .password userId passwordHash credentials users updated others
    · exact .nothing _
  | expire token | revoke token => exact .ended _ token
  | refresh token session started remaining => exact .refreshed token session started remaining
  | readSessionUser token session started =>
    simp only [advance]
    split
    · rename_i user found
      split
      · rename_i valid
        exact .admitted token session started user found valid.1 valid.2.2
      · exact .nothing _
    · exact .nothing _

theorem act_does : Does library input (s.wait input.now) handler (act library input s handler).1 := by
  unfold act
  split
  · exact .nothing _
  · exact advance_does library input handler

end Does

inductive Leads (library : Library) (input : Input) (s : Shared) : Handler → Handler → Prop
  | password (email email' password : Text) (returnTo : Option Text) (user : User) (found : getUserByEmail s.db email' = some user) :
      Leads library input s (.login email password returnTo)
        (.readCredential { user, returnTo, basis := some (s.basis user.id) } password)
  | checked (login : Login) (password : Text)
      (valid : credentialsAreValid library login.user (credentialOf s.db login.user.id) password) :
      Leads library input s (.readCredential login password) (.readPolicy { login with
        basis := login.basis.map fun basis => { basis with passwords := (s.basis login.user.id).passwords } })
  | policy (login : Login) : Leads library input s (.readPolicy login) (.readFactors login (mfaPolicy s.db))
  | factors (login : Login) (policy : MfaPolicy) : Leads library input s (.readFactors login policy)
      (.readUserPolicy login policy (usableFactors s.db policy login.user.id))
  | challenge (login : Login) (policy : MfaPolicy) (factors : List UserMfaFactor) (mode : ChallengeMode)
      (chosen : chosenMode (policy.requirementsFor (userMfaPolicy s.db login.user.id) login.user.platformRole) factors =
        some mode) :
      Leads library input s (.readUserPolicy login policy factors) (.createChallenge login mode)
  | unchallenged (login : Login) (policy : MfaPolicy) (factors : List UserMfaFactor)
      (chosen : chosenMode (policy.requirementsFor (userMfaPolicy s.db login.user.id) login.user.platformRole) factors =
        none) :
      Leads library input s (.readUserPolicy login policy factors) (.updateLastLogin login)
  | lastLogin (login : Login) : Leads library input s (.updateLastLogin login) (.createSession login)
  | linked (identity : ExternalIdentity) (userId : Uuid) :
      Leads library input s (.findIdentity identity) (.readLinkedUser identity userId)
  | unlinked (identity : ExternalIdentity) (email : Text) :
      Leads library input s (.findIdentity identity) (.linkIdentity identity email)
  | linkedUser (identity : ExternalIdentity) (userId : Uuid) (user : User) (found : getUserById s.db userId = some user)
      (active : user.status = .active) :
      Leads library input s (.readLinkedUser identity userId) (.readPolicy { user, returnTo := identity.returnTo })
  | identityUser (identity : ExternalIdentity) (email : Text) (user : User) (db : Accounts)
      (outcome : ran s (linkUser input.now input.grants s.drawn identity email) = some (user,db)) (active : user.status = .active) :
      Leads library input s (.linkIdentity identity email) (.readPolicy { user, returnTo := identity.returnTo })
  | registering (registration : Registration) (email : Text) : Leads library input s (.register registration)
      (.createUser { registration with email } s.db.registrationVerification)
  | registered (registration : Registration) (user : User) (db : Accounts)
      (outcome : ran s (createUserRow input.now s.drawn registration.email (some registration.passwordHash) true) =
        some (user,db)) :
      Leads library input s (.createUser registration false) (.updateLastLogin { user })
  | mailing (registration : Registration) (userId : Uuid) :
      Leads library input s (.createUser registration true) (.createAuthToken userId)
  | resending (email : Text) (userId : Uuid) : Leads library input s (.resendEmail email) (.createAuthToken userId)
  | spent (token : Token) (userId : Uuid) (db : Accounts) (outcome : ran s (spendAuthToken input.now token) = some (userId,db)) :
      Leads library input s (.consumeAuthToken token) (.readVerifiedUser userId)
  | emailUser (userId : Uuid) (user : User) (found : getUserById s.db userId = some user) :
      Leads library input s (.readVerifiedUser userId) (.markEmailVerified user)
  | emailVerified (user row : User) (db : Accounts)
      (outcome : ran s (updateRow user.id (fun row => { row with emailVerifiedAt := some input.now }) fun _ => rfl) =
        some (row,db)) :
      Leads library input s (.markEmailVerified user) (.updateLastLogin { user := row })
  | loaded (token : Token) (purpose : Purpose) (opened : Opened) (found : Expiring.get s.challenges token = some opened)
      (permitted : purpose = .totpStart → opened.challenge.mode = .enroll) :
      Leads library input s (.loadChallenge token purpose) (.readChallengeUser token opened purpose)
  | challengeTotp (token : Token) (opened : Opened) (user : User) :
      Leads library input s (.readChallengeUser token opened .totpStart) (.readStartPolicy ⟨user.id,.totp,none⟩)
  | challengeEmail (token : Token) (opened : Opened) (factorId : Option Uuid) (user : User) :
      Leads library input s (.readChallengeUser token opened (.emailSend factorId))
        (.readStartPolicy ⟨user.id,.email,some (.challenge token)⟩)
  | challengeMail (token : Token) (opened : Opened) (factorId : Uuid) (user : User) :
      Leads library input s (.readChallengeUser token opened (.emailSend (some factorId)))
        (.readSendFactor user.id factorId token)
  | challengeVerify (token : Token) (opened : Opened) (factorId : Uuid) (code : Text) (user : User)
      (found : getUserById s.db opened.challenge.userId = some user)
      (current : opened.challenge.authVersion = user.authVersion) :
      Leads library input s (.readChallengeUser token opened (.verify factorId code))
        (.readFactor ⟨token,opened,user⟩ factorId code)
  | accountUser (start : Start) : Leads library input s (.readAccountUser start) (.readStartPolicy start)
  | startAllowed (start : Start) (allowed : (mfaPolicy s.db).allows start.kind) :
      Leads library input s (.readStartPolicy start) (.findFactor start)
  | existing (start : Start) (factor : UserMfaFactor) (found : factorOfKind s.db start.userId start.kind = some factor)
      (unverified : factor.verifiedAt = none) :
      Leads library input s (.findFactor start) (.writeFactor start (some factor))
  | missing (start : Start) (found : factorOfKind s.db start.userId start.kind = none) :
      Leads library input s (.findFactor start) (.writeFactor start none)
  | sending (start : Start) (existing : Option UserMfaFactor) (scope : Scope) (factorId : Uuid) :
      Leads library input s (.writeFactor start existing) (.sendCode scope factorId)
  | resendingCode (userId factorId : Uuid) (token : Token) :
      Leads library input s (.readSendFactor userId factorId token) (.sendCode (.challenge token) factorId)
  | factor (pending : Pending) (factorId : Uuid) (code : Text) (factor : UserMfaFactor)
      (found : mfaFactor s.db pending.user.id factorId = some factor) :
      Leads library input s (.readFactor pending factorId code) (.readVerifyPolicy pending factor code)
  | usable (pending : Pending) (factor : UserMfaFactor) (code : Text) (allowed : (mfaPolicy s.db).allows factor.kind)
      (enrolled : pending.opened.challenge.mode = .verify → factor.verifiedAt ≠ none) :
      Leads library input s (.readVerifyPolicy pending factor code)
        (.checkCode ⟨.challenge pending.token,factor,trim code,some (pending,mfaPolicy s.db)⟩)
  | ownFactor (userId factorId : Uuid) (code : Text) (factor : UserMfaFactor)
      (found : mfaFactor s.db userId factorId = some factor) :
      Leads library input s (.readOwnFactor userId factorId code) (.checkCode ⟨.account userId,factor,trim code,none⟩)
  | totp (verification : Verification) (steps : List Int)
      (correct : checkTotp library input verification.factor verification.code = some steps) :
      Leads library input s (.checkCode verification) (.writeUse verification (.totp steps))
  | mail (verification : Verification) (sent : SentCode)
      (found : Expiring.get s.codes (verification.scope,verification.factor.id) = some sent)
      (correct : sent.code = verification.code) :
      Leads library input s (.checkCode verification) (.deleteCode verification sent.mail)
  | deleted (verification : Verification) (number : Nat) :
      Leads library input s (.deleteCode verification number) (.writeUse verification (.mail number))
  | enrolling (verification : Verification) (checked : Checked) (pending : Pending) (policy : MfaPolicy)
      (carried : verification.pending = some (pending,policy)) (mode : pending.opened.challenge.mode = .enroll) :
      Leads library input s (.writeUse verification checked) (.readEnrolled pending policy)
  | verifying (verification : Verification) (checked : Checked) (pending : Pending) (policy : MfaPolicy)
      (carried : verification.pending = some (pending,policy)) (mode : pending.opened.challenge.mode = .verify) :
      Leads library input s (.writeUse verification checked) (.takeChallenge pending)
  | enrolled (pending : Pending) (policy : MfaPolicy) : Leads library input s (.readEnrolled pending policy)
      (.readEnrolledPolicy pending policy (usableFactors s.db policy pending.user.id))
  | met (pending : Pending) (policy : MfaPolicy) (factors : List UserMfaFactor)
      (met : (policy.requirementsFor (userMfaPolicy s.db pending.user.id) pending.user.platformRole).metBy factors) :
      Leads library input s (.readEnrolledPolicy pending policy factors) (.takeChallenge pending)
  | taken (pending : Pending) (present : (Expiring.get s.challenges pending.token).isSome) :
      Leads library input s (.takeChallenge pending) (.updateLastLogin
        { user := pending.user, basis := pending.opened.basis, origin := some (pending.token,pending.opened) })
  | deletion (userId factorId : Uuid) :
      Leads library input s (.readDeletion userId factorId) (.deleteFactor userId factorId)
  | nextUser (handler : Handler) (update : UserUpdate) (userId : Uuid) : Leads library input s handler (.readTarget update userId)
  | counting (update : UserUpdate) (userId : Uuid) (target : User) :
      Leads library input s (.readTarget update userId) (.countAdmins update target)
  | uncounted (update : UserUpdate) (userId : Uuid) (target : User)
      (harmless : target.platformRole = .admin → target.status = .active → ¬(update.demotes target ∨ update.disables)) :
      Leads library input s (.readTarget update userId) (.writeUser update target none)
  | counted (update : UserUpdate) (target : User) (several : 1 < countActiveAdmins s.db) :
      Leads library input s (.countAdmins update target) (.writeUser update target (some (countActiveAdmins s.db)))
  | expired (token : Token) : Leads library input s (.validate token) (.expire token)
  | valid (token : Token) (session : Session) (found : Expiring.get s.sessions token = some session) (remaining : Int) :
      Leads library input s (.validate token) (.refresh token
        { session with data := { session.data with lastAccessedAt := input.now } } (s.basis session.data.userId) remaining)
  | refreshed (token : Token) (session : Session) (started : Basis) (remaining : Int) :
      Leads library input s (.refresh token session started remaining) (.readSessionUser token session started)
  | refused (token : Token) (session : Session) (started : Basis) :
      Leads library input s (.readSessionUser token session started) (.revoke token)

section Leads
variable {library : Library} {input : Input} {s : Shared} {rest : Handler}

theorem writing_next {α : Type} {transaction : Transaction Accounts Unit α} {next : α → Option Handler}
    (goes : (writing s transaction next).2 = some rest) :
    ∃ value db, ran s transaction = some (value,db) ∧ next value = some rest := by
  unfold writing at goes
  split at goes
  · rename_i value db outcome
    exact ⟨value,db,outcome,goes⟩
  · cases goes

theorem update_leads {handler : Handler} {update : UserUpdate} (next : update.next = some rest) :
    Leads library input s handler rest := by
  unfold UserUpdate.next at next
  split at next
  · cases next
  · cases next
    exact .nextUser handler _ _

theorem advance_leads {handler : Handler} (next : (advance library input s handler).2 = some rest) :
    Leads library input s handler rest := by
  cases handler with
  | login email password returnTo =>
    simp only [advance] at next
    split at next
    · split at next
      · cases next
      · obtain ⟨user,found,next⟩ := Option.bind_eq_some_iff.mp next
        cases next
        exact .password email _ password returnTo user found
    · cases next
  | readCredential login password =>
    simp only [advance] at next
    split at next
    · rename_i valid
      cases next
      exact .checked login password valid.1
    · cases next
  | readPolicy login =>
    cases next
    exact .policy login
  | readFactors login policy =>
    cases next
    exact .factors login policy
  | readUserPolicy login policy factors =>
    simp only [advance] at next
    split at next
    · rename_i mode chosen
      cases next
      exact .challenge login policy factors mode chosen
    · rename_i chosen
      cases next
      exact .unchallenged login policy factors chosen
  | updateLastLogin login =>
    obtain ⟨_,_,_,next⟩ := writing_next next
    cases next
    exact .lastLogin login
  | findIdentity identity =>
    simp only [advance] at next
    split at next
    · cases next
    · split at next
      · cases next
        exact .linked identity _
      · split at next
        · split at next
          · cases next
            exact .unlinked identity _
          · cases next
        · cases next
  | readLinkedUser identity userId =>
    obtain ⟨user,found,next⟩ := Option.bind_eq_some_iff.mp next
    obtain ⟨found,active⟩ := Option.filter_eq_some_iff.mp found
    cases next
    exact .linkedUser identity userId user found (of_decide_eq_true active)
  | linkIdentity identity email =>
    obtain ⟨user,db,outcome,next⟩ := writing_next next
    split at next
    · rename_i active
      cases next
      exact .identityUser identity email user db outcome active
    · cases next
  | register registration =>
    simp only [advance] at next
    split at next
    · split at next
      · cases next
      · cases next
        exact .registering registration _
    · cases next
  | createUser registration verificationRequired =>
    simp only [advance] at next
    split at next
    · cases next
    · obtain ⟨user,db,outcome,next⟩ := writing_next next
      cases verificationRequired with
      | true =>
        cases next
        exact .mailing registration user.id
      | false =>
        cases next
        exact .registered registration user db outcome
  | resendEmail email =>
    simp only [advance] at next
    split at next
    · split at next
      · obtain ⟨user,_,next⟩ := Option.bind_eq_some_iff.mp next
        cases next
        exact .resending email user.id
      · cases next
    · cases next
  | createAuthToken userId | setUserPolicy userId policy | writeSettings policy registrationVerification =>
    obtain ⟨_,_,_,next⟩ := writing_next next
    cases next
  | consumeAuthToken token =>
    obtain ⟨userId,db,outcome,next⟩ := writing_next next
    cases next
    exact .spent token userId db outcome
  | readVerifiedUser userId =>
    obtain ⟨user,found,next⟩ := Option.bind_eq_some_iff.mp next
    cases next
    exact .emailUser userId user found
  | markEmailVerified user =>
    obtain ⟨row,db,outcome,next⟩ := writing_next next
    cases next
    exact .emailVerified user row db outcome
  | loadChallenge token purpose =>
    obtain ⟨opened,found,next⟩ := Option.bind_eq_some_iff.mp next
    split at next
    · cases next
    · rename_i permitted
      cases next
      refine .loaded token purpose opened found fun start => ?_
      by_contra other
      exact permitted ⟨start,other⟩
  | readChallengeUser token opened purpose =>
    obtain ⟨user,found,next⟩ := Option.bind_eq_some_iff.mp next
    obtain ⟨found,valid⟩ := Option.filter_eq_some_iff.mp found
    cases purpose with
    | totpStart =>
      cases next
      exact .challengeTotp token opened user
    | emailSend factorId =>
      simp only [Pending.next] at next
      split at next
      · split at next
        · cases next
        · cases next
          exact .challengeEmail token opened factorId user
      · obtain ⟨factorId,rfl,rfl⟩ := Option.map_eq_some_iff.mp next
        exact .challengeMail token opened factorId user
    | verify factorId code =>
      cases next
      exact .challengeVerify token opened factorId code user found (of_decide_eq_true valid).2
  | readAccountUser start =>
    obtain ⟨user,_,next⟩ := Option.bind_eq_some_iff.mp next
    split at next
    · cases next
    · cases next
      exact .accountUser start
  | readStartPolicy start =>
    simp only [advance] at next
    split at next
    · rename_i allowed
      cases next
      exact .startAllowed start allowed
    · cases next
  | findFactor start =>
    simp only [advance] at next
    split at next
    · rename_i factor found
      split at next
      · cases next
      · rename_i unverified
        cases next
        exact .existing start factor found (by simpa using unverified)
    · rename_i found
      cases next
      exact .missing start found
  | writeFactor start existing =>
    obtain ⟨row,_,_,next⟩ := writing_next next
    obtain ⟨scope,_,rfl⟩ := Option.map_eq_some_iff.mp next
    exact .sending start existing scope row.id
  | readSendFactor userId factorId token =>
    obtain ⟨factor,found,next⟩ := Option.bind_eq_some_iff.mp next
    obtain ⟨found,_⟩ := Option.filter_eq_some_iff.mp found
    obtain ⟨found,_⟩ := Option.filter_eq_some_iff.mp found
    cases next
    rw [Table.find_key found]
    exact .resendingCode userId factorId token
  | sendCode scope factorId =>
    simp only [advance] at next
    split at next <;> cases next
  | readFactor pending factorId code =>
    obtain ⟨factor,found,next⟩ := Option.bind_eq_some_iff.mp next
    cases next
    exact .factor pending factorId code factor found
  | readVerifyPolicy pending factor code =>
    simp only [advance] at next
    split at next
    · cases next
    · rename_i usable
      cases next
      simp only [not_or,not_and] at usable
      exact .usable pending factor code (by simpa using usable.1) usable.2
  | readOwnFactor userId factorId code =>
    obtain ⟨factor,found,next⟩ := Option.bind_eq_some_iff.mp next
    cases next
    exact .ownFactor userId factorId code factor found
  | checkCode verification =>
    simp only [advance] at next
    split at next
    · split at next
      · obtain ⟨steps,correct,rfl⟩ := Option.map_eq_some_iff.mp next
        exact .totp verification steps correct
      · obtain ⟨sent,found,next⟩ := Option.bind_eq_some_iff.mp next
        obtain ⟨found,correct⟩ := Option.filter_eq_some_iff.mp found
        cases next
        exact .mail verification sent found (of_decide_eq_true correct)
    · cases next
  | deleteCode verification number =>
    cases next
    exact .deleted verification number
  | writeUse verification checked =>
    simp only [advance] at next
    split at next
    · obtain ⟨⟨pending,policy⟩,carried,next⟩ := Option.bind_eq_some_iff.mp next
      split at next
      · rename_i mode
        cases next
        exact .enrolling verification checked pending policy carried mode
      · rename_i mode
        cases next
        exact .verifying verification checked pending policy carried mode
    · cases next
  | readEnrolled pending policy =>
    cases next
    exact .enrolled pending policy
  | readEnrolledPolicy pending policy factors =>
    simp only [advance] at next
    split at next
    · rename_i met
      cases next
      exact .met pending policy factors met
    · cases next
  | takeChallenge pending =>
    simp only [advance] at next
    split at next
    · rename_i found
      cases next
      refine .taken pending ?_
      rw [found]
      rfl
    · cases next
  | readDeletion userId factorId =>
    obtain ⟨found,_,next⟩ := Option.bind_eq_some_iff.mp next
    dsimp only at next
    split at next
    · cases next
    · cases next
      exact .deletion userId factorId
  | readTarget update userId =>
    simp only [advance] at next
    split at next
    · exact update_leads next
    · split at next
      · exact update_leads next
      · split at next
        · cases next
          exact .counting update userId _
        · rename_i harmless
          cases next
          exact .uncounted update userId _ fun admin active takes => harmless ⟨admin,active,takes⟩
  | countAdmins update target =>
    simp only [advance] at next
    split at next
    · exact update_leads next
    · rename_i several
      cases next
      exact .counted update target (Nat.lt_of_not_le several)
  | writeUser update target counted =>
    simp only [advance] at next
    split at next <;> exact update_leads next
  | setPassword userId passwordHash =>
    simp only [advance] at next
    split at next <;> cases next
  | validate token =>
    obtain ⟨session,found,next⟩ := Option.bind_eq_some_iff.mp next
    split at next
    · cases next
      exact .expired token
    · dsimp only at next
      split at next
      · cases next
        exact .expired token
      · cases next
        exact .valid token session found _
  | refresh token session started remaining =>
    simp only [advance] at next
    split at next
    · cases next
      exact .refreshed token session started remaining
    · cases next
  | readSessionUser token session started =>
    simp only [advance] at next
    split at next
    · split at next
      · cases next
      · cases next
        exact .refused token session started
    · cases next
      exact .refused token session started
  | createChallenge | createSession | deleteFactor | expire | revoke => cases next

theorem act_leads {handler : Handler} (next : (act library input s handler).2 = some rest) :
    Leads library input (s.wait input.now) handler rest := by
  unfold act at next
  split at next
  · unfold abandon at next
    split at next
    · exact update_leads next
    · exact update_leads next
    · exact update_leads next
    · cases next
  · exact advance_leads next

end Leads

/-- Of the accounts as they are, nobody is logged in and nothing has happened. -/
def idle (db : Accounts) (drawn : Nat) : Config Shared Handler := ⟨{ db, drawn },[]⟩

/-- A library for sample runs: a password is its own hash, and a value is six digits. -/
def plainLibrary : Library where
  verifyPassword := fun password hash => password = hash
  generate := fun secret step =>
    ((Nat.toDigits 10 (((secret.map UInt8.toNat).sum * 7919 + step.toNat) % 1000000)).leftpad 6 '0')
  sessionTtl := 86400
  idleTtl := 3600

def singleUser (factor : UserMfaFactor) (policy : MfaPolicy) : Accounts where
  users := ⟨[⟨1,['a','@','b','.','c'],.active,1,.user,some 0,none,none⟩],by decide,by decide⟩
  credentials := ⟨[⟨1,1,['p']⟩],by decide,by decide⟩
  factors := ⟨[factor],by simp,by simp⟩
  userPolicies := ∅
  authTokens := ∅
  identities := ∅
  mfaPolicy := some policy

def alone (request : Request) (actions : Nat) (input : Input) : List (Event Request Input) :=
  .arrive request :: List.replicate actions (.resume 0 input)

def secondsLater (seconds : Int) : Input := { now := seconds * microseconds }

def passwordLogin (seconds : Int) : List (Event Request Input) :=
  alone (.login ['a','@','b','.','c'] ['p'] none) 6 (secondsLater seconds)

end GrassWorker.Logins
