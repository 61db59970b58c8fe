import GrassWorker.ControlPlane.RevokedLogins

/-! Accounts whose email is first verified through an identity provider. A run is watched: which accounts a callback
verifies, and which passwords are accepted, each with how often the password of the account had been set. -/
namespace GrassWorker.Logins
open Authentication Interleaving Transaction Runs

structure Occasion where
  userId : Uuid
  passwords : Nat
deriving DecidableEq

structure Trace where
  verified : List Occasion := []
  accepted : List Occasion := []
deriving DecidableEq

section Watch
variable (library : Library) (input : Input) (s : Shared)

def firstVerified : Handler → Option Uuid
  | .linkIdentity identity email =>
    if input.fails then none
    else ((ran s (linkUser input.now input.grants s.drawn identity email)).filter fun linked =>
      ((s.db.users.find linked.1.id).bind User.emailVerifiedAt).isNone).map fun linked => linked.1.id
  | _ => none

def acceptedFor : Handler → Option Uuid
  | .readCredential login password =>
    if input.fails = false ∧ credentialsAreValid library login.user (credentialOf s.db login.user.id) password ∧
      login.user.emailVerifiedAt.isSome then some login.user.id else none
  | _ => none

def occasions (found : Option Uuid) : List Occasion := found.toList.map fun userId => ⟨userId,(s.basis userId).passwords⟩

end Watch

def watch (library : Library) (config : Config Shared Handler) (trace : Trace) : Event Request Input → Trace
  | .arrive _ => trace
  | .resume index input =>
    match config.inflight[index]? with
    | none => trace
    | some handler =>
      ⟨trace.verified ++ occasions config.shared (firstVerified input config.shared handler),
        trace.accepted ++ occasions config.shared (acceptedFor library input config.shared handler)⟩

def watchedStep (library : Library) (state : Config Shared Handler × Trace) (event : Event Request Input) :
    Config Shared Handler × Trace :=
  ((machine library).step state.1 event,watch library state.1 state.2 event)

/-- No password is accepted for an account that was first verified by a callback, unless it was set afterwards. -/
def Uncaptured (state : Config Shared Handler × Trace) : Prop :=
  ∀ verified ∈ state.2.verified, ∀ accepted ∈ state.2.accepted, accepted.userId = verified.userId →
    verified.passwords < accepted.passwords

instance (state : Config Shared Handler × Trace) : Decidable (Uncaptured state) :=
  inferInstanceAs (Decidable (∀ verified ∈ state.2.verified, _))

def Unclaimed (input : Input) (s : Shared) (handler : Handler) : Prop :=
  ∀ userId ∈ firstVerified input s handler, credentialOf s.db userId = none

instance (input : Input) (s : Shared) (handler : Handler) : Decidable (Unclaimed input s handler) :=
  inferInstanceAs (Decidable (∀ userId ∈ firstVerified input s handler, _))

def Verified (s : Shared) (userId : Uuid) : Prop :=
  ∃ user, s.db.users.find userId = some user ∧ user.emailVerifiedAt.isSome

/-- A verified account stays so, and its password changes only by being set. -/
structure Keeps (s s' : Shared) : Prop where
  counts : ∀ userId, (s.basis userId).passwords ≤ (s'.basis userId).passwords
  verified : ∀ userId, Verified s userId → Verified s' userId
  credentials : ∀ userId, Verified s userId →
    credentialOf s'.db userId = credentialOf s.db userId ∨ (s.basis userId).passwords < (s'.basis userId).passwords

section Keeps
variable {library : Library} {input : Input} {s s' : Shared} {handler : Handler}

theorem keeps_of_same (users : s'.db.users = s.db.users) (credentials : s'.db.credentials = s.db.credentials)
    (passwords : s'.passwordsSet = s.passwordsSet) : Keeps s s' := by
  refine ⟨fun userId => ?_,fun userId verified => ?_,fun userId _ => .inl ?_⟩
  · simp [Shared.basis,passwords]
  · unfold Verified
    rwa [users]
  · unfold credentialOf
    rw [credentials]

theorem does_keeps (does : Does library input s handler s') : Keeps s s' := by
  cases does with
  | users _ db write =>
    obtain ⟨users,credentials,identities,write,kept,rfl⟩ := write
    refine ⟨fun _ => le_refl _,?_,?_⟩
    · rintro userId ⟨user,found,verified⟩
      obtain ⟨next,after,unchanged⟩ := usersWrite_find write found
      exact ⟨next,after,unchanged.verified verified⟩
    · rintro userId ⟨user,found,_⟩
      exact .inl (kept userId (by rw [found]; rfl))
  | updated update target counted users updated =>
    refine ⟨fun _ => le_refl _,?_,fun _ _ => .inl rfl⟩
    rintro userId ⟨user,found,verified⟩
    have after := Table.find_update updated userId
    rw [found] at after
    split at after
    · exact ⟨update.apply user,after,verified⟩
    · exact ⟨user,after,verified⟩
  | password target passwordHash credentials users updated others =>
    refine ⟨fun userId => ?_,?_,?_⟩
    · simp [Shared.basis]
    · rintro userId ⟨user,found,verified⟩
      have after := Table.find_update updated userId
      rw [found] at after
      split at after
      · exact ⟨_,after,verified⟩
      · exact ⟨user,after,verified⟩
    · intro userId _
      by_cases same : userId = target
      · right
        simp [Shared.basis,same]
      · exact .inl (others userId same)
  | _ => exact keeps_of_same rfl rfl rfl

theorem linkUser_verifies {db : Accounts} {now : Timestamp} {granted : Bool} {id : Uuid} {identity : ExternalIdentity}
    {email : Text} :
    Ensures (linkUser now granted id identity email) db fun user after =>
      (∃ row, after.users.find user.id = some row ∧ row.emailVerifiedAt.isSome) ∧ after.credentials = db.credentials := by
  have chosen : Ensures (userForEmail now granted id email) db fun user after =>
      (∃ row, after.users.find user.id = some row ∧ row.emailVerifiedAt.isSome) ∧ after.credentials = db.credentials := by
    unfold userForEmail
    rw [ensures_bind,ensures_get]
    split
    · rename_i user found
      split
      · rw [ensures_updateRow]
        intro users row updated reached
        have after := Table.find_update updated user.id
        rw [if_pos rfl,getUserByEmail_find found] at after
        rw [reached] at after
        cases after
        exact ⟨⟨_,reached,rfl⟩,rfl⟩
      · rename_i verified
        rw [ensures_pure]
        exact ⟨⟨user,getUserByEmail_find found,Option.isSome_iff_ne_none.mpr verified⟩,rfl⟩
    · rw [ensures_bind,ensures_require]
      intro _
      rw [createUserRow,ensures_write]
      intro user after written
      obtain ⟨users,inserted,written⟩ := Option.bind_eq_some_iff.mp written
      cases written
      exact ⟨⟨_,(Table.find_insert inserted id).trans (if_pos rfl),rfl⟩,rfl⟩
  unfold linkUser
  rw [ensures_bind]
  refine chosen.mono ?_
  rintro user between ⟨verified,credentials⟩
  rw [ensures_bind,ensures_write]
  intro _ after written
  obtain ⟨linked,_,written⟩ := Option.bind_eq_some_iff.mp written
  cases written
  rw [ensures_pure]
  exact ⟨verified,credentials⟩

theorem firstVerified_leaves {userId : Uuid} (first : userId ∈ firstVerified input s handler) :
    ¬Verified s userId ∧ Verified (act library input s handler).1 userId ∧
      credentialOf (act library input s handler).1.db userId = credentialOf s.db userId := by
  cases handler with
  | linkIdentity identity email =>
    simp only [firstVerified] at first
    split at first
    · cases first
    · rename_i runs
      obtain ⟨linked,outcome,rfl⟩ := Option.map_eq_some_iff.mp first
      obtain ⟨ran',fresh⟩ := Option.filter_eq_some_iff.mp outcome
      obtain ⟨user,db⟩ := linked
      obtain ⟨verified,credentials⟩ := ran_ensures ran' linkUser_verifies
      have result : (act library input s (.linkIdentity identity email)).1.db = db := by
        unfold act
        rw [if_neg runs]
        simp only [advance,writing]
        have waited : ran (s.wait input.now) (linkUser input.now input.grants (s.wait input.now).drawn identity email) =
          some (user,db) := ran'
        rw [waited]
      refine ⟨?_,?_,?_⟩
      · rintro ⟨row,found,was⟩
        simp only [found,Option.bind_some,Option.isNone_iff_eq_none] at fresh
        rw [fresh] at was
        cases was
      · unfold Verified
        rwa [result]
      · unfold credentialOf
        rw [result,credentials]
  | _ => cases first

end Keeps

/-- The account a password check goes on for is verified, if it was read so. -/
def ReadsVerified (s : Shared) : Handler → Prop
  | .readCredential login _ => login.user.emailVerifiedAt.isSome → Verified s login.user.id
  | _ => True

theorem leads_readsVerified {library : Library} {input : Input} {s : Shared} {handler rest : Handler}
    (leads : Leads library input s handler rest) : ReadsVerified s rest := by
  cases leads with
  | password email email' password returnTo user found => exact fun verified => ⟨user,getUserByEmail_find found,verified⟩
  | _ => trivial

theorem ReadsVerified.keep {s s' : Shared} (keeps : Keeps s s') {handler : Handler} (reads : ReadsVerified s handler) :
    ReadsVerified s' handler := by
  cases handler with
  | readCredential login password => exact fun verified => keeps.verified _ (reads verified)
  | _ => trivial

/-- What is watched of a run: accounts verified by callbacks have no password from before, and passwords are accepted
for verified accounts only. -/
structure Watched (state : Config Shared Handler × Trace) : Prop where
  handlers : Holds (fun _ => True) ReadsVerified state.1
  verified : ∀ verified ∈ state.2.verified, Verified state.1.shared verified.userId ∧
    verified.passwords ≤ (state.1.shared.basis verified.userId).passwords ∧
      (credentialOf state.1.shared.db verified.userId ≠ none →
        verified.passwords < (state.1.shared.basis verified.userId).passwords)
  accepted : ∀ accepted ∈ state.2.accepted, Verified state.1.shared accepted.userId
  uncaptured : Uncaptured state

section Step
variable {library : Library} {config : Config Shared Handler} {trace : Trace}

theorem holds_step (holds : Holds (fun _ => True) ReadsVerified config) (event : Event Request Input) :
    Holds (fun _ => True) ReadsVerified ((machine library).step config event) := by
  refine Holds.step ?_ ?_ ?_ config event holds (acting_true config event)
  · intro s request _
    cases request <;> trivial
  · intro input s handler _ _ _
    refine ⟨trivial,fun rest next => ?_⟩
    exact ReadsVerified.keep (does_keeps (act_does library input handler)) (leads_readsVerified (act_leads next))
  · intro input s handler other _ _ _ asserted
    have waited : Keeps s (s.wait input.now) := keeps_of_same rfl rfl rfl
    exact (asserted.keep waited).keep (does_keeps (act_does library input handler))

theorem mem_occasions {s : Shared} {found : Option Uuid} {occasion : Occasion} (member : occasion ∈ occasions s found) :
    occasion.userId ∈ found ∧ occasion.passwords = (s.basis occasion.userId).passwords := by
  obtain ⟨userId,inside,rfl⟩ := List.mem_map.mp member
  exact ⟨Option.mem_toList.mp inside,rfl⟩

theorem acceptedFor_valid {input : Input} {s : Shared} {handler : Handler} {userId : Uuid}
    (accepted : userId ∈ acceptedFor library input s handler) (reads : ReadsVerified s handler) :
    Verified s userId ∧ credentialOf s.db userId ≠ none := by
  cases handler with
  | readCredential login password =>
    simp only [acceptedFor] at accepted
    split at accepted
    · rename_i valid
      cases accepted
      obtain ⟨_,valid,verified⟩ := valid
      refine ⟨reads verified,fun missing => ?_⟩
      rw [missing] at valid
      simp [credentialsAreValid] at valid
    · cases accepted
  | _ => cases accepted

theorem Watched.step (watched : Watched (config,trace)) (event : Event Request Input)
    (unclaimed : Acting Unclaimed config event) : Watched (watchedStep library (config,trace) event) := by
  have handlers := @holds_step library config watched.handlers event
  cases event with
  | arrive request => exact ⟨handlers,watched.verified,watched.accepted,watched.uncaptured⟩
  | resume index input =>
    cases found : config.inflight[index]? with
    | none =>
      have same : watchedStep library (config,trace) (.resume index input) = (config,trace) := by
        simp only [watchedStep,Machine.step,watch,found]
      rw [same]
      exact watched
    | some handler =>
      have reads := watched.handlers.handlers handler (List.mem_of_getElem? found)
      have kept : Keeps config.shared (act library input config.shared handler).1 := by
        have waited : Keeps config.shared (config.shared.wait input.now) := keeps_of_same rfl rfl rfl
        have does := does_keeps (act_does library input handler (s := config.shared))
        exact ⟨does.counts,fun userId verified => does.verified userId (waited.verified userId verified),
          fun userId verified => does.credentials userId (waited.verified userId verified)⟩
      have next : watchedStep library (config,trace) (.resume index input) =
          (⟨(act library input config.shared handler).1,
            settle config.inflight index (act library input config.shared handler).2⟩,
          ⟨trace.verified ++ occasions config.shared (firstVerified input config.shared handler),
            trace.accepted ++ occasions config.shared (acceptedFor library input config.shared handler)⟩) := by
        simp only [watchedStep,Machine.step,watch,found,machine]
      rw [next]
      simp only [Machine.step,found] at handlers
      have firsts : ∀ verified ∈ occasions config.shared (firstVerified input config.shared handler),
          verified.passwords = (config.shared.basis verified.userId).passwords ∧ ¬Verified config.shared verified.userId ∧
            Verified (act library input config.shared handler).1 verified.userId ∧
              credentialOf (act library input config.shared handler).1.db verified.userId = none := by
        intro verified member
        obtain ⟨first,times⟩ := mem_occasions member
        obtain ⟨before,after,same⟩ := @firstVerified_leaves library _ _ _ _ first
        exact ⟨times,before,after,same.trans (unclaimed handler found _ first)⟩
      have accepts : ∀ accepted ∈ occasions config.shared (acceptedFor library input config.shared handler),
          accepted.passwords = (config.shared.basis accepted.userId).passwords ∧ Verified config.shared accepted.userId ∧
            credentialOf config.shared.db accepted.userId ≠ none := by
        intro accepted member
        obtain ⟨valid,times⟩ := mem_occasions member
        exact ⟨times,acceptedFor_valid valid reads⟩
      refine ⟨handlers,?_,?_,?_⟩
      · intro verified member
        rcases List.mem_append.mp member with old | new
        · obtain ⟨was,times,replaced⟩ := watched.verified verified old
          refine ⟨kept.verified _ was,times.trans (kept.counts _),fun present => ?_⟩
          rcases kept.credentials _ was with same | set
          · rw [same] at present
            exact Nat.lt_of_lt_of_le (replaced present) (kept.counts _)
          · exact Nat.lt_of_le_of_lt times set
        · obtain ⟨times,_,after,missing⟩ := firsts verified new
          refine ⟨after,?_,fun present => absurd missing present⟩
          rw [times]
          exact kept.counts _
      · intro accepted member
        rcases List.mem_append.mp member with old | new
        · exact kept.verified _ (watched.accepted accepted old)
        · exact kept.verified _ (accepts accepted new).2.1
      · intro verified first accepted second same
        rcases List.mem_append.mp first with old | new
        · rcases List.mem_append.mp second with earlier | later
          · exact watched.uncaptured verified old accepted earlier same
          · obtain ⟨times,_,present⟩ := accepts accepted later
            rw [times,same]
            rw [same] at present
            exact (watched.verified verified old).2.2 present
        · -- no password was accepted for an account that was not verified
          obtain ⟨_,before,_⟩ := firsts verified new
          exfalso
          apply before
          rw [← same]
          rcases List.mem_append.mp second with earlier | later
          · exact watched.accepted accepted earlier
          · exact (accepts accepted later).2.1

end Step

/-- In every run whose callbacks verify no account that has a password, no password chosen before an account was first
verified by a callback logs in to it. -/
theorem passwords_follow_verification (library : Library) (db : Accounts) (drawn : Nat) (events : List (Event Request Input))
    (unclaimed : Along (watchedStep library) (fun state event => Acting Unclaimed state.1 event) (idle db drawn,{}) events) :
    Throughout (watchedStep library) Uncaptured (idle db drawn,{}) events := by
  have start : Watched (idle db drawn,{}) := by
    refine ⟨⟨trivial,?_⟩,?_,?_,?_⟩ <;>
    · intro _ member
      cases member
  have kept : ∀ state event, Watched state → Acting Unclaimed state.1 event → Watched (watchedStep library state event) :=
    fun state event watched meets => watched.step event meets
  exact throughout_of_invariant kept (fun state watched => watched.uncaptured) _ events start unclaimed

/-- Nobody has an account yet, and whoever registers has to verify his email. -/
def verifying : Accounts := ⟨⟨[],by decide,by decide⟩,⟨[],by decide,by decide⟩,⟨[],by decide,by decide⟩,
  ⟨[],by decide,by decide⟩,⟨[],by decide,by decide⟩,⟨[],by decide,by decide⟩,none,true⟩

def owner : ExternalIdentity := ⟨7,['s'],some ['a','@','b','.','c'],true,none⟩

def registering : List (Event Request Input) := alone (.register ⟨['a','@','b','.','c'],['p']⟩) 3 (secondsLater 1)

def callingBack : List (Event Request Input) := alone (.callback owner) 7 (secondsLater 2)

def loggingIn : List (Event Request Input) := alone (.login ['a','@','b','.','c'] ['p'] none) 2 (secondsLater 3)

/-- Somebody registers with the email of another, who then signs in with a provider: the password of the
registration is accepted. -/
theorem registration_captures_account :
    ¬Throughout (watchedStep plainLibrary) Uncaptured (idle verifying 10,{}) (registering ++ callingBack ++ loggingIn) := by
  intro holds
  have captured : ¬Uncaptured (run (watchedStep plainLibrary) (idle verifying 10,{}) (registering ++ callingBack ++ loggingIn)) := by
    decide
  exact captured holds.last

/-- The owner signs in with the provider first, sets a password and logs in with it. -/
theorem owner_logs_in : Throughout (watchedStep plainLibrary) Uncaptured (idle verifying 10,{})
    (callingBack ++ alone (.setPassword 10 ['p']) 1 (secondsLater 2) ++ loggingIn) :=
  passwords_follow_verification plainLibrary verifying 10 _ (by decide)

end GrassWorker.Logins
